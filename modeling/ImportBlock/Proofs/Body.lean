import Mathlib
import ImportBlock.Proofs.Layout

/-! # The body

    What stands after the import block is copied.  A text that is put together from a
    block and a body is cut where it was put together, `Block.ofText_append`: its lines to
    be read are those of the block alone, and its body is the body.  So the statements are
    put in order as if there were no body, and the body follows them byte for byte, but for
    one final line feed: `optimize_append_body`. -/

namespace ImportBlock

open Text

instance (body : List Text) : Decidable (BodyStart body) :=
  inferInstanceAs (Decidable (∀ l ∈ body.head?, trim l ≠ [] ∧ isImportLine (trim l) = false))

namespace Block

/-- The lines of an import block: each is blank or an import line. -/
def BlockLines (ls : List Text) : Prop := ∀ l ∈ ls, trim l = [] ∨ isImportLine (trim l) = true

instance (ls : List Text) : Decidable (BlockLines ls) :=
  inferInstanceAs (Decidable (∀ l ∈ ls, trim l = [] ∨ isImportLine (trim l) = true))

/-- Lines are cut where the block ends, whatever the body is. -/
theorem ofLines_append_body {ls body : List Text} (hls : BlockLines ls) (hbody : BodyStart body)
    (i : Nat) :
    ofLines i (ls ++ body) = { candidates := (ofLines i ls).candidates, body := body } := by
  induction ls generalizing i with
  | nil => exact ofLines_body hbody i
  | cons l ls ih =>
      have hrest := ih (fun m hm => hls m (List.mem_cons_of_mem l hm)) (i + 1)
      rw [List.cons_append]
      rcases hls l List.mem_cons_self with hblank | himport
      · rw [ofLines_of_blank hblank, ofLines_of_blank hblank, hrest]
      · rw [ofLines_of_import himport, ofLines_of_import himport, hrest]

theorem body_of_blockLines {ls : List Text} (h : BlockLines ls) (i : Nat) :
    (ofLines i ls).body = [] := by
  have hstart : BodyStart [] := by simp [BodyStart]
  have hnone := ofLines_append_body h hstart i
  rw [List.append_nil] at hnone
  rw [hnone]

/-- **A text is cut where it was put together**: the import lines come from the block
    alone, and the body is the second text. -/
theorem ofText_append {above body : Text} (hends : above.getLast? = some newline)
    (hblock : BlockLines (lines above)) (hstart : BodyStart (lines body)) :
    ofText (above ++ body) = { candidates := (ofText above).candidates, body := lines body } := by
  rw [ofText, lines_append body hends, ofLines_append_body hblock hstart]
  rfl

end Block

/-- Without carriage returns the lines of a text give it back, but for a final line feed. -/
theorem unlines_lines {s : Text} (hreturn : carriageReturn ∉ s) :
    unlines (lines s) = chopEnd newline s := by
  rw [lines_of_no_return hreturn, unlines_dropFinalEmpty_split]

/-- **The body is copied** and does not influence the import lines.  A block with a line that
    can be read, followed by a body without carriage returns, becomes what the block alone
    becomes, a blank line if that is anything, and the body without one final line feed. -/
theorem optimize_append_body (r : Rules) (above body : Text)
    (hends : above.getLast? = some newline) (hblock : Block.BlockLines (lines above))
    (hread : (Block.ofText above).declarations ≠ []) (hne : body ≠ [])
    (hreturn : carriageReturn ∉ body) (hstart : BodyStart (lines body)) :
    optimize r (above ++ body)
      = (if optimize r above = [] then [] else optimize r above ++ [newline, newline])
        ++ chopEnd newline body := by
  have hcut := Block.ofText_append hends hblock hstart
  -- the block alone has no body
  have halone : optimize r above = unlines (importLines r (Block.ofText above)) := by
    rw [Block.optimize_eq_assemble r hread, Block.ofText, Block.body_of_blockLines hblock,
      assemble, if_pos rfl]
  have hboth : (Block.ofText (above ++ body)).declarations ≠ [] := by
    rw [hcut]
    exact hread
  have hlines : importLines r (Block.ofText (above ++ body))
      = importLines r (Block.ofText above) := by
    rw [hcut]
    rfl
  rw [Block.optimize_eq_assemble r hboth, hlines, hcut, assemble, if_neg (lines_ne_nil hne),
    unlines_lines hreturn, ← halone]
  split
  · rfl
  · rfl

/-- An import block with a line that cannot be read, blank lines and carriage returns. -/
def blockPart : Text := text "\timport b from 'b'\r\n \u00a0\r\nimport oops\n\nimport a from 'a'\n"

/-- A body with an import line in it, runs of blank lines, a stray byte, spaces at the ends
    of lines and two final line feeds. -/
def bodyPart : Text := text "run(); \n\n\nimport late from 'l'\n" ++ [0xFF] ++ text "  \n\n"

theorem optimize_append_body_blockPart :
    optimize { sort := true } (blockPart ++ bodyPart)
        = optimize { sort := true } blockPart ++ [newline, newline]
          ++ (text "run(); \n\n\nimport late from 'l'\n" ++ [0xFF] ++ text "  \n")
      ∧ optimize { sort := true } blockPart = text "import a from 'a';\nimport b from 'b';" := by
  have hblock : optimize { sort := true } blockPart
      = text "import a from 'a';\nimport b from 'b';" := by decide +kernel
  have hcopied := optimize_append_body { sort := true } blockPart bodyPart (by decide +kernel)
    (by decide +kernel) (by decide +kernel) (by decide +kernel) (by decide +kernel)
    (by decide +kernel)
  refine ⟨?_, hblock⟩
  rw [hcopied, hblock, if_neg (by decide +kernel)]
  rfl

end ImportBlock
