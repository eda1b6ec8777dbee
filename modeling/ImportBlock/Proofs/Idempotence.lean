import Mathlib
import ImportBlock.Proofs.Rewritten

/-! # A second run changes nothing

    The first run gives settled statements and prints them.  The second one reads them
    back, up to a lone named binding that comes back as a default binding; this keeps
    sources, order and lines, so the statements are still settled and the second run
    prints the same lines (`importLines_rewritten`).

    This needs that names do not hold the marks of a clause, and that the body is not
    changed by counting its lines again. -/

namespace ImportBlock

open Text

/-! ## Statements that are read back -/

theorem Clause.reread_named (c : Clause) : c.reread.named = c.named ∨ c.reread.named = [] := by
  rw [reread]
  split
  · exact Or.inr rfl
  · exact Or.inl rfl

/-- Reading settled statements back keeps them settled. -/
theorem Settled.reread {r : Rules} {gs : List Statement} (h : Settled r gs) :
    Settled r (gs.map Statement.reread) where
  sorted := fun hsort => (sortedOn_map Statement.reread).2 (h.sorted hsort)
  apart := fun hmerge => by
    rw [List.map_map]
    exact h.apart hmerge
  named := fun hmerge hsort g hg => by
    obtain ⟨s, hs, rfl⟩ := List.mem_map.1 hg
    rcases Clause.reread_named s.clause with hnamed | hnamed
    · show SortedOn Binding.name s.clause.reread.named
      rw [hnamed]
      exact h.named hmerge hsort s hs
    · show SortedOn Binding.name s.clause.reread.named
      rw [hnamed]
      exact List.Pairwise.nil

section

variable {r : Rules} {src : Text} (hr : r.merge = true ∨ r.dedupe = false)
  (hclauses : ∀ d ∈ (Block.ofText src).declarations, d.clause.Unmarked)

include hr hclauses in
/-- **The second run writes the import lines of the first.** -/
theorem importLines_rewritten (hne : (Block.ofText src).declarations ≠ []) :
    importLines r (Block.ofText (optimize r src)) = importLines r (Block.ofText src) := by
  have hprint := printable_of_mem_statements (r := r) hclauses
  have hstatements := statements_rewritten hne hprint
  -- what is read back is settled already
  have hsettled : Settled r
      ((Block.ofText (optimize r src)).declarations.map Declaration.statement) := by
    rw [hstatements]
    exact ((r.settled_statements _).sublist List.filter_sublist).reread
  have hnames : ∀ d ∈ (Block.ofText (optimize r src)).declarations,
      (d.clause.named.map Binding.name).Nodup := by
    intro d hd
    exact (Block.asRead_of_mem_declarations hd).clause.nodup
  have hbad : (if r.keepMalformed = true then (Block.ofText (optimize r src)).malformed else [])
      = if r.keepMalformed = true then (Block.ofText src).malformed else [] := by
    rw [malformed_rewritten hne hprint]
    split
    · rfl
    · rfl
  rw [importLines, importLines, hsettled.statements_eq hnames hr, hstatements,
    Statement.renderAll_reread, hbad]

/-! ## Texts -/

variable (hreturns : ∀ l ∈ (Block.ofText src).body, l.getLast? ≠ some carriageReturn)
  (hlast : (Block.ofText src).body.getLast? ≠ some [])

include hreturns hlast in
theorem body_rewritten (hne : (Block.ofText src).declarations ≠ []) :
    (Block.ofText (optimize r src)).body = (Block.ofText src).body := by
  rw [Block.ofText_optimize r hne, dropFinalEmpty_eq_self hlast]
  calc (Block.ofText src).body.map (chopEnd carriageReturn)
      = (Block.ofText src).body.map id :=
        List.map_congr_left fun l hl => chopEnd_eq_self (hreturns l hl)
    _ = (Block.ofText src).body := List.map_id _

include hr hclauses hreturns hlast in
theorem optimize_optimize : optimize r (optimize r src) = optimize r src := by
  by_cases hne : (Block.ofText src).declarations = []
  · have hsame : optimize r src = src := if_pos hne
    rw [hsame, hsame]
  · by_cases hne' : (Block.ofText (optimize r src)).declarations = []
    · exact if_pos hne'
    · exact optimize_congr hne' hne (importLines_rewritten hr hclauses hne)
        (body_rewritten hreturns hlast hne)

end

/-- A final line feed does not matter to a text with readable import lines. -/
theorem optimize_concat_newline {r : Rules} {out : Text} (hne : out ≠ [])
    (hlast : out.getLast? ≠ some newline) (hds : (Block.ofText out).declarations ≠ []) :
    optimize r (out ++ [newline]) = optimize r out := by
  have hblock : Block.ofText (out ++ [newline]) = Block.ofText out := by
    rw [Block.ofText, lines_concat_newline hne hlast]
    rfl
  have hconcat : (Block.ofText (out ++ [newline])).declarations ≠ [] := by
    rw [hblock]
    exact hds
  exact optimize_congr hconcat hds (by rw [hblock]) (by rw [hblock])

/-- Restoring the final line feed does not undo that a second run changes nothing. -/
theorem optimizeFile_of_optimize {r : Rules} {src : Text}
    (h : optimize r (optimize r src) = optimize r src) :
    optimizeFile r (optimizeFile r src) = optimizeFile r src := by
  have hfixed : ∀ {t : Text}, optimize r t = t → optimizeFile r t = t := by
    intro t ht
    rw [optimizeFile, ht]
    exact if_neg fun hboth => hboth.1 rfl
  by_cases hadd : optimize r src ≠ src ∧ optimize r src ≠ []
      ∧ src.getLast? = some newline ∧ (optimize r src).getLast? ≠ some newline
  · have hfile : optimizeFile r src = optimize r src ++ [newline] := if_pos hadd
    obtain ⟨-, hne, -, hlast⟩ := hadd
    rw [hfile]
    by_cases hds : (Block.ofText (optimize r src)).declarations = []
    · -- nothing is left to read, so the second run returns the file as it is
      refine hfixed (if_pos ?_)
      rw [Block.ofText, lines_concat_newline hne hlast]
      exact hds
    · -- the second run takes the line feed away, and it is restored again
      have hagain : optimize r (optimize r src ++ [newline]) = optimize r src := by
        rw [optimize_concat_newline hne hlast hds, h]
      rw [optimizeFile, hagain]
      refine if_pos ⟨fun heq => ?_, hne, List.getLast?_concat, hlast⟩
      rw [heq, List.getLast?_concat] at hlast
      exact hlast rfl
  · have hfile : optimizeFile r src = optimize r src := if_neg hadd
    rw [hfile]
    exact hfixed h

/-- **Idempotence**: under rules that join or do not drop copies, putting a text or a
    file in order twice is putting it in order once. -/
theorem optimize_idempotent (r : Rules) (src : Text) (hr : r.merge = true ∨ r.dedupe = false)
    (hclauses : ∀ d ∈ (Block.ofText src).declarations, d.clause.Unmarked)
    (hreturns : ∀ l ∈ (Block.ofText src).body, l.getLast? ≠ some carriageReturn)
    (hlast : (Block.ofText src).body.getLast? ≠ some []) :
    optimize r (optimize r src) = optimize r src
      ∧ optimizeFile r (optimizeFile r src) = optimizeFile r src := by
  have htwice := optimize_optimize hr hclauses hreturns hlast
  exact ⟨htwice, optimizeFile_of_optimize htwice⟩

/-- Two statements of one module, a lone binding, a line that cannot be read and a body. -/
def mixedFile : Text :=
  unlines
    [text "import \x7b b \x7d from 'm';", text "import oops", text "import * as n from \"k\"",
      text "import a, \x7b c as d, b \x7d from 'm';", text "run();", []]

theorem optimize_idempotent_mixedFile :
    let r : Rules := { sort := true, merge := true, keepMalformed := true }
    optimize r (optimize r mixedFile) = optimize r mixedFile
      ∧ optimizeFile r (optimizeFile r mixedFile) = optimizeFile r mixedFile :=
  optimize_idempotent { sort := true, merge := true, keepMalformed := true } mixedFile
    (Or.inl rfl) (by decide +kernel) (by decide +kernel) (by decide +kernel)

end ImportBlock
