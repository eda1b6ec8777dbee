import Mathlib
import ImportBlock.Proofs.Rewritten

/-! # Layout

    A text can be laid out in other ways: with carriage returns before its line feeds,
    with other white space around its import lines, with other blank lines among them,
    with a final line feed.  `Relaid` says what these ways are.

    None of them changes what the text is cut into, `Relaid.alike`: the import lines are
    the same up to their positions, and the body is the same.  Positions are nowhere
    written, so the text is put in order the same, `optimize_relaid`. -/

namespace ImportBlock

open Text

/-! ## Ways to lay out a text -/

/-- Blank lines come and go and import lines are spaced in another way, up to some line;
    the lines from there on are left alone. -/
inductive RelaidLines : List Text → List Text → Prop where
  | rest (ls : List Text) : RelaidLines ls ls
  | inserted {w : Text} {ls ls' : List Text} (hw : Blank w) (hline : newline ∉ w)
      (h : RelaidLines ls ls') : RelaidLines ls (w :: ls')
  | deleted {w : Text} {ls ls' : List Text} (hw : Blank w) (h : RelaidLines ls ls') :
      RelaidLines (w :: ls) ls'
  | spaced {w t w' v v' : Text} {ls ls' : List Text} (himport : isImportLine (trim t) = true)
      (hw : Blank w) (hw' : Blank w') (hv : Blank v) (hv' : Blank v') (hline : newline ∉ v)
      (hline' : newline ∉ v') (h : RelaidLines ls ls') :
      RelaidLines ((w ++ t ++ w') :: ls) ((v ++ t ++ v') :: ls')

/-- Some line feeds get a carriage return before them. -/
inductive Reended : Text → Text → Prop where
  | nil : Reended [] []
  | kept (b : UInt8) {s s' : Text} (h : Reended s s') : Reended (b :: s) (b :: s')
  | crlf {s s' : Text} (h : Reended s s') :
      Reended (newline :: s) (carriageReturn :: newline :: s')

/-- Another layout of a text: its lines are laid out in another way, a final line feed may
    be added if there is none, and line feeds get carriage returns. -/
inductive Relaid (src : Text) : Text → Prop where
  | lines {ls : List Text} {out : Text} (h : RelaidLines (split newline src) ls)
      (hend : Reended (unlines ls) out) : Relaid src out
  | finished {ls : List Text} {out : Text} (hlast : src.getLast? ≠ some newline)
      (h : RelaidLines (split newline src) ls)
      (hend : Reended (unlines ls ++ [newline]) out) : Relaid src out

theorem Reended.refl (s : Text) : Reended s s := by
  induction s with
  | nil => exact .nil
  | cons b s ih => exact .kept b ih

theorem Reended.append_crlf (a : Text) {s s' : Text} (h : Reended s s') :
    Reended (a ++ newline :: s) (a ++ carriageReturn :: newline :: s') := by
  induction a with
  | nil => exact .crlf h
  | cons b a ih => exact .kept b ih

/-! ## Positions -/

/-- The same import lines and the same body, at whatever positions. -/
structure Block.Alike (b b' : Block) : Prop where
  texts : b.candidates.map Candidate.text = b'.candidates.map Candidate.text
  body : b.body = b'.body

theorem Block.Alike.trans {b b' b'' : Block} (h : b.Alike b') (h' : b'.Alike b'') :
    b.Alike b'' := ⟨h.texts.trans h'.texts, h.body.trans h'.body⟩

/-- A declaration as if its line were the first one. -/
def Declaration.unplaced (d : Declaration) : Declaration := { d with line := 0 }

theorem Flat.firstCopies_unplaced (seen : List Text) (ds : List Declaration) :
    firstCopies seen (ds.map Declaration.unplaced)
      = (firstCopies seen ds).map Declaration.unplaced := by
  induction ds generalizing seen with
  | nil => rfl
  | cons d ds ih =>
      rw [List.map_cons, firstCopies, firstCopies]
      show (if d.text ∈ seen then _ else _) = _
      split
      · exact ih seen
      · exact congrArg (d.unplaced :: ·) (ih (d.text :: seen))

/-- Statements do not depend on the positions of their lines. -/
theorem Rules.statements_unplaced (r : Rules) (ds : List Declaration) :
    r.statements (ds.map Declaration.unplaced) = r.statements ds := by
  have hgroups : Merge.groups (ds.map Declaration.unplaced) = Merge.groups ds := List.foldl_map
  have hkept : (if r.dedupe = true then Flat.firstCopies [] (ds.map Declaration.unplaced)
        else ds.map Declaration.unplaced)
      = (if r.dedupe = true then Flat.firstCopies [] ds else ds).map Declaration.unplaced := by
    split
    · exact Flat.firstCopies_unplaced [] ds
    · rfl
  rw [statements, statements, Merge.statements, Merge.statements, hgroups, Flat.statements,
    Flat.statements, hkept, sortOn_map]
  split
  · rfl
  · split
    · exact List.map_map
    · exact List.map_map

theorem Block.map_unplaced_declarations (b : Block) :
    b.declarations.map Declaration.unplaced
      = (b.candidates.map Candidate.text).filterMap fun l =>
          (Declaration.read l 0).toOption := by
  rw [declarations, readings, List.map_filterMap, List.filterMap_map, List.filterMap_map]
  refine List.filterMap_congr ?_
  intro c _
  simp only [Function.comp_apply, Declaration.read]
  cases Statement.read c.text with
  | error e => rfl
  | ok s => rfl

theorem Block.Alike.importLines_eq {b b' : Block} (h : b.Alike b') (r : Rules) :
    importLines r b = importLines r b' := by
  have hds : b.declarations.map Declaration.unplaced = b'.declarations.map Declaration.unplaced := by
    rw [map_unplaced_declarations, map_unplaced_declarations, h.texts]
  rw [importLines, importLines, ← r.statements_unplaced, hds, r.statements_unplaced,
    malformed_eq_filter, malformed_eq_filter, h.texts]

/-- **Positions do not matter**: texts that are cut into the same lines are put in order
    the same. -/
theorem optimize_of_alike (r : Rules) {src src' : Text}
    (h : (Block.ofText src).Alike (Block.ofText src'))
    (hne : (Block.ofText src).declarations ≠ []) : optimize r src' = optimize r src := by
  have hne' : (Block.ofText src').declarations ≠ [] := by
    intro hnil
    have hmap := Block.map_unplaced_declarations (Block.ofText src)
    rw [h.texts, ← Block.map_unplaced_declarations, hnil] at hmap
    exact hne (List.map_eq_nil_iff.1 hmap)
  exact optimize_congr hne' hne (h.importLines_eq r).symm h.body.symm

namespace Block

/-! ## Cutting lines -/

theorem alike_ofLines (i j : Nat) (ls : List Text) : (ofLines i ls).Alike (ofLines j ls) := by
  induction ls generalizing i j with
  | nil => exact ⟨rfl, rfl⟩
  | cons l ls ih =>
      rcases line_cases l with hblank | himport | hbody
      · rw [ofLines_of_blank hblank, ofLines_of_blank hblank]
        exact ih (i + 1) (j + 1)
      · have hrest := ih (i + 1) (j + 1)
        rw [ofLines_of_import himport, ofLines_of_import himport]
        exact ⟨congrArg (trim l :: ·) hrest.texts, hrest.body⟩
      · rw [ofLines_body (hbody ls), ofLines_body (hbody ls)]
        exact ⟨rfl, rfl⟩

/-- Lines that are laid out in another way are cut into the same lines. -/
theorem alike_of_relaid {ls ls' : List Text} (h : RelaidLines ls ls') (i j : Nat) :
    (ofLines i ls).Alike (ofLines j ls') := by
  induction h generalizing i j with
  | rest ls => exact alike_ofLines i j ls
  | inserted hw _ _ ih =>
      rw [ofLines_of_blank (trim_blank hw)]
      exact ih i (j + 1)
  | deleted hw _ ih =>
      rw [ofLines_of_blank (trim_blank hw)]
      exact ih (i + 1) j
  | @spaced w t w' v v' ls ls' himport hw hw' hv hv' _ _ _ ih =>
      have htrim := trim_surrounded hw t hw'
      have htrim' := trim_surrounded hv t hv'
      have hrest := ih (i + 1) (j + 1)
      rw [ofLines_of_import (by rw [htrim]; exact himport),
        ofLines_of_import (by rw [htrim']; exact himport), htrim, htrim']
      exact ⟨congrArg (trim t :: ·) hrest.texts, hrest.body⟩

/-- An empty last line is not cut out as an import line, and of the body it is dropped. -/
theorem ofLines_dropFinalEmpty (i : Nat) (ls : List Text) :
    ofLines i (dropFinalEmpty ls) =
      { candidates := (ofLines i ls).candidates
        body := dropFinalEmpty (ofLines i ls).body } := by
  induction ls generalizing i with
  | nil => rfl
  | cons l ls ih =>
      by_cases hls : ls = []
      · subst hls
        by_cases hl : l = []
        · subst hl
          rw [ofLines_blank]
          rfl
        · rw [dropFinalEmpty_singleton hl]
          rcases line_cases l with hblank | himport | hbody
          · rw [ofLines_of_blank hblank]
            rfl
          · rw [ofLines_of_import himport]
            rfl
          · rw [ofLines_body (hbody []), dropFinalEmpty_singleton hl]
      · rw [dropFinalEmpty_cons l hls]
        rcases line_cases l with hblank | himport | hbody
        · rw [ofLines_of_blank hblank, ofLines_of_blank hblank]
          exact ih (i + 1)
        · rw [ofLines_of_import himport, ofLines_of_import himport, ih (i + 1)]
        · rw [ofLines_body (hbody _), ofLines_body (hbody ls), dropFinalEmpty_cons l hls]

/-! ## Line endings -/

/-- The second text is what is left of the first one as a line: it is trimmed the same,
    and without carriage returns it is the same. -/
def Chopped (p l : Text) : Prop := trim l = trim p ∧ (carriageReturn ∉ p → l = p)

theorem chopped_chopEnd (p : Text) : Chopped p (chopEnd carriageReturn p) := by
  refine ⟨trim_chopEnd p, fun hreturn => chopEnd_eq_self fun hlast => hreturn ?_⟩
  exact List.mem_of_getLast? hlast

theorem chopped_concat (p : Text) : Chopped p (chopEnd carriageReturn (p ++ [carriageReturn])) := by
  have hchop : chopEnd carriageReturn (p ++ [carriageReturn]) = p := by
    rw [chopEnd, if_pos List.getLast?_concat, List.dropLast_concat]
  rw [hchop]
  exact ⟨rfl, fun _ => rfl⟩

/-- Pieces some of which, but not the last one, got a carriage return at the end. -/
inductive ReendedPieces : List Text → List Text → Prop where
  | last (p : Text) : ReendedPieces [p] [p]
  | kept (p : Text) {ps ps' : List Text} (h : ReendedPieces ps ps') :
      ReendedPieces (p :: ps) (p :: ps')
  | crlf (p : Text) {ps ps' : List Text} (h : ReendedPieces ps ps') :
      ReendedPieces (p :: ps) ((p ++ [carriageReturn]) :: ps')

theorem ReendedPieces.ne_nil {ps ps' : List Text} (h : ReendedPieces ps ps') :
    ps ≠ [] ∧ ps' ≠ [] := by
  cases h with
  | last p => exact ⟨List.cons_ne_nil _ _, List.cons_ne_nil _ _⟩
  | kept p h => exact ⟨List.cons_ne_nil _ _, List.cons_ne_nil _ _⟩
  | crlf p h => exact ⟨List.cons_ne_nil _ _, List.cons_ne_nil _ _⟩

theorem reendedPieces_split {s s' : Text} (h : Reended s s') :
    ReendedPieces (split newline s) (split newline s') := by
  induction h with
  | nil => exact .last []
  | @kept b s s' _ ih =>
      rw [split, split]
      by_cases hb : b = newline
      · rw [if_pos hb, if_pos hb]
        exact .kept [] ih
      · -- the byte goes in front of the first piece
        rw [if_neg hb, if_neg hb]
        generalize split newline s = ps at ih ⊢
        generalize split newline s' = ps' at ih ⊢
        cases ih with
        | last p => exact .last (b :: p)
        | kept p h => exact .kept (b :: p) h
        | crlf p h => exact .crlf (b :: p) h
  | @crlf s s' _ ih =>
      have hsplit : split newline (newline :: s) = [] :: split newline s :=
        split_append newline [] s
      have hsplit' : split newline (carriageReturn :: newline :: s')
          = [carriageReturn] :: split newline s' := split_append newline [carriageReturn] s'
      rw [hsplit, hsplit']
      exact .crlf [] ih

theorem ReendedPieces.chopped {ps ps' : List Text} (h : ReendedPieces ps ps') :
    List.Forall₂ Chopped (dropFinalEmpty ps)
      ((dropFinalEmpty ps').map (chopEnd carriageReturn)) := by
  induction h with
  | last p =>
      by_cases hp : p = []
      · subst hp
        exact .nil
      · rw [dropFinalEmpty_singleton hp]
        exact .cons (chopped_chopEnd p) .nil
  | kept p h ih =>
      rw [dropFinalEmpty_cons p h.ne_nil.1, dropFinalEmpty_cons p h.ne_nil.2]
      exact .cons (chopped_chopEnd p) ih
  | crlf p h ih =>
      rw [dropFinalEmpty_cons p h.ne_nil.1, dropFinalEmpty_cons _ h.ne_nil.2]
      exact .cons (chopped_concat p) ih

theorem eq_of_chopped {ps ls : List Text} (h : List.Forall₂ Chopped ps ls)
    (hreturns : ∀ p ∈ ps, carriageReturn ∉ p) : ls = ps := by
  induction h with
  | nil => rfl
  | cons hp _ ih =>
      rw [hp.2 (hreturns _ List.mem_cons_self),
        ih fun q hq => hreturns q (List.mem_cons_of_mem _ hq)]

/-- Carriage returns at the ends of lines change nothing that the lines are cut into, as
    long as the body had none. -/
theorem alike_of_chopped {ps ls : List Text} (h : List.Forall₂ Chopped ps ls) (i j : Nat)
    (hreturns : ∀ p ∈ (ofLines i ps).body, carriageReturn ∉ p) :
    (ofLines i ps).Alike (ofLines j ls) := by
  induction h generalizing i j with
  | nil => exact ⟨rfl, rfl⟩
  | @cons p l ps ls hp hrest ih =>
      rcases line_cases p with hblank | himport | hbody
      · rw [ofLines_of_blank hblank] at hreturns ⊢
        rw [ofLines_of_blank (hp.1.trans hblank)]
        exact ih (i + 1) (j + 1) hreturns
      · rw [ofLines_of_import himport] at hreturns ⊢
        have halike := ih (i + 1) (j + 1) hreturns
        rw [ofLines_of_import (by rw [hp.1]; exact himport), hp.1]
        exact ⟨congrArg (trim p :: ·) halike.texts, halike.body⟩
      · rw [ofLines_body (hbody ps)] at hreturns
        rw [eq_of_chopped (.cons hp hrest) hreturns]
        exact alike_ofLines i j (p :: ps)

end Block

/-! ## Texts -/

theorem newline_not_mem_relaid {ls ls' : List Text} (h : RelaidLines ls ls')
    (hls : ∀ l ∈ ls, newline ∉ l) : ∀ l ∈ ls', newline ∉ l := by
  induction h with
  | rest ls => exact hls
  | inserted _ hline _ ih =>
      intro l hl
      rcases List.mem_cons.1 hl with rfl | hl
      · exact hline
      · exact ih hls l hl
  | deleted _ _ ih => exact ih fun l hl => hls l (List.mem_cons_of_mem _ hl)
  | @spaced w t w' v v' ls ls' _ _ _ _ _ hline hline' _ ih =>
      have ht : newline ∉ t := by
        intro hmem
        exact hls _ List.mem_cons_self
          (List.mem_append_left w' (List.mem_append_right w hmem))
      intro l hl
      rcases List.mem_cons.1 hl with rfl | hl
      · simp only [List.mem_append, not_or]
        exact ⟨⟨hline, ht⟩, hline'⟩
      · exact ih (fun m hm => hls m (List.mem_cons_of_mem _ hm)) l hl

/-- Without carriage returns the lines of a text are its pieces. -/
theorem lines_of_no_return {src : Text} (h : carriageReturn ∉ src) :
    lines src = dropFinalEmpty (split newline src) := by
  rw [lines]
  calc (dropFinalEmpty (split newline src)).map (chopEnd carriageReturn)
      = (dropFinalEmpty (split newline src)).map id := by
        refine List.map_congr_left ?_
        intro p hp
        refine chopEnd_eq_self fun hlast => h ?_
        exact mem_of_mem_split (mem_of_mem_dropFinalEmpty hp) (List.mem_of_getLast? hlast)
    _ = dropFinalEmpty (split newline src) := List.map_id _

theorem return_not_mem_body {src : Text} (h : carriageReturn ∉ src) :
    ∀ l ∈ (Block.ofText src).body, carriageReturn ∉ l := by
  intro l hl hmem
  have hline := Block.mem_lines_of_mem_body hl
  rw [lines_of_no_return h] at hline
  exact h (mem_of_mem_split (mem_of_mem_dropFinalEmpty hline) hmem)

/-- **A layout changes nothing that a text is cut into.** -/
theorem Relaid.alike {src src' : Text} (h : Relaid src src') (hsrc : src ≠ [])
    (hreturn : carriageReturn ∉ src) : (Block.ofText src).Alike (Block.ofText src') := by
  -- the pieces that carriage returns are put between, and how they are cut
  have hfinish : ∀ {s : Text}, Reended s src' →
      (Block.ofText src).Alike (Block.ofLines 0 (dropFinalEmpty (split newline s))) →
      (Block.ofText src).Alike (Block.ofText src') := by
    intro s hend halike
    refine halike.trans (Block.alike_of_chopped (Block.reendedPieces_split hend).chopped 0 0 ?_)
    rw [← halike.body]
    exact return_not_mem_body hreturn
  have hpieces : ∀ l ∈ split newline src, newline ∉ l := fun l hl => (exists_eq_of_mem_split hl).1
  have hsplit : Block.ofText src = Block.ofLines 0 (dropFinalEmpty (split newline src)) := by
    rw [Block.ofText, lines_of_no_return hreturn]
  cases h with
  | @lines ls _ h hend =>
      refine hfinish hend ?_
      have halike := Block.alike_of_relaid h 0 0
      rw [hsplit, dropFinalEmpty_split_unlines (newline_not_mem_relaid h hpieces),
        Block.ofLines_dropFinalEmpty, Block.ofLines_dropFinalEmpty]
      exact ⟨halike.texts, congrArg dropFinalEmpty halike.body⟩
  | @finished ls _ hlast h hend =>
      refine hfinish hend ?_
      have halike := Block.alike_of_relaid h 0 0
      rw [hsplit, dropFinalEmpty_eq_self (getLast?_split_newline hsrc hlast),
        dropFinalEmpty_split_concat]
      by_cases hls : ls = []
      · -- all lines were blank, and so is the empty line that is left
        subst hls
        rw [show split newline (unlines []) = [[]] from rfl, Block.ofLines_blank]
        exact halike
      · rw [unlines, split_join hls (newline_not_mem_relaid h hpieces)]
        exact halike

/-- **Layout does not matter.**  A text without carriage returns that has an import line
    that can be read is put in order the same in every layout, under all rules. -/
theorem optimize_relaid (r : Rules) (src src' : Text) (hreturn : carriageReturn ∉ src)
    (hne : (Block.ofText src).declarations ≠ []) (h : Relaid src src') :
    optimize r src' = optimize r src := by
  have hsrc : src ≠ [] := by
    rintro rfl
    exact hne rfl
  exact optimize_of_alike r (h.alike hsrc hreturn) hne

/-- An import line, a blank line and a body without a final line feed. -/
def plainFile : Text := text "import b from 'b'\n\nrun();"

/-- The same after a line with a no-break space, with a tab before the import line and an
    ideographic space behind it, without the blank line, with carriage returns before two
    line feeds and with a final one. -/
def spacedFile : Text := text "\u00a0\r\n\timport b from 'b'\u3000\r\nrun();\n"

theorem relaid_spacedFile : Relaid plainFile spacedFile := by
  have hlines : split newline plainFile
      = [[] ++ text "import b from 'b'" ++ [], [], text "run();"] := by decide +kernel
  have hspaced : RelaidLines (split newline plainFile)
      [[0xC2, 0xA0], [9] ++ text "import b from 'b'" ++ [0xE3, 0x80, 0x80], text "run();"] := by
    rw [hlines]
    refine .inserted (blank_unit (by decide)) (by decide) ?_
    refine .spaced (by decide +kernel) blank_nil blank_nil (blank_unit (by decide))
      (blank_unit (by decide)) (by decide) (by decide) ?_
    exact .deleted blank_nil (.rest _)
  refine .finished (by decide) hspaced ?_
  exact .append_crlf [0xC2, 0xA0]
    (.append_crlf ([9] ++ text "import b from 'b'" ++ [0xE3, 0x80, 0x80]) (.refl _))

theorem optimize_relaid_spacedFile :
    Relaid plainFile spacedFile
      ∧ optimize { sort := true, dedupe := true } spacedFile
        = optimize { sort := true, dedupe := true } plainFile :=
  ⟨relaid_spacedFile, optimize_relaid { sort := true, dedupe := true } plainFile spacedFile
    (by decide) (by decide +kernel) relaid_spacedFile⟩

end ImportBlock
