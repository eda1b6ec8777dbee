import Mathlib
import ImportBlock.Block
import ImportBlock.Proofs.Text.Cuts
import ImportBlock.Proofs.Text.Spaces

/-! # Where the import block ends

    A block is cut out of a text line by line.  Import lines that are written before
    a body come back as the import lines of the block, and the body as its body:
    `Block.ofText_assemble`.  This needs nothing of the lines but what every line of a
    block has, `ImportLine`, and of the body but how it starts, `BodyStart`. -/

namespace ImportBlock

open Text

/-! ## Lines of a block -/

/-- A line as it stands in the import block. -/
structure ImportLine (l : Text) : Prop where
  trimmed : Trimmed l
  starts : isImportLine l = true
  oneLine : newline ∉ l

/-- The first line of a body is neither blank nor an import line. -/
def BodyStart (body : List Text) : Prop :=
  ∀ l ∈ body.head?, trim l ≠ [] ∧ isImportLine (trim l) = false

/-- An import line starts with the word `import`. -/
theorem isImportLine_iff {l : Text} :
    isImportLine l = true ↔ ∃ rest, l = importWord ++ rest ∧ startsIdent rest = false := by
  have hzero : isImportLine l = (startsWord importWord l && !endsIdent []) := rfl
  rw [hzero, show endsIdent [] = false from rfl, Bool.not_false, Bool.and_true]
  exact startsWord_iff

theorem ImportLine.ne_nil {l : Text} (h : ImportLine l) : l ≠ [] := by
  rintro rfl
  exact absurd h.starts (by decide)

/-- White space around a text is trimmed away with the rest. -/
theorem trim_surrounded {w w' : Text} (hw : Blank w) (s : Text) (hw' : Blank w') :
    trim (w ++ s ++ w') = trim s := by
  obtain ⟨htrim, v, v', hv, hv', hs⟩ := exists_eq_spaced_trim s
  have hspaced := trim_spaced (hw.append hv) htrim (hv'.append hw')
  have hparts : w ++ v ++ trim s ++ (v' ++ w') = w ++ s ++ w' := by
    conv_rhs => rw [hs]
    simp only [List.append_assoc]
  rw [hparts] at hspaced
  exact hspaced

theorem blank_carriageReturn : Blank [carriageReturn] := blank_unit (by decide)

theorem trim_chopEnd (s : Text) : trim (chopEnd carriageReturn s) = trim s := by
  rw [chopEnd]
  split
  · rename_i hlast
    obtain ⟨t, rfl⟩ := List.getLast?_eq_some_iff.1 hlast
    rw [List.dropLast_concat]
    exact (trim_surrounded blank_nil t blank_carriageReturn).symm
  · rfl

/-- A trimmed line does not end in a carriage return. -/
theorem chopEnd_of_trimmed {l : Text} (h : Trimmed l) : chopEnd carriageReturn l = l := by
  refine chopEnd_eq_self ?_
  intro hlast
  obtain ⟨t, rfl⟩ := List.getLast?_eq_some_iff.1 hlast
  exact h.2 [carriageReturn] (by decide) ⟨t, rfl⟩

namespace Block

/-- Lines that follow one another from position `i` on. -/
def numbered (i : Nat) : List Text → List Candidate
  | [] => []
  | l :: ls => ⟨i, l⟩ :: numbered (i + 1) ls

theorem map_text_numbered (i : Nat) (ls : List Text) :
    (numbered i ls).map Candidate.text = ls := by
  induction ls generalizing i with
  | nil => rfl
  | cons l ls ih =>
      show l :: (numbered (i + 1) ls).map Candidate.text = l :: ls
      rw [ih]

theorem map_index_numbered (i : Nat) (ls : List Text) :
    (numbered i ls).map Candidate.index = List.range' i ls.length := by
  induction ls generalizing i with
  | nil => rfl
  | cons l ls ih =>
      show i :: (numbered (i + 1) ls).map Candidate.index = i :: List.range' (i + 1) ls.length
      rw [ih]

/-! ## What is cut out of a text -/

theorem exists_line_of_mem_ofLines {i : Nat} {ls : List Text} {c : Candidate}
    (h : c ∈ (ofLines i ls).candidates) :
    ∃ l ∈ ls, c.text = trim l ∧ isImportLine c.text = true := by
  induction ls generalizing i with
  | nil => cases h
  | cons l ls ih =>
      rw [ofLines] at h
      split at h
      · obtain ⟨m, hm, hc⟩ := ih h
        exact ⟨m, List.mem_cons_of_mem l hm, hc⟩
      · split at h
        · rename_i himport
          rcases List.mem_cons.1 h with rfl | h
          · exact ⟨l, List.mem_cons_self, rfl, himport⟩
          · obtain ⟨m, hm, hc⟩ := ih h
            exact ⟨m, List.mem_cons_of_mem l hm, hc⟩
        · cases h

/-- **The import lines of a text** are trimmed and start with the word `import`. -/
theorem importLine_of_mem {src : Text} {c : Candidate} (h : c ∈ (ofText src).candidates) :
    ImportLine c.text := by
  obtain ⟨l, hl, htext, himport⟩ := exists_line_of_mem_ofLines h
  refine ⟨?_, himport, ?_⟩
  · rw [htext]
    exact trimmed_trim l
  · rw [htext]
    exact fun hmem => newline_not_mem_of_mem_lines hl (mem_of_mem_trim hmem)

theorem body_ofLines (i : Nat) (ls : List Text) :
    BodyStart (ofLines i ls).body ∧ ∃ above, ls = above ++ (ofLines i ls).body := by
  induction ls generalizing i with
  | nil => exact ⟨by simp [BodyStart, ofLines], [], rfl⟩
  | cons l ls ih =>
      obtain ⟨hstart, above, habove⟩ := ih (i + 1)
      rw [ofLines]
      split
      · exact ⟨hstart, l :: above, congrArg (l :: ·) habove⟩
      · rename_i hne
        split
        · exact ⟨hstart, l :: above, congrArg (l :: ·) habove⟩
        · rename_i himport
          refine ⟨fun m hm => ?_, [], rfl⟩
          rw [← Option.mem_some.1 hm]
          exact ⟨hne, Bool.eq_false_iff.2 himport⟩

theorem bodyStart_ofText (src : Text) : BodyStart (ofText src).body := (body_ofLines 0 _).1

theorem mem_lines_of_mem_body {src l : Text} (h : l ∈ (ofText src).body) : l ∈ lines src := by
  obtain ⟨above, habove⟩ := (body_ofLines 0 (lines src)).2
  rw [habove]
  exact List.mem_append_right above h

theorem newline_not_mem_body {src l : Text} (h : l ∈ (ofText src).body) : newline ∉ l :=
  newline_not_mem_of_mem_lines (mem_lines_of_mem_body h)

/-! ## Cutting what was put together -/

theorem ofLines_of_blank {l : Text} (h : trim l = []) (i : Nat) (ls : List Text) :
    ofLines i (l :: ls) = ofLines (i + 1) ls := if_pos h

theorem ofLines_of_import {l : Text} (h : isImportLine (trim l) = true) (i : Nat)
    (ls : List Text) :
    ofLines i (l :: ls) =
      { candidates := ⟨i, trim l⟩ :: (ofLines (i + 1) ls).candidates
        body := (ofLines (i + 1) ls).body } := by
  have hne : trim l ≠ [] := by
    intro hnil
    rw [hnil] at h
    exact absurd h (by decide)
  rw [ofLines]
  dsimp only
  rw [if_neg hne, if_pos h]

theorem ofLines_append {ls : List Text} (h : ∀ l ∈ ls, ImportLine l) (i : Nat)
    (rest : List Text) :
    ofLines i (ls ++ rest) =
      { candidates := numbered i ls ++ (ofLines (i + ls.length) rest).candidates
        body := (ofLines (i + ls.length) rest).body } := by
  induction ls generalizing i with
  | nil => rfl
  | cons l ls ih =>
      have hl := h l List.mem_cons_self
      have htrim := trim_eq_self hl.trimmed
      rw [List.cons_append, ofLines_of_import (by rw [htrim]; exact hl.starts), htrim,
        ih fun m hm => h m (List.mem_cons_of_mem l hm), List.length_cons, Nat.add_right_comm i 1,
        ← Nat.add_assoc]
      rfl

theorem ofLines_body {ls : List Text} (h : BodyStart ls) (i : Nat) :
    ofLines i ls = { body := ls } := by
  cases ls with
  | nil => rfl
  | cons l ls =>
      obtain ⟨hne, himport⟩ := h l rfl
      rw [ofLines]
      dsimp only
      rw [if_neg hne, himport]
      rfl

theorem ofLines_blank (i : Nat) (ls : List Text) : ofLines i ([] :: ls) = ofLines (i + 1) ls :=
  ofLines_of_blank (trim_eq_self trimmed_nil) i ls

/-- A line is blank, an import line, or the start of a body. -/
theorem line_cases (l : Text) :
    trim l = [] ∨ isImportLine (trim l) = true ∨ ∀ ls : List Text, BodyStart (l :: ls) := by
  by_cases hblank : trim l = []
  · exact Or.inl hblank
  · cases himport : isImportLine (trim l) with
    | true => exact Or.inr (Or.inl rfl)
    | false =>
        refine Or.inr (Or.inr ?_)
        intro ls m hm
        rw [← Option.mem_some.1 hm]
        exact ⟨hblank, himport⟩

/-- The lines of a body after a final line feed and the carriage returns are taken
    away; this does not change how it starts. -/
theorem bodyStart_chopped {body : List Text} (h : BodyStart body) :
    BodyStart ((dropFinalEmpty body).map (chopEnd carriageReturn)) := by
  cases body with
  | nil => exact h
  | cons l ls =>
      obtain ⟨hne, himport⟩ := h l rfl
      have hstart : BodyStart (chopEnd carriageReturn l :: ls) := by
        intro m hm
        rw [← Option.mem_some.1 hm, trim_chopEnd]
        exact ⟨hne, himport⟩
      by_cases hls : ls = []
      · -- the only line is not dropped, since a body does not start blank
        subst hls
        have hl : l ≠ [] := by
          rintro rfl
          exact hne (trim_eq_self trimmed_nil)
        rw [dropFinalEmpty_singleton hl]
        exact hstart
      · rw [dropFinalEmpty_cons l hls]
        exact hstart

theorem unlines_ne_nil {ls : List Text} (hne : ls ≠ []) (h : ∀ l ∈ ls, ImportLine l) :
    unlines ls ≠ [] := by
  cases ls with
  | nil => exact absurd rfl hne
  | cons l ls =>
      have hl := (h l List.mem_cons_self).ne_nil
      cases ls with
      | nil => exact hl
      | cons m ls =>
          rw [unlines, join_cons l (List.cons_ne_nil m ls), List.append_assoc]
          exact fun hnil => hl (List.append_eq_nil_iff.1 hnil).1

theorem map_chopEnd_importLines {ls : List Text} (h : ∀ l ∈ ls, ImportLine l) :
    ls.map (chopEnd carriageReturn) = ls := by
  calc ls.map (chopEnd carriageReturn) = ls.map id :=
        List.map_congr_left fun l hl => chopEnd_of_trimmed (h l hl).trimmed
    _ = ls := List.map_id ls

/-- The blank line between import lines and body, if there are both. -/
def gap (imports body : List Text) : List Text := if imports = [] ∨ body = [] then [] else [[]]

/-- The lines of what is put together are the import lines, the blank line and the body
    as its lines are counted. -/
theorem lines_assemble {imports body : List Text} (himports : ∀ l ∈ imports, ImportLine l)
    (hbody : ∀ l ∈ body, newline ∉ l) :
    lines (assemble imports body)
      = imports ++ (gap imports body ++ (dropFinalEmpty body).map (chopEnd carriageReturn)) := by
  rw [assemble]
  by_cases hb : body = []
  · -- there is no body
    subst hb
    have hlast : imports.getLast? ≠ some [] := fun hlast =>
      (himports [] (List.mem_of_getLast? hlast)).ne_nil rfl
    rw [if_pos rfl, lines_unlines fun l hl => (himports l hl).oneLine,
      dropFinalEmpty_eq_self hlast, map_chopEnd_importLines himports, gap, if_pos (Or.inr rfl)]
    exact (List.append_nil imports).symm
  · rw [if_neg hb]
    by_cases hi : imports = []
    · -- there is no import line
      subst hi
      rw [if_pos (show unlines [] = [] from rfl), lines_unlines hbody, gap, if_pos (Or.inl rfl)]
      rfl
    · -- the empty line between them is a line of the text
      have hhead := unlines_ne_nil hi himports
      have hjoined : unlines imports ++ [newline, newline] ++ unlines body
          = unlines (imports ++ [] :: body) := by
        rw [unlines_append hi (List.cons_ne_nil [] body),
          show unlines ([] :: body) = newline :: unlines body from join_cons [] hb,
          List.append_assoc]
        rfl
      have hlines : ∀ l ∈ imports ++ [] :: body, newline ∉ l := by
        intro l hl
        rcases List.mem_append.1 hl with hl | hl
        · exact (himports l hl).oneLine
        · rcases List.mem_cons.1 hl with rfl | hl
          · exact List.not_mem_nil
          · exact hbody l hl
      rw [if_neg hhead, hjoined, lines_unlines hlines,
        dropFinalEmpty_append (List.cons_ne_nil [] body), dropFinalEmpty_cons [] hb,
        List.map_append, map_chopEnd_importLines himports, List.map_cons, gap,
        if_neg (not_or.2 ⟨hi, hb⟩)]
      rfl

/-- **The boundary survives.**  Import lines that are written before a body come back
    in order, and the body comes back as its lines are counted: without an empty last
    line, and each without one carriage return at its end. -/
theorem ofText_assemble {imports body : List Text} (himports : ∀ l ∈ imports, ImportLine l)
    (hstart : BodyStart body) (hbody : ∀ l ∈ body, newline ∉ l) :
    ofText (assemble imports body) =
      { candidates := numbered 0 imports
        body := (dropFinalEmpty body).map (chopEnd carriageReturn) } := by
  have hrest : ∀ i, ofLines i (gap imports body
      ++ (dropFinalEmpty body).map (chopEnd carriageReturn))
      = { body := (dropFinalEmpty body).map (chopEnd carriageReturn) } := by
    intro i
    have hchopped := bodyStart_chopped hstart
    rw [gap]
    split
    · exact ofLines_body hchopped i
    · -- the blank line is skipped
      rw [List.singleton_append, ofLines_blank]
      exact ofLines_body hchopped (i + 1)
  rw [ofText, lines_assemble himports hbody, ofLines_append himports, hrest, List.append_nil]

end Block

end ImportBlock
