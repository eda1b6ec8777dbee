import Mathlib
import ImportBlock.Proofs.Boundary
import ImportBlock.Proofs.Clause.Origin
import ImportBlock.Proofs.Statement.Printing

/-! # What is read from an import line

    The text between `import` and the first whole word `from` holds no further word
    `from`, so the clause read from it is made of clean names; the source is made of
    bytes of the line.  A line printed for such a statement is an import line again. -/

namespace ImportBlock

open Text

/-! ## Module sources -/

theorem mem_of_mem_dropEndWhile {p : UInt8 → Bool} {s : Text} {b : UInt8}
    (h : b ∈ dropEndWhile p s) : b ∈ s :=
  List.mem_reverse.1 ((List.dropWhile_sublist p).subset (List.mem_reverse.1 h))

/-- A source is made of bytes of its region. -/
theorem mem_of_mem_readSource {region : Text} {b : UInt8} (h : b ∈ readSource region) :
    b ∈ region := by
  rw [readSource] at h
  split at h
  · rename_i source tail hquoted
    obtain ⟨⟨l, rest⟩, hfirst, hlast⟩ := Option.bind_eq_some_iff.1 hquoted
    obtain ⟨q, -, rfl, -⟩ := eq_of_cutFirst hfirst
    obtain ⟨q', -, rfl, -⟩ := eq_of_cutLast hlast
    exact List.mem_append_right l (List.mem_cons_of_mem q (List.mem_append_left _ h))
  · have hbare : ∀ {c : UInt8},
        c ∈ dropEndWhile isSourceEdge (region.dropWhile isSourceEdge) → c ∈ region := by
      intro c hc
      exact (List.dropWhile_sublist _).subset (mem_of_mem_dropEndWhile hc)
    dsimp only at h
    split at h
    · rename_i source tail hcut
      obtain ⟨q, -, heq, -⟩ := eq_of_cutFirst hcut
      refine hbare ?_
      rw [heq]
      exact List.mem_append_left _ (mem_of_mem_trim h)
    · exact hbare h

namespace Statement

/-! ## Statements -/

/-- What holds of every statement that was read from an import line. -/
structure AsRead (s : Statement) : Prop where
  source_ne : s.source ≠ []
  source_oneLine : newline ∉ s.source
  clause : s.clause.AsRead

/-- An import line is cut behind its first word. -/
theorem cut_importLine {line before after : Text} (hline : isImportLine line = true)
    (hcut : cutWordFrom line fromWord 0 = some (before, after)) :
    ∃ x, before = importWord ++ x ∧ ¬ HasWordFrom fromWord 0 x := by
  obtain ⟨rest, rfl, hrest⟩ := isImportLine_iff.1 hline
  cases hx : cutWordFrom rest fromWord 0 with
  | none =>
      -- then the word stands nowhere in the line
      have hclean := not_hasWordFrom_append ident_fromWord (Or.inr hrest) import_noFrom
        ((cutWordFrom_eq_none ident_fromWord.1).1 hx)
      rw [(cutWordFrom_eq_none ident_fromWord.1).2 hclean] at hcut
      cases hcut
  | some parts =>
      obtain ⟨x, y⟩ := parts
      have hboth := cutWordFrom_append_right ident_fromWord (Or.inr hrest) import_noFrom hx
      rw [hcut] at hboth
      obtain ⟨-, -, -, -, hfirst⟩ := eq_of_cutWordFrom ident_fromWord hx
      exact ⟨x, (Prod.mk.inj (Option.some.inj hboth)).1, hfirst⟩

/-- **Every statement that is read from an import line is made of cuts of the line.** -/
theorem asRead_of_read {line : Text} {s : Statement} (hline : ImportLine line)
    (h : read line = .ok s) : s.AsRead := by
  rw [read] at h
  split at h
  · cases h
  · rename_i before after hcut
    -- the clause is cut before the first word `from`, so it holds none
    obtain ⟨x, hbefore, hclean⟩ := cut_importLine hline.starts hcut
    obtain ⟨hparts, -⟩ := eq_of_cutWordFrom ident_fromWord hcut
    have honeLine := hline.oneLine
    rw [hparts, hbefore, List.mem_append, List.mem_append, List.mem_append, not_or, not_or,
      not_or] at honeLine
    have hx : Clean x := ⟨hclean, honeLine.1.1.2⟩
    dsimp only at h
    rw [hbefore, List.drop_left] at h
    split at h
    · cases h
    · rename_i hne
      split at h
      · cases h
      · rename_i c hc
        injection h with hs
        subst hs
        refine ⟨hne, fun hmem => ?_, Clause.asRead_of_read? hx.trim (trimmed_trim x) hc⟩
        exact honeLine.2 (mem_of_mem_trim (mem_of_mem_readSource hmem))

end Statement

theorem Clause.AsRead.oneLine {c : Clause} (h : c.AsRead) : ∀ n ∈ c.names, newline ∉ n := by
  intro n hn
  rcases List.mem_cons.1 hn with rfl | hn
  · exact h.defaultName.clean.oneLine
  · rcases List.mem_cons.1 hn with rfl | hn
    · exact h.namespaceName.clean.oneLine
    · obtain ⟨b, hb, hn⟩ := List.mem_flatMap.1 hn
      rcases List.mem_cons.1 hn with rfl | hn
      · exact (h.named b hb).name.clean.oneLine
      · rw [List.mem_singleton.1 hn]
        exact (h.named b hb).localName.clean.oneLine

/-! ## Printed lines -/

/-- A printed line is an import line, if no line feed is in its source and names. -/
theorem Statement.importLine_of_render? {s : Statement} {line : Text} (h : s.render? = some line)
    (hsource : newline ∉ s.source) (hnames : ∀ n ∈ s.clause.names, newline ∉ n) :
    ImportLine line := by
  have hclause : newline ∉ s.clause.render := by
    intro hmem
    rcases Clause.mem_render hmem with ⟨n, hn, hb⟩ | hglue
    · exact hnames n hn hb
    · exact absurd hglue (by decide)
  obtain ⟨-, rfl⟩ := render?_eq_some_iff.1 h
  rw [renderLine]
  refine ⟨⟨startsBare_cons (b := 105) _ (by decide), ?_⟩, ?_, ?_⟩
  · rw [show ImportBlock.text "';" = [39] ++ [semicolon] from rfl, ← List.append_assoc]
    exact endsBare_concat _ (by decide)
  · refine isImportLine_iff.2 ⟨[32] ++ s.clause.render ++ ImportBlock.text " from '" ++ s.source
      ++ ImportBlock.text "';", ?_, rfl⟩
    rw [show ImportBlock.text "import " = importWord ++ [32] from rfl]
    simp only [List.append_assoc]
  · simp only [List.mem_append, not_or]
    exact ⟨⟨⟨⟨by decide, hclause⟩, by decide⟩, hsource⟩, by decide⟩

end ImportBlock
