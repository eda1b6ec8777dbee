import Mathlib
import ImportBlock.Proofs.Joining
import ImportBlock.Proofs.Rewritten

/-! # First copies and the stable order

    Without joining, copies of a line are dropped by one pass that remembers the texts it
    has met, and the rest is sorted by module.  What the pass keeps can be said without its
    memory: the first declaration of each text, in order of appearance
    (`Flat.firstOfEachText`).

    * `Flat.firstCopies_eq`: the pass keeps these and no other.
    * `Flat.filter_firstCopies`: it commutes with every choice that only looks at what a
      text determines, as the module source is if each text has one reading.
    * `Flat.sortOn_firstCopies`: so it commutes with the stable sort, since a list in order
      is determined by its entries of each module. -/

namespace ImportBlock

open Text

/-- Declarations of one text state the same. -/
def OneReading (ds : List Declaration) : Prop :=
  ∀ d ∈ ds, ∀ e ∈ ds, d.text = e.text → d.statement = e.statement

/-! ## What is read from a block -/

theorem Block.read_of_mem_declarations {b : Block} {d : Declaration} (h : d ∈ b.declarations) :
    Statement.read d.text = .ok d.statement := by
  obtain ⟨c, -, hread⟩ := exists_of_mem_declarations h
  obtain ⟨htext, hs⟩ := Declaration.of_read hread
  rw [htext]
  exact hs

/-- Each text of a block has one reading, wherever it stands. -/
theorem Block.oneReading_declarations (b : Block) : OneReading b.declarations := by
  intro d hd e he htext
  have hread := read_of_mem_declarations hd
  rw [htext, read_of_mem_declarations he] at hread
  exact (Except.ok.inj hread).symm

theorem OneReading.perm {ds es : List Declaration} (h : OneReading ds) (hperm : es.Perm ds) :
    OneReading es := by
  intro d hd e he
  exact h d (hperm.mem_iff.1 hd) e (hperm.mem_iff.1 he)

namespace Flat

/-- The first declaration of each text, in order of appearance. -/
def firstOfEachText (ds : List Declaration) : List Declaration :=
  (ds.map Declaration.text).eraseDups.filterMap fun t => ds.find? fun d => d.text = t

/-! ## First copies -/

theorem firstCopies_sublist (seen : List Text) (ds : List Declaration) :
    (firstCopies seen ds).Sublist ds := by
  induction ds generalizing seen with
  | nil => exact List.Sublist.refl []
  | cons d ds ih =>
      rw [firstCopies]
      split
      · exact (ih seen).cons d
      · exact (ih (d.text :: seen)).cons_cons d

/-- The last declaration is kept if its text is new. -/
theorem firstCopies_concat (seen : List Text) (ds : List Declaration) (d : Declaration) :
    firstCopies seen (ds ++ [d])
      = if d.text ∈ seen ∨ d.text ∈ ds.map Declaration.text then firstCopies seen ds
        else firstCopies seen ds ++ [d] := by
  induction ds generalizing seen with
  | nil => simp [firstCopies]
  | cons e ds ih =>
      rw [List.cons_append, firstCopies, firstCopies]
      by_cases he : e.text ∈ seen
      · -- a text that is in the memory already is not news
        have hnews : (d.text ∈ seen ∨ d.text ∈ (e :: ds).map Declaration.text)
            ↔ (d.text ∈ seen ∨ d.text ∈ ds.map Declaration.text) := by
          rw [List.map_cons, List.mem_cons]
          constructor
          · rintro (hd | hd | hd)
            · exact Or.inl hd
            · exact Or.inl (hd ▸ he)
            · exact Or.inr hd
          · rintro (hd | hd)
            · exact Or.inl hd
            · exact Or.inr (Or.inr hd)
        rw [if_pos he, if_pos he, ih, if_congr hnews rfl rfl]
      · have hnews : (d.text ∈ e.text :: seen ∨ d.text ∈ ds.map Declaration.text)
            ↔ (d.text ∈ seen ∨ d.text ∈ (e :: ds).map Declaration.text) := by
          rw [List.map_cons, List.mem_cons, List.mem_cons, or_assoc, or_left_comm]
        rw [if_neg he, if_neg he, ih, if_congr hnews rfl rfl]
        split
        · rfl
        · rfl

/-- The first of a text that was there does not change when a declaration is added. -/
theorem find?_concat_of_mem {ds : List Declaration} {t : Text}
    (h : t ∈ ds.map Declaration.text) (d : Declaration) :
    (ds ++ [d]).find? (fun e => e.text = t) = ds.find? fun e => e.text = t := by
  obtain ⟨e, he, htext⟩ := List.mem_map.1 h
  obtain ⟨a, ha⟩ : ∃ a, ds.find? (fun e => e.text = t) = some a :=
    Option.isSome_iff_exists.1 (List.find?_isSome.2 ⟨e, he, decide_eq_true htext⟩)
  rw [List.find?_append, ha]
  rfl

theorem firstOfEachText_concat (ds : List Declaration) (d : Declaration) :
    firstOfEachText (ds ++ [d])
      = if d.text ∈ ds.map Declaration.text then firstOfEachText ds
        else firstOfEachText ds ++ [d] := by
  have hold : (ds.map Declaration.text).eraseDups.filterMap
      (fun t => (ds ++ [d]).find? fun e => e.text = t) = firstOfEachText ds := by
    refine List.filterMap_congr ?_
    intro t ht
    exact find?_concat_of_mem (List.mem_eraseDups.1 ht) d
  rw [firstOfEachText, List.map_append, List.map_singleton, Merge.eraseDups_concat]
  split
  · exact hold
  · rename_i hnew
    -- no earlier declaration has this text
    have hnone : ds.find? (fun e => e.text = d.text) = none := by
      refine List.find?_eq_none.2 ?_
      intro e he heq
      exact hnew (List.mem_map.2 ⟨e, he, of_decide_eq_true heq⟩)
    have hlast : (ds ++ [d]).find? (fun e => e.text = d.text) = some d := by
      rw [List.find?_append, hnone]
      simp
    rw [List.filterMap_append, hold, List.filterMap_cons, hlast]
    rfl

/-- **What the pass keeps**: the first declaration of each text. -/
theorem firstCopies_eq (ds : List Declaration) : firstCopies [] ds = firstOfEachText ds := by
  induction ds using List.reverseRecOn with
  | nil => rfl
  | append_singleton ds d ih =>
      have hnews : (d.text ∈ ([] : List Text) ∨ d.text ∈ ds.map Declaration.text)
          ↔ d.text ∈ ds.map Declaration.text := or_iff_right List.not_mem_nil
      rw [firstCopies_concat, firstOfEachText_concat, ih, if_congr hnews rfl rfl]

theorem texts_firstOfEachText (ds : List Declaration) :
    (firstOfEachText ds).map Declaration.text = (ds.map Declaration.text).eraseDups := by
  induction ds using List.reverseRecOn with
  | nil => rfl
  | append_singleton ds d ih =>
      rw [firstOfEachText_concat, List.map_append, List.map_singleton, Merge.eraseDups_concat]
      split
      · exact ih
      · rw [List.map_append, ih, List.map_singleton]

theorem nodup_texts_firstOfEachText (ds : List Declaration) :
    ((firstOfEachText ds).map Declaration.text).Nodup := by
  induction ds using List.reverseRecOn with
  | nil => exact List.nodup_nil
  | append_singleton ds d ih =>
      rw [firstOfEachText_concat]
      split
      · exact ih
      · rename_i hnew
        have hnew' : d.text ∉ (firstOfEachText ds).map Declaration.text := by
          rw [texts_firstOfEachText, List.mem_eraseDups]
          exact hnew
        rw [List.map_append, List.map_singleton]
        exact (List.perm_append_singleton _ _).nodup_iff.2 (List.nodup_cons.2 ⟨hnew', ih⟩)

/-! ## Sorting -/

/-- Copies are dropped from the declarations that satisfy `p` as they are from all, if the
    text decides `p` and the two passes remember the same of these texts. -/
theorem filter_firstCopies {p : Declaration → Bool} {seen seen' : List Text}
    {ds : List Declaration} (hp : ∀ d ∈ ds, ∀ e ∈ ds, d.text = e.text → p d = p e)
    (hseen : ∀ d ∈ ds, p d = true → (d.text ∈ seen ↔ d.text ∈ seen')) :
    (firstCopies seen ds).filter p = firstCopies seen' (ds.filter p) := by
  induction ds generalizing seen seen' with
  | nil => rfl
  | cons d ds ih =>
      have hp' : ∀ e ∈ ds, ∀ f ∈ ds, e.text = f.text → p e = p f := by
        intro e he f hf
        exact hp e (List.mem_cons_of_mem d he) f (List.mem_cons_of_mem d hf)
      have hrest : ∀ e ∈ ds, p e = true → (e.text ∈ seen ↔ e.text ∈ seen') := by
        intro e he
        exact hseen e (List.mem_cons_of_mem d he)
      rw [firstCopies]
      cases hd : p d with
      | true =>
          have hboth := hseen d List.mem_cons_self hd
          rw [List.filter_cons_of_pos hd, firstCopies]
          by_cases hmem : d.text ∈ seen
          · rw [if_pos hmem, if_pos (hboth.1 hmem)]
            exact ih hp' hrest
          · rw [if_neg hmem, if_neg fun h => hmem (hboth.2 h), List.filter_cons_of_pos hd]
            refine congrArg (d :: ·) (ih hp' ?_)
            intro e he hpe
            rw [List.mem_cons, List.mem_cons, hrest e he hpe]
      | false =>
          have hd' : ¬ p d = true := Bool.eq_false_iff.1 hd
          rw [List.filter_cons_of_neg hd']
          by_cases hmem : d.text ∈ seen
          · rw [if_pos hmem]
            exact ih hp' hrest
          · -- only the first pass remembers this text, and the second one never meets it
            rw [if_neg hmem, List.filter_cons_of_neg hd']
            refine ih hp' ?_
            intro e he hpe
            have hne : e.text ≠ d.text := by
              intro heq
              rw [hp e (List.mem_cons_of_mem d he) d List.mem_cons_self heq] at hpe
              exact hd' hpe
            rw [List.mem_cons, or_iff_right hne, hrest e he hpe]

/-- The first copies of one module are the first copies among its declarations. -/
theorem filter_source_firstCopies {ds : List Declaration} (h : OneReading ds) (x : Text) :
    (firstCopies [] ds).filter (fun d => d.source = x)
      = firstCopies [] (ds.filter fun d => d.source = x) := by
  refine filter_firstCopies ?_ fun _ _ _ => Iff.rfl
  intro d hd e he htext
  rw [Declaration.source, Declaration.source, h d hd e he htext]

/-- **Dropping copies and sorting commute.** -/
theorem sortOn_firstCopies {ds : List Declaration} (h : OneReading ds) :
    sortOn Declaration.source (firstCopies [] ds)
      = firstCopies [] (sortOn Declaration.source ds) := by
  have hsorted : SortedOn Declaration.source (firstCopies [] (sortOn Declaration.source ds)) :=
    (sortedOn_sortOn Declaration.source ds).sublist (firstCopies_sublist [] _)
  refine (sortedOn_sortOn Declaration.source _).eq_of_filter hsorted ?_
  intro x
  rw [filter_sortOn, filter_source_firstCopies h,
    filter_source_firstCopies (h.perm (sortOn_perm Declaration.source ds)), filter_sortOn]

/-- **The first copies stay, in the order that is asked for.**  Each text of an import block
    has one reading.  For declarations of which this holds there is one statement for each
    text, that of its first declaration: without sorting in the order of the declarations,
    with it in the stable order of the module sources.  And it does not matter whether
    copies are dropped before the sorting or after it. -/
theorem first_copies_in_order :
    (∀ b : Block, OneReading b.declarations)
      ∧ ∀ ds : List Declaration, OneReading ds →
        ((firstOfEachText ds).map Declaration.text).Nodup
        ∧ (∀ t, t ∈ (firstOfEachText ds).map Declaration.text ↔ t ∈ ds.map Declaration.text)
        ∧ (firstOfEachText ds).Sublist ds
        ∧ statements true false ds = (firstOfEachText ds).map Declaration.statement
        ∧ (∃ kept, StablySorted Declaration.source (firstOfEachText ds) kept
          ∧ statements true true ds = kept.map Declaration.statement)
        ∧ ∀ sorted, StablySorted Declaration.source ds sorted →
          statements true true ds = (firstOfEachText sorted).map Declaration.statement := by
  refine ⟨Block.oneReading_declarations, ?_⟩
  intro ds h
  refine ⟨nodup_texts_firstOfEachText ds, ?_, ?_, ?_, ?_, ?_⟩
  · intro t
    rw [texts_firstOfEachText, List.mem_eraseDups]
  · rw [← firstCopies_eq]
    exact firstCopies_sublist [] ds
  · rw [← firstCopies_eq]
    rfl
  · refine ⟨sortOn Declaration.source (firstOfEachText ds), stablySorted_sortOn _ _, ?_⟩
    rw [← firstCopies_eq]
    rfl
  · intro sorted hsorted
    rw [hsorted.eq_sortOn, ← firstCopies_eq, ← sortOn_firstCopies h]
    rfl

/-- A file with a line that comes again, between two statements of another module. -/
def copiedFile : Text :=
  unlines
    [text "import b from 'b';", text "import d from 'a';", text "  import b from 'b';",
      text "import c from 'a';"]

theorem first_copies_in_order_copiedFile :
    statements true true (Block.ofText copiedFile).declarations
      = [⟨text "a", ⟨text "d", [], []⟩⟩, ⟨text "a", ⟨text "c", [], []⟩⟩,
        ⟨text "b", ⟨text "b", [], []⟩⟩] := by
  obtain ⟨hblock, hlists⟩ := first_copies_in_order
  obtain ⟨-, -, -, -, -, hcommute⟩ := hlists _ (hblock (Block.ofText copiedFile))
  rw [hcommute _ (stablySorted_sortOn Declaration.source _)]
  decide +kernel

end Flat

end ImportBlock
