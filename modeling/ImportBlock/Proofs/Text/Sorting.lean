import Mathlib
import ImportBlock.Text.Basic

/-! # The stable sort

    `sortOn` gives a list in the order of its key, leaves a list that is in order
    alone, and keeps the entries of one key in the order they had. -/

namespace ImportBlock
namespace Text

variable {α : Type}

/-- In the byte-wise order of a key. -/
def SortedOn (key : α → Text) (as : List α) : Prop := as.Pairwise fun a b => key a ≤ key b

theorem SortedOn.sublist {key : α → Text} {as bs : List α} (h : SortedOn key bs)
    (hsub : as.Sublist bs) : SortedOn key as := List.Pairwise.sublist hsub h

/-- Only the keys matter. -/
theorem sortedOn_map {β : Type} {key : β → Text} (f : α → β) {as : List α} :
    SortedOn key (as.map f) ↔ SortedOn (fun a => key (f a)) as := List.pairwise_map

theorem sortedOn_insertOn {key : α → Text} (a : α) {as : List α} (h : SortedOn key as) :
    SortedOn key (insertOn key a as) := by
  induction as with
  | nil => exact List.pairwise_singleton _ a
  | cons b rest ih =>
      obtain ⟨hb, hrest⟩ := List.pairwise_cons.1 h
      rw [insertOn]
      split
      · rename_i hlt
        refine List.pairwise_cons.2 ⟨fun c hc => ?_, ih hrest⟩
        rcases List.mem_cons.1 ((insertOn_perm key a rest).mem_iff.1 hc) with rfl | hc
        · exact List.le_of_lt hlt
        · exact hb c hc
      · rename_i hlt
        have hle : key a ≤ key b := List.not_lt.1 hlt
        refine List.pairwise_cons.2 ⟨fun c hc => ?_, h⟩
        rcases List.mem_cons.1 hc with rfl | hc
        · exact hle
        · exact List.le_trans hle (hb c hc)

/-- The sorted list is in order. -/
theorem sortedOn_sortOn (key : α → Text) (as : List α) : SortedOn key (sortOn key as) := by
  induction as with
  | nil => exact List.Pairwise.nil
  | cons a rest ih => exact sortedOn_insertOn a ih

/-- A list in order is left alone. -/
theorem sortOn_eq_self {key : α → Text} {as : List α} (h : SortedOn key as) :
    sortOn key as = as := by
  induction as with
  | nil => rfl
  | cons a rest ih =>
      obtain ⟨ha, hrest⟩ := List.pairwise_cons.1 h
      show insertOn key a (sortOn key rest) = a :: rest
      rw [ih hrest]
      cases rest with
      | nil => rfl
      | cons b rest =>
          have hle : key a ≤ key b := ha b List.mem_cons_self
          exact if_neg (List.not_lt.2 hle)

/-- The order before does not matter if no two entries share a key. -/
theorem sortOn_eq_of_perm {key : α → Text} {as bs : List α} (hperm : as.Perm bs)
    (hnodup : (as.map key).Nodup) : sortOn key as = sortOn key bs := by
  have hsorts : (sortOn key as).Perm (sortOn key bs) :=
    ((sortOn_perm key as).trans hperm).trans (sortOn_perm key bs).symm
  refine List.Perm.eq_of_pairwise ?_ (sortedOn_sortOn key as) (sortedOn_sortOn key bs) hsorts
  intro a b ha hb hab hba
  have ha' : a ∈ as := (sortOn_perm key as).mem_iff.1 ha
  have hb' : b ∈ as := hperm.mem_iff.2 ((sortOn_perm key bs).mem_iff.1 hb)
  exact List.inj_on_of_nodup_map hnodup ha' hb' (List.le_antisymm hab hba)

/-- Texts in order that are distinct are in strict order. -/
theorem pairwise_lt_of_nodup {xs : List Text} (hsorted : xs.Pairwise (· ≤ ·))
    (hnodup : xs.Nodup) : xs.Pairwise (· < ·) := by
  refine (hsorted.and hnodup).imp ?_
  rintro a b ⟨hle, hne⟩
  refine Decidable.byContradiction fun hlt => hne ?_
  exact List.le_antisymm hle (List.not_lt.1 hlt)

theorem filter_insertOn (key : α → Text) (x : Text) (a : α) (as : List α) :
    (insertOn key a as).filter (fun b => key b = x)
      = (a :: as).filter fun b => key b = x := by
  induction as with
  | nil => rfl
  | cons b rest ih =>
      rw [insertOn]
      split
      · rename_i hlt
        -- two entries that change places have different keys
        have hne : ¬ (key a = x ∧ key b = x) := by
          rintro ⟨rfl, heq⟩
          rw [heq] at hlt
          exact List.lt_irrefl _ hlt
        rw [List.filter_cons, ih, List.filter_cons, List.filter_cons, List.filter_cons]
        by_cases ha : key a = x
        · have hb : ¬ key b = x := fun hb => hne ⟨ha, hb⟩
          simp [ha, hb]
        · simp [ha]
      · rfl

/-- **Entries of one key keep their order.** -/
theorem filter_sortOn (key : α → Text) (x : Text) (as : List α) :
    (sortOn key as).filter (fun a => key a = x) = as.filter fun a => key a = x := by
  induction as with
  | nil => rfl
  | cons a rest ih =>
      show (insertOn key a (sortOn key rest)).filter _ = _
      rw [filter_insertOn, List.filter_cons, ih, List.filter_cons]

theorem SortedOn.le_of_mem {key : α → Text} {a b : α} {as : List α} (h : SortedOn key (a :: as))
    (hb : b ∈ a :: as) : key a ≤ key b := by
  rcases List.mem_cons.1 hb with rfl | hb
  · exact List.le_refl _
  · exact (List.pairwise_cons.1 h).1 b hb

theorem SortedOn.concat {key : α → Text} {as : List α} {b : α} (h : SortedOn key as)
    (hle : ∀ a ∈ as, key a ≤ key b) : SortedOn key (as ++ [b]) := by
  refine List.pairwise_append.2 ⟨h, List.pairwise_singleton _ b, ?_⟩
  intro a ha c hc
  rw [List.mem_singleton.1 hc]
  exact hle a ha

theorem SortedOn.le_last {key : α → Text} {as : List α} {a b : α} (h : SortedOn key (as ++ [b]))
    (ha : a ∈ as ++ [b]) : key a ≤ key b := by
  rcases List.mem_append.1 ha with hmem | hmem
  · exact (List.pairwise_append.1 h).2.2 a hmem b List.mem_cons_self
  · rw [List.mem_singleton.1 hmem]
    exact List.le_refl _

/-- Lists with the same entries of each key have the same entries. -/
theorem mem_iff_of_filter {key : α → Text} {as bs : List α}
    (h : ∀ x, as.filter (fun a => key a = x) = bs.filter fun b => key b = x) (c : α) :
    c ∈ as ↔ c ∈ bs := by
  have hc : c ∈ as.filter (fun a => key a = key c) ↔ c ∈ bs.filter fun b => key b = key c := by
    rw [h]
  simpa using hc

/-- **A list in order is determined by its entries of each key.** -/
theorem SortedOn.eq_of_filter {key : α → Text} {as bs : List α} (has : SortedOn key as)
    (hbs : SortedOn key bs)
    (h : ∀ x, as.filter (fun a => key a = x) = bs.filter fun b => key b = x) : as = bs := by
  induction as generalizing bs with
  | nil =>
      cases bs with
      | nil => rfl
      | cons b bs => exact absurd ((mem_iff_of_filter h b).2 List.mem_cons_self) List.not_mem_nil
  | cons a as ih =>
      cases bs with
      | nil => exact absurd ((mem_iff_of_filter h a).1 List.mem_cons_self) List.not_mem_nil
      | cons b bs =>
          -- the first entries have the least key, so they are the first ones of that key
          have hkey : key b = key a := by
            refine List.le_antisymm ?_ ?_
            · exact hbs.le_of_mem ((mem_iff_of_filter h a).1 List.mem_cons_self)
            · exact has.le_of_mem ((mem_iff_of_filter h b).2 List.mem_cons_self)
          have hfirst : a = b := by
            have hx := h (key a)
            simp only [List.filter_cons, hkey, decide_true, if_true] at hx
            exact (List.cons.inj hx).1
          subst hfirst
          have hrest : ∀ x, as.filter (fun a => key a = x) = bs.filter fun b => key b = x := by
            intro x
            have hx := h x
            rw [List.filter_cons, List.filter_cons] at hx
            split at hx
            · exact (List.cons.inj hx).2
            · exact hx
          rw [ih (has.sublist (List.sublist_cons_self a as))
            (hbs.sublist (List.sublist_cons_self a bs)) hrest]

theorem insertOn_map {β : Type} (key : β → Text) (f : α → β) (a : α) (as : List α) :
    insertOn key (f a) (as.map f) = (insertOn (fun a => key (f a)) a as).map f := by
  induction as with
  | nil => rfl
  | cons b rest ih =>
      rw [List.map_cons, insertOn, insertOn]
      split
      · rw [List.map_cons, ih]
      · rfl

theorem sortOn_map {β : Type} (key : β → Text) (f : α → β) (as : List α) :
    sortOn key (as.map f) = (sortOn (fun a => key (f a)) as).map f := by
  induction as with
  | nil => rfl
  | cons a rest ih =>
      show insertOn key (f a) (sortOn key (rest.map f)) = _
      rw [ih, insertOn_map]
      rfl

/-- The second list is the first one in the stable order of a key. -/
structure StablySorted (key : α → Text) (as bs : List α) : Prop where
  perm : bs.Perm as
  sorted : SortedOn key bs
  stable : ∀ x, bs.filter (fun b => key b = x) = as.filter fun a => key a = x

theorem stablySorted_sortOn (key : α → Text) (as : List α) : StablySorted key as (sortOn key as) :=
  ⟨sortOn_perm key as, sortedOn_sortOn key as, fun x => filter_sortOn key x as⟩

/-- There is only one stable order. -/
theorem StablySorted.eq_sortOn {key : α → Text} {as bs : List α} (h : StablySorted key as bs) :
    bs = sortOn key as := by
  refine h.sorted.eq_of_filter (sortedOn_sortOn key as) ?_
  intro x
  rw [h.stable, filter_sortOn]

end Text
end ImportBlock
