import Mathlib
import ImportBlock.Proofs.Checked.Text
import ImportBlock.Proofs.Text.Sorting

/-! # Lists changed in place

    A loop over the positions of a list reads entries, changes them or exchanges them, and
    every access is checked.  `loop_eq` is the rule for such loops: it asks for the list
    before each round.

    `sortInPlace` sorts by exchanging neighbours that are out of order.  It exchanges only
    entries of different keys, so it is a stable sort, and there is only one. -/

namespace ImportBlock

open Text

namespace Checked

variable {α β : Type}

/-- **A loop ends with the state after its last round.** -/
theorem loop_eq (step : β → Nat → Except Fault β) (state : Nat → β) {n : Nat}
    (h : ∀ i, i < n → step (state i) i = .ok (state (i + 1))) :
    (List.range n).foldlM step (state 0) = .ok (state n) := by
  induction n with
  | zero => rfl
  | succ n ih =>
      have hbefore := ih fun i hi => h i (Nat.lt_succ_of_lt hi)
      rw [List.range_succ, List.foldlM_append, hbefore, ok_bind, List.foldlM_cons,
        h n (Nat.lt_succ_self n)]
      rfl

/-! ## One entry after the other -/

/-- Changes one entry. -/
def changeAt (f : α → Except Fault α) (xs : List α) (i : Int) : Except Fault (List α) := do
  store xs i (← f (← entry xs i))

/-- Changes each entry. -/
def changeEach (f : α → Except Fault α) (xs : List α) : Except Fault (List α) :=
  (List.range xs.length).foldlM (fun ys (i : Nat) => changeAt f ys i) xs

theorem changeAt_append (f : α → Except Fault α) (xs : List α) (a : α) (ys : List α) :
    changeAt f (xs ++ a :: ys) xs.length = (fun b => xs ++ b :: ys) <$> f a := by
  rw [changeAt, entry_append, ok_bind]
  cases f a with
  | error fault => rfl
  | ok b => exact store_append xs a b ys

/-- The entries before the position of the loop have been changed. -/
theorem changeEach_eq {f : α → Except Fault α} {g : α → α} (h : ∀ a, f a = .ok (g a))
    (xs : List α) : changeEach f xs = .ok (xs.map g) := by
  have hloop := loop_eq (n := xs.length) (fun ys i => changeAt f ys i)
    (fun i => (xs.take i).map g ++ xs.drop i) ?_
  · simpa [changeEach] using hloop
  · intro i hi
    have hlength : ((xs.take i).map g).length = i := by
      rw [List.length_map, List.length_take]
      omega
    have hchange := changeAt_append f ((xs.take i).map g) xs[i] (xs.drop (i + 1))
    rw [hlength, h, map_ok] at hchange
    rw [List.drop_eq_getElem_cons hi, hchange, List.take_succ_eq_append_getElem hi,
      List.map_append, List.append_assoc]
    rfl

/-! ## Sorting in place -/

/-- Exchanges two entries. -/
def swap (xs : List α) (i j : Int) : Except Fault (List α) := do
  let a ← entry xs i
  let b ← entry xs j
  store (← store xs i b) j a

/-- Moves an entry down to its place among the entries before it. -/
def sink (key : α → Text) : Nat → List α → Except Fault (List α)
  | 0, xs => pure xs
  | j + 1, xs => do
      let a ← entry xs (j + 1 : Nat)
      let b ← entry xs j
      if key a < key b then sink key j (← swap xs (j + 1 : Nat) j) else pure xs

/-- Sorts by moving each entry down to its place. -/
def sortInPlace (key : α → Text) (xs : List α) : Except Fault (List α) :=
  (List.range xs.length).foldlM (fun ys j => sink key j ys) xs

theorem entry_append_next (xs : List α) (a b : α) (ys : List α) :
    entry (xs ++ a :: b :: ys) (xs.length + 1 : Nat) = .ok b :=
  entry_eq (by simp)

theorem swap_append (xs : List α) (a b : α) (ys : List α) :
    swap (xs ++ a :: b :: ys) (xs.length + 1 : Nat) xs.length = .ok (xs ++ b :: a :: ys) := by
  have hstore : store (xs ++ a :: b :: ys) (xs.length + 1 : Nat) a = .ok (xs ++ a :: a :: ys) := by
    have h := store_append (xs ++ [a]) b a ys
    simpa using h
  rw [swap, entry_append_next, ok_bind, entry_append, ok_bind, hstore, ok_bind, store_append]

/-- The greatest entry may be put at the end. -/
theorem sortOn_concat_greater {key : α → Text} {xs : List α} {a b : α}
    (hxs : SortedOn key (xs ++ [b])) (hlt : key a < key b) :
    sortOn key (xs ++ [b] ++ [a]) = sortOn key (xs ++ [a]) ++ [b] := by
  refine (sortedOn_sortOn key _).eq_of_filter ?_ ?_
  · refine (sortedOn_sortOn key _).concat ?_
    intro c hc
    rcases List.mem_append.1 ((sortOn_perm key _).mem_iff.1 hc) with hmem | hmem
    · exact hxs.le_last (List.mem_append_left [b] hmem)
    · rw [List.mem_singleton.1 hmem]
      exact List.le_of_lt hlt
  · intro x
    have hne : ¬ (key a = x ∧ key b = x) := by
      rintro ⟨rfl, hb⟩
      rw [hb] at hlt
      exact List.lt_irrefl _ hlt
    rw [filter_sortOn, List.filter_append, List.filter_append, List.filter_append, filter_sortOn,
      List.filter_append, List.append_assoc, List.append_assoc]
    -- at most one of the two has the key
    by_cases ha : key a = x
    · have hb : ¬ key b = x := fun hb => hne ⟨ha, hb⟩
      simp [hb]
    · simp [ha]

/-- **An entry finds its place**: the induction is on the entries before it, from the last
    one down. -/
theorem sink_eq (key : α → Text) (a : α) {xs : List α} (hxs : SortedOn key xs) (ys : List α) :
    sink key xs.length (xs ++ a :: ys) = .ok (sortOn key (xs ++ [a]) ++ ys) := by
  induction xs using List.reverseRecOn generalizing ys with
  | nil => rfl
  | append_singleton xs b ih =>
      have hparts : xs ++ [b] ++ a :: ys = xs ++ b :: a :: ys := by simp
      rw [List.length_append, List.length_singleton, sink, hparts, entry_append_next, ok_bind,
        entry_append, ok_bind]
      by_cases hlt : key a < key b
      · have hbefore : SortedOn key xs := hxs.sublist (List.sublist_append_left xs [b])
        rw [if_pos hlt, swap_append, ok_bind, ih hbefore, sortOn_concat_greater hxs hlt,
          List.append_assoc]
        rfl
      · have hsorted : SortedOn key (xs ++ [b] ++ [a]) := by
          refine hxs.concat ?_
          intro c hc
          exact List.le_trans (hxs.le_last hc) (List.not_lt.1 hlt)
        rw [if_neg hlt, sortOn_eq_self hsorted, List.append_assoc, List.append_assoc]
        rfl

/-- **Sorting in place is the stable sort.** -/
theorem sortInPlace_eq (key : α → Text) (xs : List α) :
    sortInPlace key xs = .ok (sortOn key xs) := by
  have hloop := loop_eq (n := xs.length) (fun ys j => sink key j ys)
    (fun i => sortOn key (xs.take i) ++ xs.drop i) ?_
  · have hnil : sortOn key [] = [] := rfl
    simpa [sortInPlace, hnil] using hloop
  · intro i hi
    have hlength : (sortOn key (xs.take i)).length = i := by
      rw [(sortOn_perm key _).length_eq, List.length_take]
      omega
    have hsink := sink_eq key xs[i] (sortedOn_sortOn key (xs.take i)) (xs.drop (i + 1))
    rw [hlength] at hsink
    have hsort : sortOn key (sortOn key (xs.take i) ++ [xs[i]]) = sortOn key (xs.take (i + 1)) := by
      refine (sortedOn_sortOn key _).eq_of_filter (sortedOn_sortOn key _) ?_
      intro x
      rw [filter_sortOn, filter_sortOn, List.filter_append, filter_sortOn,
        List.take_succ_eq_append_getElem hi, List.filter_append]
    rw [List.drop_eq_getElem_cons hi, hsink, hsort]

end Checked

end ImportBlock
