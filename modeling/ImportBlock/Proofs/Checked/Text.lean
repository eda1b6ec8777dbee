import Mathlib
import ImportBlock.Proofs.Text.Cuts

/-! # Texts read by position

    The library takes texts apart with cuts, which have no positions that could be wrong.
    Here the same cuts are made the other way: a search gives a position, or `-1` if there is
    nothing to find, and entries and slices are taken at positions that have been computed.
    Every access is checked, and a check that fails is a `Fault`.

    The lemmas say that an access to a text in parts gives the part, and that a search finds
    the place where a text is cut.  `searchWord_eq` does this for the search for whole words,
    a loop that is given a number of rounds: it ends before they are used up. -/

namespace ImportBlock

open Text

namespace Checked

/-- What can go wrong. -/
inductive Fault where
  /-- A position is outside of the list. -/
  | outOfRange
  /-- A loop has used up its rounds. -/
  | unfinished
  deriving DecidableEq, Repr

section

variable {α β : Type}

@[simp] theorem ok_bind (a : α) (f : α → Except Fault β) : (Except.ok a >>= f) = f a := rfl

@[simp] theorem map_ok (f : α → β) (a : α) : f <$> (Except.ok a : Except Fault α) = .ok (f a) :=
  rfl

/-- Checks that hold one by one hold for all. -/
theorem mapM_ok {f : α → Except Fault β} {g : α → β} {xs : List α}
    (h : ∀ x ∈ xs, f x = .ok (g x)) : xs.mapM f = .ok (xs.map g) := by
  induction xs with
  | nil => rfl
  | cons x xs ih =>
      rw [List.mapM_cons, h x List.mem_cons_self, ok_bind,
        ih fun y hy => h y (List.mem_cons_of_mem x hy)]
      rfl

/-! ## Access -/

/-- The entry at a position. -/
def entry (xs : List α) (i : Int) : Except Fault α :=
  if 0 ≤ i then (xs[i.toNat]?).elim (.error .outOfRange) .ok else .error .outOfRange

/-- The list with another entry at a position. -/
def store (xs : List α) (i : Int) (a : α) : Except Fault (List α) :=
  if 0 ≤ i ∧ i < xs.length then .ok (xs.set i.toNat a) else .error .outOfRange

/-- The entries from position `i` on and before position `j`. -/
def slice (xs : List α) (i j : Int) : Except Fault (List α) :=
  if 0 ≤ i ∧ i ≤ j ∧ j ≤ xs.length then .ok ((xs.take j.toNat).drop i.toNat)
  else .error .outOfRange

theorem entry_eq {xs : List α} {i : Nat} {a : α} (h : xs[i]? = some a) :
    entry xs i = .ok a := by
  rw [entry, if_pos (Int.natCast_nonneg i), Int.toNat_natCast, h]
  rfl

theorem entry_append (xs : List α) (a : α) (ys : List α) :
    entry (xs ++ a :: ys) xs.length = .ok a :=
  entry_eq (by simp)

theorem store_append (xs : List α) (a b : α) (ys : List α) :
    store (xs ++ a :: ys) xs.length b = .ok (xs ++ b :: ys) := by
  have hlt : (xs.length : Int) < (xs ++ a :: ys).length := by
    rw [List.length_append, List.length_cons]
    omega
  rw [store, if_pos ⟨Int.natCast_nonneg _, hlt⟩, Int.toNat_natCast]
  simp

theorem slice_eq {xs : List α} {i j : Nat} (hij : i ≤ j) (hj : j ≤ xs.length) :
    slice xs i j = .ok ((xs.take j).drop i) := by
  rw [slice, if_pos (by omega), Int.toNat_natCast, Int.toNat_natCast]

/-- What stands before a position. -/
theorem slice_before {xs : List α} {i : Nat} (hi : i ≤ xs.length) :
    slice xs 0 i = .ok (xs.take i) := slice_eq (Nat.zero_le i) hi

/-- What stands from a position on. -/
theorem slice_from {xs : List α} {i : Nat} (hi : i ≤ xs.length) :
    slice xs i xs.length = .ok (xs.drop i) := by
  rw [slice_eq hi (Nat.le_refl _), List.take_length]

theorem slice_append_left (xs ys : List α) : slice (xs ++ ys) 0 xs.length = .ok xs := by
  rw [slice_before (by simp), List.take_left]

theorem slice_append_right (xs ys : List α) :
    slice (xs ++ ys) xs.length (xs ++ ys).length = .ok ys := by
  rw [slice_from (by simp), List.drop_left]

theorem slice_append_middle (xs ys zs : List α) :
    slice (xs ++ ys ++ zs) xs.length (xs.length + ys.length : Nat) = .ok ys := by
  rw [slice_eq (Nat.le_add_right _ _) (by simp), ← List.length_append, List.take_left,
    List.drop_left]

end

/-! ## Searches -/

/-- The position of what was found, `-1` if nothing was. -/
def position : Option Nat → Int
  | some i => i
  | none => -1

@[simp] theorem position_some (i : Nat) : position (some i) = i := rfl

/-- The position of the first byte that satisfies `p`. -/
def firstPosition (p : UInt8 → Bool) (s : Text) : Int := position (s.findIdx? p)

/-- The position of the last byte that satisfies `p`. -/
def lastPosition (p : UInt8 → Bool) (s : Text) : Int :=
  position ((s.reverse.findIdx? p).map fun i => s.length - 1 - i)

/-- The first position where the bytes of the word stand. -/
def wordPosition (word s : Text) : Int :=
  position ((List.range (s.length + 1)).find? fun i => word.isPrefixOf (s.drop i))

theorem findIdx?_append {α : Type} {p : α → Bool} {xs ys : List α} {a : α}
    (hxs : ∀ x ∈ xs, p x = false) (ha : p a = true) :
    (xs ++ a :: ys).findIdx? p = some xs.length := by
  have hnone : xs.findIdx? p = none := List.findIdx?_eq_none_iff.2 hxs
  rw [List.findIdx?_append, hnone, List.findIdx?_cons, if_pos ha]
  simp

theorem firstPosition_of_cut {p : UInt8 → Bool} {s l r : Text}
    (h : cutFirst p s = some (l, r)) : firstPosition p s = l.length := by
  obtain ⟨b, hb, rfl, hl⟩ := eq_of_cutFirst h
  rw [firstPosition, findIdx?_append hl hb]
  rfl

theorem firstPosition_of_none {p : UInt8 → Bool} {s : Text} (h : cutFirst p s = none) :
    firstPosition p s = -1 := by
  rw [firstPosition, List.findIdx?_eq_none_iff.2 (cutFirst_eq_none_iff.1 h)]
  rfl

theorem lastPosition_append {p : UInt8 → Bool} {l r : Text} {b : UInt8} (hb : p b = true)
    (hr : ∀ c ∈ r, p c = false) : lastPosition p (l ++ b :: r) = l.length := by
  have hreverse : (l ++ b :: r).reverse = r.reverse ++ b :: l.reverse := by simp
  have hr' : ∀ c ∈ r.reverse, p c = false := by
    intro c hc
    exact hr c (List.mem_reverse.1 hc)
  rw [lastPosition, hreverse, findIdx?_append hr' hb, Option.map_some, List.length_append,
    List.length_cons, List.length_reverse, position]
  omega

theorem lastPosition_of_none {p : UInt8 → Bool} {s : Text} (h : cutLast p s = none) :
    lastPosition p s = -1 := by
  have hnone : s.reverse.findIdx? p = none := by
    refine List.findIdx?_eq_none_iff.2 ?_
    intro c hc
    exact cutLast_eq_none_iff.1 h c (List.mem_reverse.1 hc)
  rw [lastPosition, hnone]
  rfl

theorem firstPosition_nonneg {p : UInt8 → Bool} {s : Text} {parts : Text × Text}
    (h : cutFirst p s = some parts) : 0 ≤ firstPosition p s := by
  rw [firstPosition_of_cut h]
  exact Int.natCast_nonneg _

/-- What stands before a cut. -/
theorem slice_before_cut {p : UInt8 → Bool} {s l r : Text} (h : cutFirst p s = some (l, r)) :
    slice s 0 (firstPosition p s) = .ok l := by
  obtain ⟨b, -, hs, -⟩ := eq_of_cutFirst h
  rw [firstPosition_of_cut h, hs]
  exact slice_append_left l (b :: r)

/-- What stands behind a cut. -/
theorem slice_behind_cut {p : UInt8 → Bool} {s l r : Text} (h : cutFirst p s = some (l, r)) :
    slice s (firstPosition p s + 1) s.length = .ok r := by
  obtain ⟨b, -, hs, -⟩ := eq_of_cutFirst h
  have hparts : s = (l ++ [b]) ++ r := by
    rw [hs]
    simp
  have hnext : (l.length : Int) + 1 = ((l ++ [b]).length : Nat) := by simp
  rw [firstPosition_of_cut h, hnext, hparts]
  exact slice_append_right (l ++ [b]) r

/-- A last cut behind a first one. -/
theorem lastPosition_of_cuts {p q : UInt8 → Bool} {s l r m t : Text}
    (h : cutFirst p s = some (l, r)) (h' : cutLast q r = some (m, t)) :
    lastPosition q s = (l.length + 1 + m.length : Nat) := by
  obtain ⟨b, -, hs, -⟩ := eq_of_cutFirst h
  obtain ⟨c, hc, hr, ht⟩ := eq_of_cutLast h'
  have hparts : s = (l ++ b :: m) ++ c :: t := by
    rw [hs, hr]
    simp
  rw [hparts, lastPosition_append hc ht, List.length_append, List.length_cons]
  omega

/-- What stands between two cuts. -/
theorem slice_between_cuts {p q : UInt8 → Bool} {s l r m t : Text}
    (h : cutFirst p s = some (l, r)) (h' : cutLast q r = some (m, t)) :
    slice s (firstPosition p s + 1) (lastPosition q s) = .ok m := by
  obtain ⟨b, -, hs, -⟩ := eq_of_cutFirst h
  obtain ⟨c, -, hr, -⟩ := eq_of_cutLast h'
  have hparts : s = (l ++ [b]) ++ m ++ c :: t := by
    rw [hs, hr]
    simp
  have hnext : (l.length : Int) + 1 = ((l ++ [b]).length : Nat) := by simp
  have hlength : l.length + 1 + m.length = (l ++ [b]).length + m.length := by simp
  rw [firstPosition_of_cut h, lastPosition_of_cuts h h', hnext, hlength, hparts]
  exact slice_append_middle (l ++ [b]) m (c :: t)

/-- What is not in the second part is last found in the first part, if at all. -/
theorem lastPosition_lt {p : UInt8 → Bool} (l : Text) {r : Text} (hr : ∀ c ∈ r, p c = false) :
    lastPosition p (l ++ r) < l.length := by
  have hafter : ∀ {s : Text}, (∀ c ∈ s, p c = false) → ∀ c ∈ s ++ r, p c = false := by
    intro s hs c hc
    rcases List.mem_append.1 hc with hmem | hmem
    · exact hs c hmem
    · exact hr c hmem
  cases hcut : cutLast p l with
  | none =>
      rw [lastPosition_of_none (cutLast_eq_none_iff.2 (hafter (cutLast_eq_none hcut)))]
      omega
  | some parts =>
      obtain ⟨a, s⟩ := parts
      obtain ⟨b, hb, rfl, hs⟩ := eq_of_cutLast hcut
      rw [List.append_assoc, List.cons_append, lastPosition_append hb (hafter hs),
        List.length_append, List.length_cons]
      omega

/-- A word that is not empty stands nowhere, or there is a first place where it stands. -/
theorem wordPosition_cases {word : Text} (hword : word ≠ []) (s : Text) :
    (wordPosition word s = -1 ∧ ∀ j, ¬ word <+: s.drop j)
      ∨ ∃ i : Nat, wordPosition word s = i ∧ word <+: s.drop i
        ∧ ∀ j, j < i → ¬ word <+: s.drop j := by
  rw [wordPosition]
  cases hfind : (List.range (s.length + 1)).find? (fun i => word.isPrefixOf (s.drop i)) with
  | none =>
      refine Or.inl ⟨rfl, ?_⟩
      intro j hj
      by_cases hle : j ≤ s.length
      · have hmem : j ∈ List.range (s.length + 1) := List.mem_range.2 (by omega)
        exact List.find?_eq_none.1 hfind j hmem (List.isPrefixOf_iff_prefix.2 hj)
      · -- behind the text there is nothing a word could stand in
        rw [List.drop_eq_nil_of_le (by omega), List.prefix_nil] at hj
        exact hword hj
  | some i =>
      obtain ⟨hi, -, hfirst⟩ := List.find?_range_eq_some.1 hfind
      refine Or.inr ⟨i, rfl, List.isPrefixOf_iff_prefix.1 hi, ?_⟩
      intro j hj hprefix
      have hnot := hfirst j hj
      rw [List.isPrefixOf_iff_prefix.2 hprefix] at hnot
      cases hnot

/-! ## Whole words -/

/-- Is the byte before the position an identifier byte?  At the start there is none. -/
def identBefore (s : Text) (i : Int) : Except Fault Bool :=
  if 0 < i then isIdent <$> entry s (i - 1) else pure false

/-- Is the byte at the position an identifier byte?  Behind the end there is none. -/
def identFrom (s : Text) (i : Int) : Except Fault Bool :=
  if s.length ≤ i then pure false else isIdent <$> entry s i

/-- Does the word stand at the position as a whole word? -/
def hasWordAt (s : Text) (i : Int) (word : Text) : Except Fault Bool :=
  if i < 0 then pure false
  else do
    let rest ← slice s i s.length
    if word.isPrefixOf rest then
      if ← identBefore s i then pure false
      else return !(← identFrom s (i + word.length))
    else pure false

/-- Looks for the word from the offset on.  Where its bytes stand inside of a longer word,
    the search goes on behind the first of them. -/
def searchWord (s word : Text) : Nat → Int → Except Fault Int
  | 0, _ => throw .unfinished
  | rounds + 1, offset => do
      let rest ← slice s offset s.length
      let i := wordPosition word rest
      if i < 0 then pure (-1)
      else if ← hasWordAt s (offset + i) word then pure (offset + i)
      else searchWord s word rounds (offset + i + 1)

/-- The first position at or after the offset where the word stands as a whole word. -/
def indexWordFrom (s word : Text) (offset : Int) : Except Fault Int :=
  if s.length < offset then pure (-1) else searchWord s word (s.length + 1) offset

/-- The first position where the word stands as a whole word. -/
def indexWord (s word : Text) : Except Fault Int := indexWordFrom s word 0

theorem identBefore_eq {s : Text} {i : Nat} (hi : i ≤ s.length) :
    identBefore s i = .ok (endsIdent (s.take i)) := by
  rw [identBefore]
  cases i with
  | zero => rfl
  | succ i =>
      obtain ⟨b, hb⟩ : ∃ b, s[i]? = some b := ⟨s[i], List.getElem?_eq_getElem (by omega)⟩
      have hlast : endsIdent (s.take (i + 1)) = isIdent b := by
        rw [List.take_add_one, hb]
        exact endsIdent_concat _ b
      have hpos : ((i + 1 : Nat) : Int) - 1 = (i : Int) := by omega
      rw [if_pos (by omega), hpos, entry_eq hb, hlast]
      rfl

theorem identFrom_eq (s : Text) (i : Nat) : identFrom s i = .ok (startsIdent (s.drop i)) := by
  rw [identFrom]
  by_cases hend : s.length ≤ i
  · rw [if_pos (by omega), List.drop_eq_nil_of_le hend]
    rfl
  · have hi : i < s.length := by omega
    rw [if_neg (by omega), entry_eq (List.getElem?_eq_getElem hi), List.drop_eq_getElem_cons hi]
    rfl

/-- **The test looks at bytes that are there.** -/
theorem hasWordAt_eq {s : Text} {i : Nat} (hi : i ≤ s.length) (word : Text) :
    hasWordAt s i word = .ok (wordStandsAt s i word) := by
  rw [hasWordAt, if_neg (by omega), slice_from hi, ok_bind, wordStandsAt, startsWord,
    List.drop_drop]
  cases hprefix : word.isPrefixOf (s.drop i) with
  | false => rfl
  | true =>
      rw [if_pos rfl, identBefore_eq hi, ok_bind, ← Nat.cast_add, identFrom_eq, ok_bind,
        Bool.true_and, Bool.and_comm]
      cases endsIdent (s.take i) with
      | true => rfl
      | false => rfl

/-- At the start of a text no byte stands before a word. -/
theorem hasWordAt_start (s word : Text) : hasWordAt s 0 word = .ok (startsWord word s) := by
  have hzero : wordStandsAt s 0 word = startsWord word s := Bool.and_true _
  rw [← hzero]
  exact hasWordAt_eq (Nat.zero_le _) word

/-- Places where the word does not stand can be skipped. -/
theorem indexWordFrom_skip {s word : Text} (hword : word ≠ []) {k k' : Nat} (hle : k ≤ k')
    (h : ∀ j, k ≤ j → j < k' → wordStandsAt s j word = false) :
    Text.indexWordFrom s word k = Text.indexWordFrom s word k' := by
  refine Option.ext ?_
  intro i
  rw [indexWordFrom_eq_some_iff hword, indexWordFrom_eq_some_iff hword]
  constructor
  · rintro ⟨hi, hstands, hfirst⟩
    have hge : k' ≤ i := by
      by_contra hlt
      rw [h i hi (by omega)] at hstands
      cases hstands
    exact ⟨hge, hstands, fun j hj => hfirst j (by omega)⟩
  · rintro ⟨hi, hstands, hfirst⟩
    refine ⟨by omega, hstands, ?_⟩
    intro j hj hji
    by_cases hlt : j < k'
    · exact h j hj hlt
    · exact hfirst j (by omega) hji

/-- **The search ends and stays in range**: each round starts further on, and no round
    starts behind the end, since the word that was found there has a byte. -/
theorem searchWord_eq {s word : Text} (hword : word ≠ []) :
    ∀ (rounds k : Nat), k ≤ s.length → s.length < k + rounds →
      searchWord s word rounds k = .ok (position (Text.indexWordFrom s word k)) := by
  intro rounds
  induction rounds with
  | zero =>
      intro k hk hrounds
      omega
  | succ rounds ih =>
      intro k hk hrounds
      -- where the bytes of the word do not stand it is no whole word either
      have hnot : ∀ {j}, ¬ word <+: s.drop (k + j) → wordStandsAt s (k + j) word = false := by
        intro j hj
        refine Bool.eq_false_iff.2 ?_
        intro hstands
        exact hj (wordStandsAt_iff.1 hstands).1
      rw [searchWord, slice_from hk, ok_bind]
      dsimp only
      rcases wordPosition_cases hword (s.drop k) with ⟨hpos, hnone⟩ | ⟨i, hpos, hprefix, hfirst⟩
      · -- nothing is found
        have hindex : Text.indexWordFrom s word k = none := by
          refine (indexWordFrom_eq_none_iff hword k).2 ?_
          rintro ⟨j, hkj, hstands⟩
          obtain ⟨m, rfl⟩ := Nat.exists_eq_add_of_le hkj
          have hm := hnone m
          rw [List.drop_drop] at hm
          rw [hnot hm] at hstands
          cases hstands
        rw [hpos, hindex, if_pos (by decide)]
        rfl
      · rw [List.drop_drop] at hprefix
        have hlength := hprefix.length_le
        have hbyte : 0 < word.length := List.length_pos_iff.2 hword
        rw [List.length_drop] at hlength
        have hbefore : ∀ j, k ≤ j → j < k + i → wordStandsAt s j word = false := by
          intro j hkj hj
          obtain ⟨m, rfl⟩ := Nat.exists_eq_add_of_le hkj
          have hm := hfirst m (by omega)
          rw [List.drop_drop] at hm
          exact hnot hm
        rw [hpos, if_neg (by omega), ← Nat.cast_add, hasWordAt_eq (by omega), ok_bind]
        cases hstands : wordStandsAt s (k + i) word with
        | true =>
            have hindex : Text.indexWordFrom s word k = some (k + i) :=
              (indexWordFrom_eq_some_iff hword k (k + i)).2 ⟨by omega, hstands, hbefore⟩
            rw [if_pos rfl, hindex]
            rfl
        | false =>
            have hskip : Text.indexWordFrom s word k = Text.indexWordFrom s word (k + i + 1) := by
              refine indexWordFrom_skip hword (by omega) ?_
              intro j hkj hj
              by_cases hlast : j = k + i
              · rw [hlast]
                exact hstands
              · exact hbefore j hkj (by omega)
            rw [if_neg Bool.false_ne_true, hskip]
            exact ih (k + i + 1) (by omega) (by omega)

/-- **Searches for whole words give what the cuts are made at.** -/
theorem indexWordFrom_eq (s : Text) {word : Text} (hword : word ≠ []) (k : Nat) :
    indexWordFrom s word k = .ok (position (Text.indexWordFrom s word k)) := by
  rw [indexWordFrom]
  split
  · rename_i hlt
    have hlt : s.length < k := by omega
    rw [Text.indexWordFrom, if_pos hlt]
    rfl
  · exact searchWord_eq hword (s.length + 1) k (by omega) (by omega)

/-- A word that is found ends in the text. -/
theorem add_length_le_of_indexWordFrom {s word : Text} {k i : Nat} (hword : word ≠ [])
    (h : Text.indexWordFrom s word k = some i) : i + word.length ≤ s.length := by
  obtain ⟨-, hstands, -⟩ := (indexWordFrom_eq_some_iff hword k i).1 h
  have hlength := (wordStandsAt_iff.1 hstands).1.length_le
  have hlt := lt_length_of_wordStandsAt hword hstands
  rw [List.length_drop] at hlength
  omega

end Checked

end ImportBlock
