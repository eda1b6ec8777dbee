import Mathlib
import ImportBlock.Text.Word

/-! # Whole words in a text

    A place where a word stands is read off the text by `wordStandsAt`: the bytes
    of the word are there and no identifier byte touches them.  The search is one
    scan with a flag, so the first section says that the scan finds exactly the
    first such place.

    The rest is about texts put together from parts.  Two parts are `Parted` when
    no identifier runs across the place where they meet; a word of identifier
    bytes then stands in the whole exactly if it stands in one of the parts. -/

namespace ImportBlock
namespace Text

/-- An identifier: a text of identifier bytes that is not empty. -/
def Ident (s : Text) : Prop := s ≠ [] ∧ ∀ b ∈ s, isIdent b = true

instance (s : Text) : Decidable (Ident s) :=
  decidable_of_iff (s ≠ [] ∧ s.all isIdent = true) (and_congr_right fun _ => List.all_eq_true)

/-- The word stands somewhere at or after position `k`. -/
def HasWordFrom (word : Text) (k : Nat) (s : Text) : Prop :=
  ∃ i, k ≤ i ∧ wordStandsAt s i word = true

/-- No identifier runs from the first text into the second. -/
def Parted (a b : Text) : Prop := endsIdent a = false ∨ startsIdent b = false

/-! ## Tables of bytes -/

/-- What is checked for each byte of a text holds of its bytes. -/
theorem forall_mem_of_all {p : UInt8 → Prop} [DecidablePred p] {s : Text}
    (h : (s.all fun b => decide (p b)) = true) : ∀ b ∈ s, p b :=
  fun b hb => of_decide_eq_true (List.all_eq_true.1 h b hb)

theorem forall_mem_of_option_all {p : UInt8 → Prop} [DecidablePred p] {o : Option UInt8}
    (h : (o.all fun b => decide (p b)) = true) : ∀ b ∈ o, p b := by
  rintro b rfl
  exact of_decide_eq_true h

/-! ## The ends of a text -/

theorem exists_eq_concat {s : Text} (hs : s ≠ []) : ∃ t c, s = t ++ [c] :=
  ⟨s.dropLast, s.getLast hs, (List.dropLast_concat_getLast hs).symm⟩

theorem endsIdent_append {a b : Text} (hb : b ≠ []) :
    endsIdent (a ++ b) = endsIdent b := by
  rw [endsIdent, endsIdent, List.getLast?_append, List.getLast?_eq_some_getLast hb]
  rfl

theorem endsIdent_concat (a : Text) (b : UInt8) :
    endsIdent (a ++ [b]) = isIdent b := by
  rw [endsIdent_append (List.cons_ne_nil b [])]
  rfl

theorem startsIdent_append {a b : Text} (ha : a ≠ []) :
    startsIdent (a ++ b) = startsIdent a := by
  cases a with
  | nil => exact absurd rfl ha
  | cons c a => rfl

theorem startsIdent_eq_false {s : Text} (h : ∀ b ∈ s, isIdent b = false) :
    startsIdent s = false := by
  cases s with
  | nil => rfl
  | cons b s => exact h b List.mem_cons_self

theorem endsIdent_eq_false {s : Text} (h : ∀ b ∈ s, isIdent b = false) :
    endsIdent s = false := by
  rw [endsIdent]
  cases hl : s.getLast? with
  | none => rfl
  | some b => exact h b (List.mem_of_getLast? hl)

theorem startsIdent_of_ident {s : Text} (h : Ident s) : startsIdent s = true := by
  cases s with
  | nil => exact absurd rfl h.1
  | cons b s => exact h.2 b List.mem_cons_self

theorem endsIdent_of_ident {s : Text} (h : Ident s) : endsIdent s = true := by
  rw [endsIdent, List.getLast?_eq_some_getLast h.1]
  exact h.2 _ (List.getLast_mem h.1)

/-! ## The search -/

/-- A word that stands in a text has its bytes there, between two places where an
    identifier could end and start. -/
theorem wordStandsAt_iff {s word : Text} {i : Nat} :
    wordStandsAt s i word = true ↔
      word <+: s.drop i ∧ startsIdent (s.drop (i + word.length)) = false
        ∧ endsIdent (s.take i) = false := by
  rw [wordStandsAt, startsWord, Bool.and_eq_true, Bool.and_eq_true, Bool.not_eq_true',
    Bool.not_eq_true', List.isPrefixOf_iff_prefix, List.drop_drop, and_assoc]

/-- No word stands behind the last byte. -/
theorem lt_length_of_wordStandsAt {s word : Text} {i : Nat} (hw : word ≠ [])
    (h : wordStandsAt s i word = true) : i < s.length := by
  obtain ⟨hp, -, -⟩ := wordStandsAt_iff.1 h
  have hlen := hp.length_le
  have hpos : 0 < word.length := List.length_pos_iff.2 hw
  rw [List.length_drop] at hlen
  omega

/-- The scan of the rest of a text finds the first place in it. -/
theorem scanWord_eq_some_iff {word : Text} (hw : word ≠ []) (rest : Text) :
    ∀ (done : Text) (i : Nat),
      scanWord word (endsIdent done) done.length rest = some i ↔
        done.length ≤ i ∧ wordStandsAt (done ++ rest) i word = true
          ∧ ∀ j, done.length ≤ j → j < i → wordStandsAt (done ++ rest) j word = false := by
  induction rest with
  | nil =>
      intro done i
      have hempty : word.isEmpty = false := List.isEmpty_eq_false_iff.2 hw
      rw [scanWord, hempty, Bool.and_false]
      constructor
      · intro h
        cases h
      · rintro ⟨hle, hstands, -⟩
        have hlt := lt_length_of_wordStandsAt hw hstands
        rw [List.append_nil] at hlt
        omega
  | cons b rest ih =>
      intro done i
      -- the first place is here, or the scan goes on with one more byte passed
      have hhere : wordStandsAt (done ++ b :: rest) done.length word
          = (!endsIdent done && startsWord word (b :: rest)) := by
        rw [wordStandsAt, List.drop_left, List.take_left, Bool.and_comm]
      rw [scanWord]
      cases hc : (!endsIdent done && startsWord word (b :: rest)) with
      | true =>
          rw [if_pos rfl, Option.some.injEq]
          constructor
          · rintro rfl
            exact ⟨Nat.le_refl _, hhere.trans hc, fun j h1 h2 => by omega⟩
          · rintro ⟨hle, -, hfirst⟩
            -- a later place would not be the first one
            rcases Nat.lt_or_ge done.length i with hlt | hge
            · have := hfirst done.length (Nat.le_refl _) hlt
              rw [hhere, hc] at this
              cases this
            · omega
      | false =>
          rw [if_neg Bool.false_ne_true]
          have hnext := ih (done ++ [b]) i
          rw [endsIdent_concat, List.length_append, List.length_singleton,
            List.append_assoc, List.singleton_append] at hnext
          rw [hnext]
          constructor
          · rintro ⟨hle, hstands, hfirst⟩
            refine ⟨by omega, hstands, fun j h1 h2 => ?_⟩
            rcases Nat.lt_or_ge done.length j with hlt | hge
            · exact hfirst j hlt h2
            · rw [show j = done.length by omega, hhere, hc]
          · rintro ⟨hle, hstands, hfirst⟩
            have hne : i ≠ done.length := by
              rintro rfl
              rw [hhere, hc] at hstands
              cases hstands
            exact ⟨by omega, hstands, fun j h1 h2 => hfirst j (by omega) h2⟩

/-- **The search is exact**: it returns the first place at or after the offset. -/
theorem indexWordFrom_eq_some_iff {s word : Text} (hw : word ≠ []) (k i : Nat) :
    indexWordFrom s word k = some i ↔
      k ≤ i ∧ wordStandsAt s i word = true
        ∧ ∀ j, k ≤ j → j < i → wordStandsAt s j word = false := by
  rw [indexWordFrom]
  by_cases hk : s.length < k
  · rw [if_pos hk]
    constructor
    · intro h
      cases h
    · rintro ⟨hle, hstands, -⟩
      have := lt_length_of_wordStandsAt hw hstands
      omega
  · rw [if_neg hk]
    have hlen : (s.take k).length = k := List.length_take_of_le (by omega)
    have hscan := scanWord_eq_some_iff hw (s.drop k) (s.take k) i
    rw [hlen, List.take_append_drop] at hscan
    exact hscan

/-- The search fails exactly if the word stands nowhere at or after the offset. -/
theorem indexWordFrom_eq_none_iff {s word : Text} (hw : word ≠ []) (k : Nat) :
    indexWordFrom s word k = none ↔ ¬ HasWordFrom word k s := by
  constructor
  · rintro h ⟨i, hi⟩
    -- the least place at or after the offset would have been found
    induction i using Nat.strongRecOn with
    | ind i ih =>
        by_cases hfirst : ∀ j, k ≤ j → j < i → wordStandsAt s j word = false
        · have hsome := (indexWordFrom_eq_some_iff hw k i).2 ⟨hi.1, hi.2, hfirst⟩
          rw [h] at hsome
          cases hsome
        · obtain ⟨j, hj⟩ := Classical.not_forall.1 hfirst
          obtain ⟨hkj, hj⟩ := Classical.not_imp.1 hj
          obtain ⟨hji, hj⟩ := Classical.not_imp.1 hj
          exact ih j hji ⟨hkj, Bool.of_not_eq_false hj⟩
  · intro h
    cases hs : indexWordFrom s word k with
    | none => rfl
    | some i =>
        obtain ⟨hle, hstands, -⟩ := (indexWordFrom_eq_some_iff hw k i).1 hs
        exact absurd ⟨i, hle, hstands⟩ h

/-! ## Texts put together from parts -/

theorem startsWord_iff {word s : Text} :
    startsWord word s = true ↔ ∃ t, s = word ++ t ∧ startsIdent t = false := by
  rw [startsWord, Bool.and_eq_true, Bool.not_eq_true', List.isPrefixOf_iff_prefix]
  constructor
  · rintro ⟨⟨t, rfl⟩, ht⟩
    rw [List.drop_left] at ht
    exact ⟨t, rfl, ht⟩
  · rintro ⟨t, rfl, ht⟩
    exact ⟨⟨t, rfl⟩, by rw [List.drop_left]; exact ht⟩

theorem startsIdent_of_startsWord {word s : Text} (hword : Ident word)
    (h : startsWord word s = true) : startsIdent s = true := by
  obtain ⟨t, rfl, -⟩ := startsWord_iff.1 h
  rw [startsIdent_append hword.1]
  exact startsIdent_of_ident hword

/-- A word at the start of a part is a word at the start of the whole. -/
theorem startsWord_append {word a b : Text} (hword : Ident word) (ha : a ≠ [])
    (hparted : Parted a b) : startsWord word (a ++ b) = startsWord word a := by
  rw [Bool.eq_iff_iff, startsWord_iff, startsWord_iff]
  constructor
  · rintro ⟨t, ht, hstart⟩
    obtain ⟨u, rfl, rfl⟩ | ⟨u, rfl, rfl⟩ := List.append_eq_append_iff.1 ht
    · -- the part is the start of the word, so an identifier ends it
      have hident : Ident a := ⟨ha, fun c hc => hword.2 c (List.mem_append_left u hc)⟩
      rcases hparted with hend | hb
      · rw [endsIdent_of_ident hident] at hend
        cases hend
      · cases u with
        | nil => exact ⟨[], by rw [List.append_nil, List.append_nil], rfl⟩
        | cons c u =>
            have hc : isIdent c = true := hword.2 c (List.mem_append_right a List.mem_cons_self)
            rw [show startsIdent (c :: u ++ t) = isIdent c from rfl, hc] at hb
            cases hb
    · -- the word ends inside the part, or where it ends
      refine ⟨u, rfl, ?_⟩
      by_cases hu : u = []
      · rw [hu]
        rfl
      · rw [startsIdent_append hu] at hstart
        exact hstart
  · rintro ⟨t, rfl, ht⟩
    refine ⟨t ++ b, List.append_assoc word t b, ?_⟩
    by_cases hnil : t = []
    · subst hnil
      rw [List.append_nil, Parted, endsIdent_of_ident hword] at hparted
      rcases hparted with hend | hb
      · cases hend
      · exact hb
    · rw [startsIdent_append hnil]
      exact ht

theorem Parted.drop {a b : Text} {i : Nat} (h : Parted a b) (hi : i < a.length) :
    Parted (a.drop i) b := by
  rcases h with hend | hb
  · refine Or.inl ?_
    have hne : a.drop i ≠ [] := mt List.drop_eq_nil_iff.1 (Nat.not_le_of_lt hi)
    rw [← endsIdent_append (a := a.take i) hne, List.take_append_drop]
    exact hend
  · exact Or.inr hb

/-- Inside the first part a word stands where it stands in that part. -/
theorem wordStandsAt_append_left {word a b : Text} {i : Nat} (hword : Ident word)
    (hparted : Parted a b) (hi : i < a.length) :
    wordStandsAt (a ++ b) i word = wordStandsAt a i word := by
  have hne : a.drop i ≠ [] := mt List.drop_eq_nil_iff.1 (Nat.not_le_of_lt hi)
  rw [wordStandsAt, wordStandsAt, List.drop_append_of_le_length (Nat.le_of_lt hi),
    List.take_append_of_le_length (Nat.le_of_lt hi),
    startsWord_append hword hne (hparted.drop hi)]

/-- Inside the second part a word stands where it stands in that part. -/
theorem wordStandsAt_append_right {word a b : Text} (j : Nat) (hword : Ident word)
    (hparted : Parted a b) :
    wordStandsAt (a ++ b) (a.length + j) word = wordStandsAt b j word := by
  rw [wordStandsAt, wordStandsAt, List.drop_length_add_append, List.take_length_add_append]
  by_cases hj : b.take j = []
  · -- a word at the start of the second part: nothing of an identifier is before it
    rw [hj, List.append_nil]
    cases hstart : startsWord word (b.drop j) with
    | false => rfl
    | true =>
        have hident := startsIdent_of_startsWord hword hstart
        have hb : b.drop j = b := by
          have := List.take_append_drop j b
          rw [hj] at this
          exact this
        rw [hb] at hident
        rcases hparted with hend | hstarts
        · rw [hend]
          rfl
        · rw [hident] at hstarts
          cases hstarts
  · rw [endsIdent_append hj]

/-- Without identifier bytes there are no words. -/
theorem not_hasWordFrom_of_not_ident {word s : Text} {k : Nat} (hword : Ident word)
    (h : ∀ b ∈ s, isIdent b = false) : ¬ HasWordFrom word k s := by
  rintro ⟨i, -, hi⟩
  obtain ⟨⟨t, ht⟩, -, -⟩ := wordStandsAt_iff.1 hi
  cases word with
  | nil => exact hword.1 rfl
  | cons c word =>
      have hmem : c ∈ s.drop i := by
        rw [← ht]
        exact List.mem_cons_self
      have := h c (List.mem_of_mem_drop hmem)
      rw [hword.2 c List.mem_cons_self] at this
      cases this

/-- **Words and parts**: a word stands in a text put together from two parts
    exactly if it stands in one of them. -/
theorem hasWordFrom_append {word a b : Text} {k : Nat} (hword : Ident word)
    (hparted : Parted a b) :
    HasWordFrom word k (a ++ b) ↔ HasWordFrom word k a ∨ HasWordFrom word (k - a.length) b := by
  constructor
  · rintro ⟨i, hk, hi⟩
    rcases Nat.lt_or_ge i a.length with hlt | hge
    · rw [wordStandsAt_append_left hword hparted hlt] at hi
      exact Or.inl ⟨i, hk, hi⟩
    · obtain ⟨j, rfl⟩ := Nat.exists_eq_add_of_le hge
      rw [wordStandsAt_append_right j hword hparted] at hi
      exact Or.inr ⟨j, by omega, hi⟩
  · rintro (⟨i, hk, hi⟩ | ⟨j, hk, hj⟩)
    · have hlt := lt_length_of_wordStandsAt hword.1 hi
      refine ⟨i, hk, ?_⟩
      rw [wordStandsAt_append_left hword hparted hlt]
      exact hi
    · refine ⟨a.length + j, by omega, ?_⟩
      rw [wordStandsAt_append_right j hword hparted]
      exact hj

/-- A byte that is in no identifier adds no word to the texts around it. -/
theorem hasWordFrom_append_cons {word a b : Text} {c : UInt8} (hword : Ident word)
    (hc : isIdent c = false) :
    HasWordFrom word 0 (a ++ c :: b) ↔ HasWordFrom word 0 a ∨ HasWordFrom word 0 b := by
  have hleft : Parted a ([c] ++ b) := Or.inr hc
  have hright : Parted [c] b := Or.inl hc
  have hnone : ¬ HasWordFrom word 0 [c] := by
    refine not_hasWordFrom_of_not_ident hword ?_
    intro d hd
    rw [List.mem_singleton.1 hd]
    exact hc
  rw [show a ++ c :: b = a ++ ([c] ++ b) from rfl, hasWordFrom_append hword hleft,
    hasWordFrom_append hword hright]
  simp only [Nat.zero_sub, hnone, false_or]

theorem not_hasWordFrom_append {word a b : Text} (hword : Ident word) (hparted : Parted a b)
    (ha : ¬ HasWordFrom word 0 a) (hb : ¬ HasWordFrom word 0 b) :
    ¬ HasWordFrom word 0 (a ++ b) := by
  rw [hasWordFrom_append hword hparted, Nat.zero_sub]
  exact fun h => h.elim ha hb

/-- A text that holds no word keeps none when a part is cut out of it. -/
theorem not_hasWordFrom_middle {word a t b : Text} (hword : Ident word)
    (ha : Parted a t) (hb : Parted t b) (h : ¬ HasWordFrom word 0 (a ++ t ++ b)) :
    ¬ HasWordFrom word 0 t := by
  intro ht
  refine h ?_
  by_cases hnil : t = []
  · subst hnil
    obtain ⟨i, -, hi⟩ := ht
    exact absurd (lt_length_of_wordStandsAt hword.1 hi) (Nat.not_lt_zero i)
  · have hab : Parted (a ++ t) b := by
      rw [Parted, endsIdent_append hnil]
      exact hb
    have hfirst : HasWordFrom word 0 (a ++ t) :=
      (hasWordFrom_append hword ha).2 (Or.inr (by rw [Nat.zero_sub]; exact ht))
    exact (hasWordFrom_append hword hab).2 (Or.inl hfirst)

/-- The only word in an identifier is the identifier. -/
theorem eq_of_hasWordFrom_ident {word s : Text} {k : Nat} (hs : Ident s)
    (h : HasWordFrom word k s) : k = 0 ∧ s = word := by
  obtain ⟨i, hk, hi⟩ := h
  obtain ⟨⟨t, ht⟩, hafter, hbefore⟩ := wordStandsAt_iff.1 hi
  -- what is before the word and what is behind it would be parts of the identifier
  have hi0 : s.take i = [] := by
    by_cases hnil : s.take i = []
    · exact hnil
    · have hident : Ident (s.take i) := ⟨hnil, fun b hb => hs.2 b (List.mem_of_mem_take hb)⟩
      rw [endsIdent_of_ident hident] at hbefore
      cases hbefore
  have hs0 : s.drop i = s := by
    have := List.take_append_drop i s
    rw [hi0] at this
    exact this
  have hi0' : i = 0 := by
    rcases List.take_eq_nil_iff.1 hi0 with h0 | hnil
    · exact h0
    · exact absurd hnil hs.1
  rw [hs0] at ht
  rw [← List.drop_drop, hs0, ← ht, List.drop_left] at hafter
  have ht0 : t = [] := by
    cases t with
    | nil => rfl
    | cons c t =>
        have hc := hs.2 c (by rw [← ht]; exact List.mem_append_right word List.mem_cons_self)
        rw [show startsIdent (c :: t) = isIdent c from rfl, hc] at hafter
        cases hafter
  refine ⟨by omega, ?_⟩
  rw [← ht, ht0, List.append_nil]

/-! ## Cutting at a word -/

/-- The first place of a word is between two texts that no identifier joins, if it is in
    none of the first. -/
theorem indexWordFrom_append {word a b : Text} {k : Nat} (hword : Ident word)
    (hk : k ≤ a.length) (ha : endsIdent a = false) (hb : startsIdent b = false)
    (hfirst : ¬ HasWordFrom word k a) :
    indexWordFrom (a ++ word ++ b) word k = some a.length := by
  refine (indexWordFrom_eq_some_iff hword.1 k a.length).2 ⟨hk, ?_, fun j hkj hj => ?_⟩
  · refine wordStandsAt_iff.2 ⟨⟨b, ?_⟩, ?_, ?_⟩
    · rw [List.append_assoc, List.drop_left]
    · rw [← List.length_append, List.drop_left]
      exact hb
    · rw [List.append_assoc, List.take_left]
      exact ha
  · rw [List.append_assoc, wordStandsAt_append_left hword (Or.inl ha) hj, Bool.eq_false_iff]
    intro hstands
    exact hfirst ⟨j, hkj, hstands⟩

theorem cutWordFrom_eq_some {word a b : Text} {k : Nat} (hword : Ident word)
    (hk : k ≤ a.length) (ha : endsIdent a = false) (hb : startsIdent b = false)
    (hfirst : ¬ HasWordFrom word k a) : cutWordFrom (a ++ word ++ b) word k = some (a, b) := by
  rw [cutWordFrom, indexWordFrom_append hword hk ha hb hfirst, Option.map_some,
    ← List.length_append, List.drop_left, List.append_assoc, List.take_left]

theorem eq_of_cutWordFrom {word s a b : Text} {k : Nat} (hword : Ident word)
    (h : cutWordFrom s word k = some (a, b)) :
    s = a ++ word ++ b ∧ k ≤ a.length ∧ endsIdent a = false ∧ startsIdent b = false
      ∧ ¬ HasWordFrom word k a := by
  obtain ⟨i, hi, heq⟩ := Option.map_eq_some_iff.1 h
  obtain ⟨rfl, rfl⟩ := Prod.mk.inj heq
  obtain ⟨hk, hstands, hfirst⟩ := (indexWordFrom_eq_some_iff hword.1 k i).1 hi
  have hlen := lt_length_of_wordStandsAt hword.1 hstands
  obtain ⟨⟨t, ht⟩, hafter, hbefore⟩ := wordStandsAt_iff.1 hstands
  have htake : (s.take i).length = i := List.length_take_of_le (by omega)
  have hs : s = s.take i ++ word ++ s.drop (i + word.length) := by
    rw [← List.drop_drop, ← ht, List.drop_left, List.append_assoc, ht, List.take_append_drop]
  refine ⟨hs, by omega, hbefore, hafter, ?_⟩
  -- an earlier word in the first part would stand in the whole text
  rintro ⟨j, hkj, hj⟩
  have hjlen := lt_length_of_wordStandsAt hword.1 hj
  have hjs : wordStandsAt s j word = true := by
    rw [hs, List.append_assoc, wordStandsAt_append_left hword (Or.inl hbefore) hjlen]
    exact hj
  rw [hfirst j hkj (by omega)] at hjs
  cases hjs

/-- A cut in the first part is a cut of the whole. -/
theorem cutWordFrom_append_left {word a b x y : Text} (hword : Ident word) (hparted : Parted a b)
    (h : cutWordFrom a word 0 = some (x, y)) :
    cutWordFrom (a ++ b) word 0 = some (x, y ++ b) := by
  obtain ⟨rfl, hle, hx, hy, hfirst⟩ := eq_of_cutWordFrom hword h
  rw [List.append_assoc]
  refine cutWordFrom_eq_some hword hle hx ?_ hfirst
  by_cases hnil : y = []
  · subst hnil
    rw [List.append_nil] at hparted
    rcases hparted with hend | hb
    · rw [endsIdent_append hword.1, endsIdent_of_ident hword] at hend
      cases hend
    · exact hb
  · rw [startsIdent_append hnil]
    exact hy

/-- Without a word in the first part the cut is in the second. -/
theorem cutWordFrom_append_right {word a b x y : Text} (hword : Ident word)
    (hparted : Parted a b) (ha : ¬ HasWordFrom word 0 a)
    (h : cutWordFrom b word 0 = some (x, y)) :
    cutWordFrom (a ++ b) word 0 = some (a ++ x, y) := by
  obtain ⟨rfl, -, hx, hy, hfirst⟩ := eq_of_cutWordFrom hword h
  have hends : endsIdent (a ++ x) = false := by
    by_cases hnil : x = []
    · subst hnil
      rw [List.append_nil]
      rcases hparted with hend | hb
      · exact hend
      · rw [List.nil_append, startsIdent_append hword.1, startsIdent_of_ident hword] at hb
        cases hb
    · rw [endsIdent_append hnil]
      exact hx
  have hax : Parted a x := by
    by_cases hnil : x = []
    · exact Or.inr (by rw [hnil]; rfl)
    · rw [Parted, List.append_assoc, startsIdent_append hnil] at hparted
      exact hparted
  rw [← List.append_assoc, ← List.append_assoc]
  exact cutWordFrom_eq_some hword (Nat.zero_le _) hends hy
    (not_hasWordFrom_append hword hax ha hfirst)

theorem cutWordFrom_eq_none {word s : Text} {k : Nat} (hword : word ≠ []) :
    cutWordFrom s word k = none ↔ ¬ HasWordFrom word k s := by
  rw [cutWordFrom, Option.map_eq_none_iff, indexWordFrom_eq_none_iff hword]

end Text
end ImportBlock
