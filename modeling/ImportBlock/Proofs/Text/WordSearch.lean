import Mathlib
import ImportBlock.Proofs.Checked.Text

/-! # The search for whole words is exact

    The search is a scan that carries a flag along, and beside it there is the loop that
    jumps from one occurrence of the bytes to the next.  Here both are compared with what
    the bytes of the text say at single positions, `StandsAlone`: the bytes of the word are
    there, and the bytes next to them, if there are any, belong to no identifier.

    `whole_word_search_exact` says that the first such position at or after the offset is
    found, and that nothing is found exactly if there is none. -/

namespace ImportBlock
namespace Text

/-- The bytes of the word stand in the text from position `i` on, and neither the byte
    before them nor the byte after them is an identifier byte. -/
structure StandsAlone (s word : Text) (i : Nat) : Prop where
  bytes : ∀ j, j < word.length → s[i + j]? = word[j]?
  before : ∀ k b, k + 1 = i → s[k]? = some b → isIdent b = false
  after : ∀ b, s[i + word.length]? = some b → isIdent b = false

section

variable {s word : Text} {i : Nat}

/-! ## Positions and parts -/

theorem prefix_drop_iff : word <+: s.drop i ↔ ∀ j, j < word.length → s[i + j]? = word[j]? := by
  rw [List.prefix_iff_getElem?]
  refine forall_congr' fun j => forall_congr' fun hj => ?_
  rw [List.getElem?_drop, List.getElem?_eq_getElem hj]

theorem startsIdent_drop_iff :
    startsIdent (s.drop i) = false ↔ ∀ b, s[i]? = some b → isIdent b = false := by
  rw [← List.head?_drop]
  cases s.drop i with
  | nil => simp [startsIdent]
  | cons b rest => simp [startsIdent]

theorem endsIdent_take_iff (hi : i ≤ s.length) :
    endsIdent (s.take i) = false ↔ ∀ k b, k + 1 = i → s[k]? = some b → isIdent b = false := by
  cases i with
  | zero => simp [endsIdent]
  | succ i =>
      obtain ⟨b, hb⟩ : ∃ b, s[i]? = some b := ⟨s[i], List.getElem?_eq_getElem (by omega)⟩
      rw [List.take_add_one, hb, Option.toList_some, endsIdent_concat]
      constructor
      · rintro hident k c hk hc
        obtain rfl : k = i := by omega
        rw [hb] at hc
        cases hc
        exact hident
      · intro h
        exact h i b rfl hb

/-- A word that is not empty starts inside of the text that its bytes stand in. -/
theorem StandsAlone.lt_length (h : StandsAlone s word i) (hword : word ≠ []) : i < s.length := by
  have hpos : 0 < word.length := List.length_pos_iff.2 hword
  have hfirst := h.bytes 0 hpos
  rw [Nat.add_zero, List.getElem?_eq_getElem hpos] at hfirst
  exact (List.getElem?_eq_some_iff.1 hfirst).1

/-- **The test for a whole word, byte by byte.** -/
theorem standsAlone_iff (hword : word ≠ []) :
    StandsAlone s word i ↔ wordStandsAt s i word = true := by
  rw [wordStandsAt_iff, prefix_drop_iff, startsIdent_drop_iff]
  constructor
  · intro h
    have hi := h.lt_length hword
    exact ⟨h.bytes, h.after, (endsIdent_take_iff (Nat.le_of_lt hi)).2 h.before⟩
  · rintro ⟨hbytes, hafter, hbefore⟩
    have hi : i < s.length := by
      have hstands : wordStandsAt s i word = true :=
        wordStandsAt_iff.2 ⟨prefix_drop_iff.2 hbytes, startsIdent_drop_iff.2 hafter, hbefore⟩
      exact lt_length_of_wordStandsAt hword hstands
    exact ⟨hbytes, (endsIdent_take_iff (Nat.le_of_lt hi)).1 hbefore, hafter⟩

/-! ## The first position -/

theorem isLeast_standsAlone_iff (hword : word ≠ []) (offset : Nat) :
    IsLeast {i | offset ≤ i ∧ StandsAlone s word i} i ↔
      offset ≤ i ∧ wordStandsAt s i word = true
        ∧ ∀ j, offset ≤ j → j < i → wordStandsAt s j word = false := by
  constructor
  · rintro ⟨⟨hle, hstands⟩, hleast⟩
    refine ⟨hle, (standsAlone_iff hword).1 hstands, ?_⟩
    intro j hj hlt
    refine Bool.eq_false_iff.2 ?_
    intro hstands'
    have hge : i ≤ j := hleast ⟨hj, (standsAlone_iff hword).2 hstands'⟩
    omega
  · rintro ⟨hle, hstands, hfirst⟩
    refine ⟨⟨hle, (standsAlone_iff hword).2 hstands⟩, ?_⟩
    rintro j ⟨hj, hstands'⟩
    by_contra hlt
    have hnot := hfirst j hj (by omega)
    rw [(standsAlone_iff hword).1 hstands'] at hnot
    cases hnot

end

/-- **The search is exact.**  For a word that is not empty the search from an offset on gives
    the least position at or after the offset where the word stands alone, and nothing exactly
    if there is no such position, as when the offset is behind the end of the text.  The byte
    before the word is looked at even if it stands before the offset.  The loop from one
    occurrence of the bytes to the next ends without leaving the text and gives the same
    position, or `-1`. -/
theorem whole_word_search_exact (s word : Text) (hword : word ≠ []) (offset : Nat) :
    (∀ i, indexWordFrom s word offset = some i
        ↔ IsLeast {i | offset ≤ i ∧ StandsAlone s word i} i)
      ∧ (indexWordFrom s word offset = none ↔ ¬ ∃ i, offset ≤ i ∧ StandsAlone s word i)
      ∧ (s.length < offset → indexWordFrom s word offset = none)
      ∧ Checked.indexWordFrom s word offset
        = .ok (Checked.position (indexWordFrom s word offset)) := by
  refine ⟨?_, ?_, ?_, Checked.indexWordFrom_eq s hword offset⟩
  · intro i
    rw [indexWordFrom_eq_some_iff hword, isLeast_standsAlone_iff hword]
  · rw [indexWordFrom_eq_none_iff hword, HasWordFrom]
    simp only [standsAlone_iff hword]
  · intro hlt
    exact if_pos hlt

/-- A text in which the bytes of `a-a` stand twice, one byte of them shared. -/
def overlapping : Text := text "xa-a-a"

/-- The first occurrence starts at the offset and is no whole word, since the byte before the
    offset belongs to an identifier; the second one starts inside of the first. -/
theorem whole_word_search_exact_overlapping :
    IsLeast {i | 1 ≤ i ∧ StandsAlone overlapping (text "a-a") i} 3
      ∧ (¬ ∃ i, 4 ≤ i ∧ StandsAlone overlapping (text "a-a") i)
      ∧ Checked.indexWordFrom overlapping (text "a-a") (1 : Nat) = .ok 3 := by
  obtain ⟨hleast, -, -, hloop⟩ :=
    whole_word_search_exact overlapping (text "a-a") (by decide) 1
  obtain ⟨-, hnone, -, -⟩ := whole_word_search_exact overlapping (text "a-a") (by decide) 4
  have hfound : indexWordFrom overlapping (text "a-a") 1 = some 3 := by decide
  rw [hfound] at hloop
  exact ⟨(hleast 3).1 hfound, hnone.1 (by decide), hloop⟩

end Text
end ImportBlock
