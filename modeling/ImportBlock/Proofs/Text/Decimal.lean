import Mathlib
import ImportBlock.Text.Literal

/-! # Decimal numbers

    A number is written with the bytes of its decimal digits, and the value of these digits
    is the number again, `digitsValue_ofNat`. -/

namespace ImportBlock
namespace Text

theorem utf8EncodeChar_of_isDigit {c : Char} (h : c.isDigit = true) :
    String.utf8EncodeChar c = [c.val.toUInt8] ∧ c.val.toUInt8.toNat = c.toNat
      ∧ 48 ≤ c.toNat ∧ c.toNat ≤ 57 := by
  simp only [Char.isDigit, Bool.and_eq_true, decide_eq_true_eq, UInt32.le_iff_toNat_le] at h
  obtain ⟨hlow, hhigh⟩ := h
  have hlow : 48 ≤ c.toNat := hlow
  have hhigh : c.toNat ≤ 57 := hhigh
  refine ⟨?_, ?_, hlow, hhigh⟩
  · refine String.utf8EncodeChar_eq_singleton (Char.utf8Size_eq_one_iff.2 ?_)
    rw [UInt32.le_iff_toNat_le]
    show c.toNat ≤ 127
    omega
  · show c.toNat % 256 = c.toNat
    omega

/-- A number is written with the bytes of its digits. -/
theorem ofNat_eq_map (n : Nat) : ofNat n = (Nat.toDigits 10 n).map fun c => c.val.toUInt8 := by
  have hbytes : ofNat n = (Nat.toDigits 10 n).flatMap String.utf8EncodeChar := by
    show (String.ofList (Nat.toDigits 10 n)).toUTF8.data.toList = _
    simp [String.toUTF8, List.utf8Encode]
  rw [hbytes, List.map_eq_flatMap]
  refine List.flatMap_congr ?_
  intro c hc
  exact (utf8EncodeChar_of_isDigit (Nat.isDigit_of_mem_toDigits (by omega) (by omega) hc)).1

theorem isDigit_of_mem_ofNat {n : Nat} {b : UInt8} (h : b ∈ ofNat n) : isDigit b = true := by
  rw [ofNat_eq_map] at h
  obtain ⟨c, hc, rfl⟩ := List.mem_map.1 h
  obtain ⟨-, hbyte, hlow, hhigh⟩ :=
    utf8EncodeChar_of_isDigit (Nat.isDigit_of_mem_toDigits (by omega) (by omega) hc)
  simp only [isDigit, Bool.and_eq_true, decide_eq_true_eq, UInt8.le_iff_toNat_le, hbyte]
  exact ⟨hlow, hhigh⟩

theorem ofNat_ne_nil (n : Nat) : ofNat n ≠ [] := by
  rw [ofNat_eq_map]
  simp

/-- The digits of a number have its value. -/
theorem digitsValue_ofNat (n : Nat) : digitsValue (ofNat n) = n := by
  have hstep : ∀ (cs : List Char) (k : Nat), (∀ c ∈ cs, c.isDigit = true) →
      (cs.map fun c => c.val.toUInt8).foldl (fun n b => n * 10 + (b.toNat - 48)) k
        = Nat.ofDigitChars 10 cs k := by
    intro cs
    induction cs with
    | nil => intro k _; rfl
    | cons c cs ih =>
        intro k hcs
        obtain ⟨-, hbyte, -, -⟩ := utf8EncodeChar_of_isDigit (hcs c List.mem_cons_self)
        rw [List.map_cons, List.foldl_cons, hbyte,
          ih _ fun d hd => hcs d (List.mem_cons_of_mem c hd), Nat.mul_comm]
        rfl
  rw [digitsValue, ofNat_eq_map, hstep]
  · exact Nat.ofDigitChars_toDigits (by omega) (by omega)
  · intro c hc
    exact Nat.isDigit_of_mem_toDigits (by omega) (by omega) hc

end Text
end ImportBlock
