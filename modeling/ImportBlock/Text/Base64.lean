import ImportBlock.Text.Basic

/-! # Base 64

    Bytes that are spelled in base 64: four letters stand for three bytes, and equals
    signs fill up the last group.  Line breaks may stand anywhere. -/

namespace ImportBlock
namespace Text

/-- The six bits that a letter of base 64 stands for. -/
def sixBits? (b : UInt8) : Option Nat :=
  if 65 ≤ b && b ≤ 90 then some (b.toNat - 65)
  else if 97 ≤ b && b ≤ 122 then some (b.toNat - 71)
  else if 48 ≤ b && b ≤ 57 then some (b.toNat + 4)
  else if b = 43 then some 62
  else if b = 47 then some 63
  else none

/-- The three bytes that four letters stand for. -/
def threeBytes? (a b c d : UInt8) : Option Text := do
  let n := (((← sixBits? a) * 64 + (← sixBits? b)) * 64 + (← sixBits? c)) * 64 + (← sixBits? d)
  return [(n / 65536).toUInt8, (n / 256).toUInt8, n.toUInt8]

/-- The bytes that groups of four letters stand for.  In the last group equals signs may
    stand for the last one or two letters; the bits left over do not matter. -/
def groupBytes? : Text → Option Text
  | [] => some []
  | [a, b, 61, 61] => (threeBytes? a b 65 65).map (·.take 1)
  | [a, b, c, 61] => (threeBytes? a b c 65).map (·.take 2)
  | a :: b :: c :: d :: rest => do return (← threeBytes? a b c d) ++ (← groupBytes? rest)
  | _ => none

/-- The bytes that a text spells in base 64. -/
def ofBase64? (s : Text) : Option Text := groupBytes? (s.filter fun b => b ≠ 10 ∧ b ≠ 13)

end Text
end ImportBlock
