import ImportBlock.Text.Basic

/-! # Literals

    How switches and integers are spelled: in settings, in the environment and on the
    command line.  An integer may have a sign, a base mark (`0x`, `0o`, `0b`, or a
    leading `0` for octal) and single underscores between its digits. -/

namespace ImportBlock
namespace Text

/-- The spellings of a switch. -/
def readBool? (s : Text) : Option Bool :=
  if s ∈ [text "1", text "t", text "T", text "TRUE", text "true", text "True"] then some true
  else if s ∈ [text "0", text "f", text "F", text "FALSE", text "false", text "False"] then
    some false
  else none

/-- Why a text is not an integer. -/
inductive IntegerFault where
  | malformed
  | outOfRange
  deriving DecidableEq, Repr

/-- The value of a digit or letter, ten and more for letters. -/
def digitValue? (b : UInt8) : Option Nat :=
  if 48 ≤ b && b ≤ 57 then some (b.toNat - 48)
  else if 97 ≤ b && b ≤ 122 then some (b.toNat - 87)
  else if 65 ≤ b && b ≤ 90 then some (b.toNat - 55)
  else none

/-- Hexadecimal digits as a number. -/
def readHex? (s : Text) : Option Nat :=
  s.foldl (fun n b => do
    let n ← n
    let d ← digitValue? b
    if d < 16 then some (n * 16 + d) else none) (some 0)

/-- Reads digits into a number below `2 ^ 64`, passing over underscores. -/
def readDigits (base : Nat) : Nat → Text → Except IntegerFault Nat
  | n, [] => .ok n
  | n, b :: s =>
      if b = 95 then readDigits base n s
      else match digitValue? b with
        | none => .error .malformed
        | some d =>
            if base ≤ d then .error .malformed
            else if Nat.pow 2 64 ≤ n * base + d then .error .outOfRange
            else readDigits base (n * base + d) s

/-- The base that a mark at the front stands for, and the digits after it. -/
def cutBase : Text → Nat × Text
  | 48 :: m :: d :: s =>
      if m = 98 ∨ m = 66 then (2, d :: s)
      else if m = 111 ∨ m = 79 then (8, d :: s)
      else if m = 120 ∨ m = 88 then (16, d :: s)
      else (8, m :: d :: s)
  | 48 :: s => (8, s)
  | s => (10, s)

/-- Does each underscore stand between two digits, where a base mark counts as one?
    `digit` and `under` tell what was just passed. -/
def underscoresFit (digit under : Bool) : Text → Bool
  | [] => !under
  | b :: s =>
      if b = 95 then digit && underscoresFit false true s
      else underscoresFit true false s

/-- The sign of a number and what follows it. -/
def cutSign : Text → Bool × Text
  | 45 :: s => (true, s)
  | 43 :: s => (false, s)
  | s => (false, s)

/-- Reads digits with a base mark into a number below `2 ^ 64`. -/
def readNat (s : Text) : Except IntegerFault Nat := do
  if s = [] then throw .malformed
  let (base, digits) := cutBase s
  let n ← readDigits base 0 digits
  let marked := digits.length + 2 == s.length
  if !underscoresFit marked false (if marked then digits else s) then throw .malformed
  return n

/-- Reads an integer of 64 bits. -/
def readInt (s : Text) : Except IntegerFault Int := do
  let (negative, digits) := cutSign s
  let n ← readNat digits
  if negative then
    if Nat.pow 2 63 < n then throw .outOfRange else return -(n : Int)
  else if Nat.pow 2 63 ≤ n then throw .outOfRange
  else return n

/-- Reads the digits of an integer of 64 bits in the given base, with a sign in front. -/
def readSigned? (base : Nat) (s : Text) : Option Int :=
  let (negative, digits) := cutSign s
  if digits = [] then none
  else match readDigits base 0 digits with
    | .error _ => none
    | .ok n =>
        if n < Nat.pow 2 63 ∨ (negative ∧ n = Nat.pow 2 63) then
          some (if negative then -n else n)
        else none

/-- Reads the digits of a number below `2 ^ 64` in the given base. -/
def readUnsigned? (base : Nat) (digits : Text) : Option Nat :=
  if digits = [] then none else (readDigits base 0 digits).toOption

/-- A decimal digit. -/
def isDigit (b : UInt8) : Bool := 48 ≤ b && b ≤ 57

/-- Decimal digits as a number. -/
def digitsValue (s : Text) : Nat := s.foldl (fun n b => n * 10 + (b.toNat - 48)) 0

end Text
end ImportBlock
