import ImportBlock.Text.Literal

/-! # Floating-point numbers

    A number with a fraction is a binary floating-point number of 53 bits.  It is
    read from a decimal by rounding to the nearest, written back with the fewest
    digits that read back as the same number, and cut to an integer toward zero. -/

namespace ImportBlock

/-- A floating-point number: `mantissa · 2 ^ exponent`, an infinity, or no number. -/
inductive Number where
  | finite (negative : Bool) (mantissa : Nat) (exponent : Int)
  | infinite (negative : Bool)
  | undefined
  deriving DecidableEq, Repr

namespace Number

/-- The value `base ^ e` as a fraction. -/
def power (base : Nat) (e : Int) : Nat × Nat :=
  if e < 0 then (1, Nat.pow base e.natAbs) else (Nat.pow base e.natAbs, 1)

/-- A quotient rounded to the nearest integer, a half to the even one. -/
def roundDiv (num den : Nat) : Nat :=
  let whole := num / den
  let rest := 2 * (num % den)
  if den < rest ∨ (rest = den ∧ whole % 2 = 1) then whole + 1 else whole

/-- The least exponent of a floating-point number. -/
def leastExponent : Int := -1074

/-- The floating-point number nearest to a positive fraction; too large a fraction
    has none. -/
def ofFraction? (negative : Bool) (num den : Nat) : Option Number :=
  let guess : Int := (num.log2 : Int) - den.log2
  let (up, down) := power 2 guess
  let top := if num * down < den * up then guess - 1 else guess
  let e := max (top - 52) leastExponent
  let (up, down) := power 2 e
  let mantissa := roundDiv (num * down) (den * up)
  if Nat.pow 2 1024 ≤ mantissa * (power 2 e).1 then none else some (.finite negative mantissa e)

/-- The floating-point number nearest to `digits · 10 ^ exponent`; too large a
    decimal has none. -/
def ofDecimal? (negative : Bool) (digits : Nat) (exponent : Int) : Option Number :=
  let size : Int := (toString digits).length + exponent
  if digits = 0 ∨ size < -400 then some (.finite negative 0 leastExponent)
  else if 400 < size then none
  else
    let (up, down) := power 10 exponent
    ofFraction? negative (digits * up) down

/-- The exponent of a decimal: nothing, or a mark, a sign and digits. -/
def readExponent? : Text → Option Int
  | [] => some 0
  | b :: s =>
      let (negative, digits) := Text.cutSign s
      if (b = 101 ∨ b = 69) ∧ digits ≠ [] ∧ digits.all Text.isDigit then
        let n : Int := Text.digitsValue digits
        some (if negative then -n else n)
      else none

/-- Reads a decimal with a point or an exponent: `12`, `1.5`, `.5`, `1e3`. -/
def ofText? (s : Text) : Option Number := do
  let (negative, s) := Text.cutSign s
  let whole := s.takeWhile Text.isDigit
  let rest := s.dropWhile Text.isDigit
  let (fraction, rest) := match rest with
    | 46 :: r => (r.takeWhile Text.isDigit, r.dropWhile Text.isDigit)
    | r => ([], r)
  if whole = [] ∧ fraction = [] then none
  let exponent ← readExponent? rest
  ofDecimal? negative (Text.digitsValue (whole ++ fraction)) (exponent - fraction.length)

/-- Is the number zero? -/
def isZero : Number → Bool
  | .finite _ m _ => m == 0
  | _ => false

/-- The integer part; what no 64-bit integer holds becomes the least one. -/
def toInt (n : Number) : Int :=
  match n with
  | .finite negative m e =>
      let (up, down) := power 2 e
      let whole : Int := (m * up / down : Nat)
      let whole := if negative then -whole else whole
      if whole < -Int.pow 2 63 ∨ Int.pow 2 63 ≤ whole then -Int.pow 2 63 else whole
  | _ => -Int.pow 2 63

/-! ## The fewest digits -/

/-- The whole number nearest to `mid / den` that lies between `low / den` and
    `high / den`, the ends included if the interval is closed.  Only the two
    neighbours of `mid / den` can be the nearest. -/
def nearestDigits? (low mid high den : Nat) (closed : Bool) : Option Nat :=
  let within (d : Nat) : Bool :=
    let x := d * den
    if closed then low ≤ x && x ≤ high else low < x && x < high
  let below := mid / den
  let above := below + 1
  match within below, within above with
  | true, true => if 2 * (mid % den) ≤ den then some below else some above
  | true, false => some below
  | false, true => some above
  | false, false => none

/-- The number of digits before the point of a positive fraction; it is negative if
    zeros follow the point. -/
def decimalSize (num den : Nat) : Int :=
  let whole := num / den
  if whole ≠ 0 then ((toString whole).length : Int)
  else
    let scaled (k : Nat) : Nat := num * Nat.pow 10 k / den
    match (List.range 400).find? fun k => scaled (k + 1) ≠ 0 with
    | some k => -(k : Int)
    | none => 0

/-- The fewest digits, `n` or more of them, that read back as `m · 2 ^ e`, and the
    power of ten they are multiplied with.  A decimal reads back if it lies between
    the halves of the way to the neighbouring numbers; the one below is nearer where
    the mantissa is the least of its size. -/
def shortest (m : Nat) (e : Int) : Nat → Nat → Nat × Int
  | 0, _ => (0, 0)
  | tries + 1, n =>
      let (up, down) := power 2 (e - 2)
      let size := decimalSize (4 * m * up) down
      let unit := size - n
      let (tenUp, tenDown) := power 10 unit
      let den := down * tenUp
      let scale (quarters : Nat) : Nat := quarters * up * tenDown
      let lowGap := if m = Nat.pow 2 52 ∧ leastExponent < e then 1 else 2
      match nearestDigits? (scale (4 * m - lowGap)) (scale (4 * m)) (scale (4 * m + 2)) den
          (m % 2 = 0) with
      | some d => (d, unit)
      | none => shortest m e tries (n + 1)

/-- Digits times a power of ten, written without an exponent. -/
def positional (digits : Nat) (unit : Int) : Text :=
  let ds := Text.ofNat digits
  if 0 ≤ unit then ds ++ List.replicate unit.toNat 48
  else
    let places := unit.natAbs
    let ds := List.replicate (places + 1 - ds.length) 48 ++ ds
    let whole := ds.take (ds.length - places)
    let fraction := Text.dropEndWhile (· == 48) (ds.drop (ds.length - places))
    if fraction = [] then whole else whole ++ [Text.dot] ++ fraction

/-- The number without an exponent, in the fewest digits that read back. -/
def render : Number → Text
  | .finite negative m e =>
      let sign := if negative then text "-" else []
      if m = 0 then sign ++ text "0"
      else
        let (digits, unit) := shortest m e 17 1
        sign ++ positional digits unit
  | .infinite negative => if negative then text "-Inf" else text "+Inf"
  | .undefined => text "NaN"

end Number

end ImportBlock
