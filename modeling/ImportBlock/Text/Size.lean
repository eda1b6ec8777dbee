import ImportBlock.Text.Basic

/-! # Sizes for readers

    A number of bytes is written with a unit that goes up in steps of a thousand:
    with one decimal below ten units, rounded to whole units above. -/

namespace ImportBlock
namespace Text

/-- The units of size, each a thousand times the one before. -/
def sizeUnits : List String := ["B", "kB", "MB", "GB", "TB", "PB", "EB"]

/-- The largest power of a thousand that is not above `n`, as an exponent. -/
def thousands (n : Nat) : Nat :=
  if h : n < 1000 then 0 else thousands (n / 1000) + 1
termination_by n
decreasing_by omega

/-- Tenths to whole numbers; a half goes to the even neighbour. -/
def roundTenths (k : Nat) : Nat :=
  let whole := k / 10
  let rest := k % 10
  if 5 < rest ∨ (rest = 5 ∧ whole % 2 = 1) then whole + 1 else whole

/-- A number of bytes for a reader. -/
def ofSize (n : Nat) : Text :=
  if n < 10 then ofNat n ++ text " B"
  else
    let e := thousands n
    let unit := text " " ++ text (sizeUnits.getD e "")
    let tenths := (n * 20 + Nat.pow 1000 e) / (2 * Nat.pow 1000 e)
    if tenths < 100 then ofNat (tenths / 10) ++ text "." ++ ofNat (tenths % 10) ++ unit
    else ofNat (roundTenths tenths) ++ unit

end Text
end ImportBlock
