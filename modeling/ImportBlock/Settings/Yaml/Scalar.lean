import ImportBlock.Settings.Value

/-! # What plain scalars mean

    A plain scalar is a switch, a number, a date or null if it is spelled like one,
    else a text. -/

namespace ImportBlock
namespace Yaml

open Text

/-- The words that mean a value other than a text. -/
def wordValue? (s : Text) : Option Value :=
  if s ∈ [[], text "~", text "null", text "Null", text "NULL"] then some .null
  else if s ∈ [text "true", text "True", text "TRUE"] then some (.bool true)
  else if s ∈ [text "false", text "False", text "FALSE"] then some (.bool false)
  else if s ∈ [text ".nan", text ".NaN", text ".NAN"] then some (.number .undefined)
  else if s ∈ [text ".inf", text ".Inf", text ".INF", text "+.inf", text "+.Inf", text "+.INF"] then
    some (.number (.infinite false))
  else if s ∈ [text "-.inf", text "-.Inf", text "-.INF"] then some (.number (.infinite true))
  else none

/-! ## Dates -/

/-- The number of days of a month. -/
def monthDays (year month : Nat) : Nat :=
  if month = 2 then
    if year % 4 = 0 ∧ (year % 100 ≠ 0 ∨ year % 400 = 0) then 29 else 28
  else if month ∈ [4, 6, 9, 11] then 30 else 31

/-- One or two digits and what follows them. -/
def cutShort? (s : Text) : Option (Nat × Text) :=
  let ds := (s.take 2).takeWhile isDigit
  if ds = [] then none else some (digitsValue ds, s.drop ds.length)

/-- What follows a byte at the front. -/
def cutByte? (b : UInt8) (s : Text) : Option Text := if s.head? = some b then some s.tail else none

/-- What follows a fraction of a second, a point or comma with digits, if there is one. -/
def skipFraction (s : Text) : Text :=
  match s with
  | mark :: d :: r => if (mark == 46 || mark == 44) && isDigit d then r.dropWhile isDigit else s
  | _ => s

/-- Reads hours, minutes, seconds and a fraction of a second. -/
def cutTime? (s : Text) : Option Text := do
  let (hour, s) ← cutShort? s
  let (minute, s) ← cutShort? (← cutByte? 58 s)
  let (second, s) ← cutShort? (← cutByte? 58 s)
  if hour < 24 ∧ minute < 60 ∧ second < 60 then return skipFraction s else none

/-- Is the text a time zone: `Z`, or hours and minutes with a sign? -/
def isZone (s : Text) : Bool :=
  match s with
  | [90] => true
  | [sign, h₁, h₂, 58, m₁, m₂] =>
      (sign == 43 || sign == 45) && [h₁, h₂, m₁, m₂].all isDigit
        && digitsValue [h₁, h₂] ≤ 24 && digitsValue [m₁, m₂] ≤ 60
  | _ => false

/-- Reads a year of four digits, a month and a day. -/
def cutDay? (s : Text) : Option Text := do
  let year := s.take 4
  if year.length < 4 || !year.all isDigit then none
  let (month, s) ← cutShort? (← cutByte? 45 (s.drop 4))
  let (day, s) ← cutShort? (← cutByte? 45 s)
  if 1 ≤ month ∧ month ≤ 12 ∧ 1 ≤ day ∧ day ≤ monthDays (digitsValue year) month then return s
  else none

/-- Is the text a date, perhaps with a time of day?  A time after a `T` has a zone, one
    after spaces has none. -/
def isDate (s : Text) : Bool :=
  match cutDay? s with
  | none => false
  | some [] => true
  | some (b :: s) =>
      if b = 84 ∨ b = 116 then (cutTime? s).any isZone
      else b = 32 && (cutTime? (s.dropWhile (· == 32))).any (·.isEmpty)

/-! ## Numbers -/

/-- A scalar with a mark of base two or eight behind its sign.  Behind the mark there
    may be another sign. -/
def markedValue? (s : Text) : Option Value :=
  let read (base : Nat) (digits : Text) : Option Value :=
    match readSigned? base digits, readUnsigned? base digits with
    | some n, _ => some (.int n)
    | none, some n => some (.int n)
    | none, none => none
  match s with
  | 48 :: 98 :: digits => read 2 digits
  | 48 :: 111 :: digits => read 8 digits
  | 45 :: 48 :: 98 :: digits => (readSigned? 2 (45 :: digits)).map .int
  | 45 :: 48 :: 111 :: digits => (readSigned? 8 (45 :: digits)).map .int
  | _ => none

/-- A scalar that is spelled like a number.  Underscores are left out. -/
def numberValue? (s : Text) : Option Value :=
  let bare := s.filter (· ≠ 95)
  match readInt bare, readNat bare, Number.ofText? bare with
  | .ok n, _, _ => some (.int n)
  | .error _, .ok n, _ => some (.int n)
  | .error _, .error _, some n => some (.number n)
  | .error _, .error _, none => markedValue? bare

/-- Does each underscore stand between two digits?  `digit` and `under` tell what was
    just passed. -/
def underscoresSeparate (digit under : Bool) : Text → Bool
  | [] => !under
  | b :: s =>
      if b = 95 then digit && underscoresSeparate false true s
      else if isDigit b then underscoresSeparate true false s
      else !under && underscoresSeparate false false s

/-- A scalar that starts with a point and is spelled like a number.  Underscores may
    separate digits. -/
def pointValue? (s : Text) : Option Value :=
  if underscoresSeparate false false s then (Number.ofText? (s.filter (· ≠ 95))).map .number
  else none

/-- The value of a plain scalar. -/
def plainValue (s : Text) : Value :=
  match wordValue? s with
  | some v => v
  | none =>
      match s with
      | [] => .null
      | b :: _ =>
          if b = dot then (pointValue? s).getD (.text s)
          else if isDigit b ∨ b = 45 ∨ b = 43 then
            if isDate s then .date else (numberValue? s).getD (.text s)
          else .text s

end Yaml
end ImportBlock
