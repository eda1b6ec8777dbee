import ImportBlock.Settings.Number
import ImportBlock.Text.Literal

/-! # Values of a settings file

    A settings file holds a mapping from keys to values: switches, numbers, texts,
    lists and further mappings.  A value is converted to the kind that a setting
    needs where that makes sense. -/

namespace ImportBlock

/-- A value of a settings file. -/
inductive Value where
  | null
  | bool (b : Bool)
  | int (n : Int)
  | number (n : Number)
  | text (t : Text)
  /-- A date, perhaps with a time of day; no setting takes one. -/
  | date
  | list (items : List Value)
  | map (entries : List (Text × Value))
  deriving Repr

namespace Value

/-- The value as a switch. -/
def toBool? : Value → Option Bool
  | .null => some false
  | .bool b => some b
  | .int n => some (n ≠ 0)
  | .number n => some (!n.isZero)
  | .text t => if t = [] then some false else Text.readBool? t
  | _ => none

/-- The value as an integer. -/
def toInt? : Value → Option Int
  | .null => some 0
  | .bool b => some (if b then 1 else 0)
  | .int n => some (if n < Int.pow 2 63 then n else n - Int.pow 2 64)
  | .number n => some n.toInt
  | .text t => if t = [] then some 0 else (Text.readInt t).toOption
  | _ => none

/-- The value as a text. -/
def toText? : Value → Option Text
  | .null => some []
  | .bool b => some (if b then ImportBlock.text "1" else ImportBlock.text "0")
  | .int n => some (Text.ofInt n)
  | .number n => some n.render
  | .text t => some t
  | _ => none

/-- The value as a list of texts: a text is split at commas, any other single value
    is a list of one. -/
def toTexts? : Value → Option (List Text)
  | .null => some []
  | .text t => some (if t = [] then [] else Text.split Text.comma t)
  | .list items => items.mapM toText?
  | .map [] => some []
  | v => (toText? v).map fun t => [t]

/-- The entries of a mapping, none for another value. -/
def entries : Value → List (Text × Value)
  | .map es => es
  | _ => []

/-- The value of a key. -/
def lookup (es : List (Text × Value)) (key : Text) : Option Value :=
  (es.find? fun e => e.1 == key).map Prod.snd

/-- The value of a key, null counting as absent. -/
def lookupSome (es : List (Text × Value)) (key : Text) : Option Value :=
  match lookup es key with
  | some .null => none
  | v => v

end Value

end ImportBlock
