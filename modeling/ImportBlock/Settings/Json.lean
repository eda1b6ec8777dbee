import ImportBlock.Settings.Value
import ImportBlock.Text.Utf8

/-! # JSON documents

    A strict reader of JSON.  All numbers are floating-point; of two entries with
    one key the later counts. -/

namespace ImportBlock
namespace Json

open Text

/-- White space between tokens. -/
def isGap (b : UInt8) : Bool := b == 32 || b == 9 || b == 10 || b == 13

/-- Takes a word off the front. -/
def dropWord? (word s : Text) : Option Text :=
  if word.isPrefixOf s then some (s.drop word.length) else none

/-- The code unit that four hexadecimal digits stand for. -/
def readUnit? (s : Text) : Option (Nat × Text) :=
  if 4 ≤ s.length then (Text.readHex? (s.take 4)).map fun n => (n, s.drop 4) else none

/-- The character that a one-letter escape stands for. -/
def escapeValue? : UInt8 → Option UInt8
  | 34 => some 34
  | 92 => some 92
  | 47 => some 47
  | 98 => some 8
  | 102 => some 12
  | 110 => some 10
  | 114 => some 13
  | 116 => some 9
  | _ => none

/-- The character after `\u`: two code units where they make up one character, the
    replacement character where a lone one makes up none. -/
def readUnicode? (s : Text) : Option (Text × Text) := do
  let (high, rest) ← readUnit? s
  if 0xD800 ≤ high ∧ high < 0xDC00 then
    let pair := do
      let r ← dropWord? (text "\\u") rest
      let (low, r) ← readUnit? r
      if 0xDC00 ≤ low ∧ low < 0xE000 then
        some (ofCodePoint (0x10000 + (high - 0xD800) * 1024 + (low - 0xDC00)), r)
      else none
    return pair.getD (replacement, rest)
  else if 0xDC00 ≤ high ∧ high < 0xE000 then return (replacement, rest)
  else return (ofCodePoint high, rest)

/-- A string after its first quote, and what follows it; `before` holds the bytes so
    far, the last one first. -/
def readString? : Nat → Text → Text → Option (Text × Text)
  | 0, _, _ => none
  | _, _, [] => none
  | _, before, 34 :: s => some (before.reverse, s)
  | n + 1, before, 92 :: 117 :: s => do
      let (t, rest) ← readUnicode? s
      readString? n (t.reverse ++ before) rest
  | n + 1, before, 92 :: b :: s => do
      let c ← escapeValue? b
      readString? n (c :: before) s
  | n + 1, before, b :: s => if b < 32 ∨ b = 92 then none else readString? n (b :: before) s

/-- The bytes of a number. -/
def isNumberByte (b : UInt8) : Bool :=
  Text.isDigit b || b == 43 || b == 45 || b == 46 || b == 101 || b == 69

/-- Are the digits before the point spelled without a needless zero, and is there a
    digit after the point? -/
def isNumberSpelling (s : Text) : Bool :=
  let s := if s.head? = some 45 then s.tail else s
  let whole := s.takeWhile Text.isDigit
  let rest := s.dropWhile Text.isDigit
  whole != [] && (whole.head? != some 48 || whole.length == 1)
    && match rest with
      | 46 :: r => r.head?.any Text.isDigit
      | _ => true

/-- A number and what follows it. -/
def readNumber? (s : Text) : Option (Value × Text) := do
  let spelled := s.takeWhile isNumberByte
  if !isNumberSpelling spelled then none
  let n ← Number.ofText? spelled
  return (.number n, s.dropWhile isNumberByte)

/-- Puts an entry in place of an earlier one with its key. -/
def put (es : List (Text × Value)) (key : Text) (v : Value) : List (Text × Value) :=
  es.filter (fun e => e.1 != key) ++ [(key, v)]

/-- How deep lists and mappings may be nested. -/
def deepest : Nat := 10000

mutual

/-- A value and what follows it; `room` tells how much deeper it may be nested. -/
def readValue? : Nat → Nat → Text → Option (Value × Text)
  | 0, _, _ => none
  | n + 1, room, s =>
      match s.dropWhile isGap with
      | 123 :: r =>
          if room = 0 then none
          else match r.dropWhile isGap with
            | 125 :: rest => some (.map [], rest)
            | r => readEntries? n (room - 1) [] r
      | 91 :: r =>
          if room = 0 then none
          else match r.dropWhile isGap with
            | 93 :: rest => some (.list [], rest)
            | r => readItems? n (room - 1) [] r
      | 34 :: r => (readString? (r.length + 1) [] r).map fun (t, rest) => (.text (repair t), rest)
      | r =>
          match dropWord? (text "null") r, dropWord? (text "true") r,
              dropWord? (text "false") r with
          | some rest, _, _ => some (.null, rest)
          | _, some rest, _ => some (.bool true, rest)
          | _, _, some rest => some (.bool false, rest)
          | none, none, none => readNumber? r

/-- The items of a list up to its closing bracket; `before` holds those so far, the
    last one first. -/
def readItems? : Nat → Nat → List Value → Text → Option (Value × Text)
  | 0, _, _, _ => none
  | n + 1, room, before, s => do
      let (item, rest) ← readValue? n room s
      match rest.dropWhile isGap with
      | 44 :: rest => readItems? n room (item :: before) rest
      | 93 :: rest => some (.list (item :: before).reverse, rest)
      | _ => none

/-- The entries of a mapping up to its closing brace. -/
def readEntries? : Nat → Nat → List (Text × Value) → Text → Option (Value × Text)
  | 0, _, _, _ => none
  | n + 1, room, entries, s => do
      let (key, rest) ← match s.dropWhile isGap with
        | 34 :: r => readString? (r.length + 1) [] r
        | _ => none
      match rest.dropWhile isGap with
      | 58 :: rest =>
          let (value, rest) ← readValue? n room rest
          let entries := put entries (repair key) value
          match rest.dropWhile isGap with
          | 44 :: rest => readEntries? n room entries rest
          | 125 :: rest => some (.map entries, rest)
          | _ => none
      | _ => none

end

/-- Reads the mapping that a document holds; null is an empty mapping. -/
def read? (src : Text) : Option (List (Text × Value)) :=
  match readValue? (2 * src.length + 4) deepest src with
  | some (v, rest) =>
      if rest.all isGap then
        match v with
        | .map entries => some entries
        | .null => some []
        | _ => none
      else none
  | none => none

end Json
end ImportBlock
