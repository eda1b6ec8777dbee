import ImportBlock.Text.Basic

/-! # Characters of a text

    A text is read as UTF-8 characters; a byte that starts no well-formed character
    is a stray piece of its own, so the pieces always make up the text. -/

namespace ImportBlock
namespace Text

/-- Is the byte a continuation byte in the given range? -/
def isTail (low high b : UInt8) : Bool := low ≤ b && b ≤ high

/-- The number of continuation bytes of the well-formed character at the front of a
    text, if there is one. -/
def tailLength? : Text → Option Nat
  | [] => none
  | a :: s =>
      if a < 0x80 then some 0
      else if a < 0xC2 then none
      else if a < 0xE0 then
        match s with
        | b :: _ => if isTail 0x80 0xBF b then some 1 else none
        | _ => none
      else if a < 0xF0 then
        match s with
        | b :: c :: _ =>
            let low := if a = 0xE0 then 0xA0 else 0x80
            let high := if a = 0xED then 0x9F else 0xBF
            if isTail low high b && isTail 0x80 0xBF c then some 2 else none
        | _ => none
      else if a < 0xF5 then
        match s with
        | b :: c :: d :: _ =>
            let low := if a = 0xF0 then 0x90 else 0x80
            let high := if a = 0xF4 then 0x8F else 0xBF
            if isTail low high b && isTail 0x80 0xBF c && isTail 0x80 0xBF d then some 3 else none
        | _ => none
      else none

/-- The code point of a well-formed character. -/
def codePoint : Text → Nat
  | [a] => a.toNat
  | [a, b] => a.toNat % 32 * 64 + b.toNat % 64
  | [a, b, c] => (a.toNat % 16 * 64 + b.toNat % 64) * 64 + c.toNat % 64
  | [a, b, c, d] =>
      ((a.toNat % 8 * 64 + b.toNat % 64) * 64 + c.toNat % 64) * 64 + d.toNat % 64
  | _ => 0

/-- A piece of a text: a character, or a byte that starts none. -/
inductive Piece where
  | char (bytes : Text)
  | stray (b : UInt8)
  deriving DecidableEq, Repr

/-- The pieces of a text; `skip` bytes of the front are part of the piece before. -/
def piecesFrom : Nat → Text → List Piece
  | _, [] => []
  | skip + 1, _ :: s => piecesFrom skip s
  | 0, b :: s =>
      match tailLength? (b :: s) with
      | some n => .char (b :: s.take n) :: piecesFrom n s
      | none => .stray b :: piecesFrom 0 s

/-- The pieces of a text. -/
def pieces (s : Text) : List Piece := piecesFrom 0 s

/-- Is the text well-formed UTF-8? -/
def isWellFormed (s : Text) : Bool := (pieces s).all fun
  | .char _ => true
  | .stray _ => false

/-- The UTF-8 encoding of a code point. -/
def ofCodePoint (n : Nat) : Text :=
  if n < 0x80 then [n.toUInt8]
  else if n < 0x800 then [(0xC0 + n / 64).toUInt8, (0x80 + n % 64).toUInt8]
  else if n < 0x10000 then
    [(0xE0 + n / 4096).toUInt8, (0x80 + n / 64 % 64).toUInt8, (0x80 + n % 64).toUInt8]
  else
    [(0xF0 + n / 262144).toUInt8, (0x80 + n / 4096 % 64).toUInt8, (0x80 + n / 64 % 64).toUInt8,
     (0x80 + n % 64).toUInt8]

/-- The character that stands in for a byte that starts none, U+FFFD. -/
def replacement : Text := [0xEF, 0xBF, 0xBD]

/-- The text with the replacement character for each byte that starts no character. -/
def repair (s : Text) : Text :=
  (pieces s).flatMap fun
    | .char bytes => bytes
    | .stray _ => replacement

/-- The text in lower case as far as the lower case is ASCII; the letters outside
    ASCII with that property are U+0130 and U+212A. -/
def lower : Text → Text
  | 0xC4 :: 0xB0 :: s => 0x69 :: lower s
  | 0xE2 :: 0x84 :: 0xAA :: s => 0x6B :: lower s
  | b :: s => (if 65 ≤ b && b ≤ 90 then b + 32 else b) :: lower s
  | [] => []

/-- The text with the small letters of ASCII as capitals. -/
def upper (s : Text) : Text := s.map fun b => if 97 ≤ b && b ≤ 122 then b - 32 else b

end Text
end ImportBlock
