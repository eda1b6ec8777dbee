import ImportBlock.Text.Printable
import ImportBlock.Text.Utf8

/-! # Quoted texts

    Texts are shown in double quotes where their ends or their bytes matter:
    printable characters stand for themselves, all others are escaped. -/

namespace ImportBlock
namespace Text

/-- The lower-case hexadecimal digit of a number below 16. -/
def hexDigit (n : Nat) : UInt8 := if n < 10 then (48 + n).toUInt8 else (87 + n).toUInt8

/-- The last `width` hexadecimal digits of a number. -/
def hex (width n : Nat) : Text :=
  match width with
  | 0 => []
  | w + 1 => hex w (n / 16) ++ [hexDigit (n % 16)]

/-- The letter of the short escape of a control character. -/
def shortEscape? : Nat → Option UInt8
  | 7 => some 97
  | 8 => some 98
  | 12 => some 102
  | 10 => some 110
  | 13 => some 114
  | 9 => some 116
  | 11 => some 118
  | _ => none

/-- The escape of a code point that is not printable; below `byteLimit` it is
    written with two digits. -/
def escape (byteLimit code : Nat) : Text :=
  match shortEscape? code with
  | some letter => [92, letter]
  | none =>
      if code < byteLimit then text "\\x" ++ hex 2 code
      else if code < 0x10000 then text "\\u" ++ hex 4 code
      else text "\\U" ++ hex 8 code

/-- A piece inside double quotes. -/
def quotePiece : Piece → Text
  | .stray b => text "\\x" ++ hex 2 b.toNat
  | .char bytes =>
      let code := codePoint bytes
      if code = 34 ∨ code = 92 then 92 :: bytes
      else if isPrintable code then bytes
      else escape 0x80 code

/-- The text in double quotes, so that it can be read back without loss. -/
def quoted (s : Text) : Text := 34 :: (pieces s).flatMap quotePiece ++ [34]

end Text
end ImportBlock
