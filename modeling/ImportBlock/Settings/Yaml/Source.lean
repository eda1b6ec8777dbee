import ImportBlock.Text.Utf8

/-! # The characters of a document

    A document is written in UTF-8, or in UTF-16 with a byte order mark in front.  Its
    bytes are decoded in blocks, each of them when it is needed, so a malformed
    character only matters to whoever reads on to the block that holds it. -/

namespace ImportBlock
namespace Yaml

/-! ## Classes of characters -/

/-- A space or a tab. -/
def isBlank (c : Char) : Bool := c == ' ' || c == '\t'

/-- The characters that end a line. -/
def isBreak (c : Char) : Bool :=
  c == '\n' || c == '\r' || c == '\u0085' || c == '\u2028' || c == '\u2029'

/-- Does a word end before this character, or at the end of the text? -/
def endsWord (c : Option Char) : Bool := c.all fun c => isBlank c || isBreak c

/-- Does a line end before this character, or at the end of the text? -/
def endsLine (c : Option Char) : Bool := c.all isBreak

/-- The characters of names. -/
def isNameChar (c : Char) : Bool := c.isAlphanum || c == '_' || c == '-'

/-- The byte order mark. -/
def byteOrderMark : Char := '\uFEFF'

/-- Is the character allowed in a document? -/
def isAllowed (c : Char) : Bool :=
  let n := c.toNat
  n == 9 || n == 10 || n == 13 || (0x20 ≤ n && n ≤ 0x7E) || n == 0x85
    || (0xA0 ≤ n && n ≤ 0xFFFD) || 0x10000 ≤ n

/-! ## Decoding -/

/-- What stands at the front of some bytes. -/
inductive Lead where
  /-- A character of so many bytes. -/
  | char (c : Char) (size : Nat)
  /-- The bytes end inside a character. -/
  | cut
  | malformed
  deriving DecidableEq, Repr

/-- The number of bytes that the first byte of a UTF-8 character announces, 0 if it
    starts none. -/
def announcedSize (b : UInt8) : Nat :=
  if b < 0x80 then 1
  else if b < 0xC0 then 0
  else if b < 0xE0 then 2
  else if b < 0xF0 then 3
  else if b < 0xF8 then 4
  else 0

/-- The UTF-8 character at the front. -/
def utf8Lead (s : Text) : Lead :=
  match s with
  | [] => .cut
  | b :: _ =>
      let size := announcedSize b
      if size = 0 then .malformed
      else if (s.take size).length < size then .cut
      else match Text.tailLength? s with
        | some n => .char (Char.ofNat (Text.codePoint (s.take (n + 1)))) (n + 1)
        | none => .malformed

/-- The UTF-16 character at the front; `big` tells whether the high byte of a unit
    comes first. -/
def utf16Lead (big : Bool) (s : Text) : Lead :=
  let unit (a b : UInt8) : Nat := if big then a.toNat * 256 + b.toNat else b.toNat * 256 + a.toNat
  match s with
  | a :: b :: rest =>
      let high := unit a b
      if 0xDC00 ≤ high ∧ high < 0xE000 then .malformed
      else if 0xD800 ≤ high ∧ high < 0xDC00 then
        match rest with
        | c :: d :: _ =>
            let low := unit c d
            if 0xDC00 ≤ low ∧ low < 0xE000 then
              .char (Char.ofNat (0x10000 + (high - 0xD800) * 1024 + (low - 0xDC00))) 4
            else .malformed
        | _ => .cut
      else .char (Char.ofNat high) 2
  | _ => .cut

/-- The characters of a block and the bytes of a cut one at its end; `skip` bytes of
    the front belong to the character before. -/
def decodeBlock (lead : Text → Lead) : Nat → Text → Option (List Char × Text)
  | _, [] => some ([], [])
  | skip + 1, _ :: s => decodeBlock lead skip s
  | 0, b :: s =>
      match lead (b :: s) with
      | .malformed => none
      | .cut => some ([], b :: s)
      | .char c size =>
          if isAllowed c then (decodeBlock lead (size - 1) s).map fun (cs, cut) => (c :: cs, cut)
          else none

/-- The characters that can be read. -/
structure Source where
  chars : List Char
  /-- Does the text end after the characters?  If not, a block follows that holds
      something malformed. -/
  sound : Bool
  deriving DecidableEq, Repr

/-- The number of bytes in a block. -/
def blockSize : Nat := 512

/-- Decodes block after block; `cut` is what the block before left over. -/
def decodeBlocks (lead : Text → Lead) : Nat → Nat → Text → Text → Source
  | 0, _, _, _ => ⟨[], true⟩
  | n + 1, skip, cut, s =>
      let room := blockSize - cut.length
      match decodeBlock lead skip (cut ++ s.take room) with
      | none => ⟨[], false⟩
      | some (cs, cut) =>
          let later := s.drop room
          if later = [] then ⟨cs, cut.isEmpty⟩
          else
            let more := decodeBlocks lead n 0 cut later
            ⟨cs ++ more.chars, more.sound⟩

/-- The characters of a text.  A byte order mark at its front tells the encoding and is
    no character of the text. -/
def Source.ofText (s : Text) : Source :=
  let decode (lead : Text → Lead) (mark : Nat) : Source := decodeBlocks lead (s.length + 1) mark [] s
  match s with
  | 0xFF :: 0xFE :: _ => decode (utf16Lead false) 2
  | 0xFE :: 0xFF :: _ => decode (utf16Lead true) 2
  | 0xEF :: 0xBB :: 0xBF :: _ => decode utf8Lead 3
  | _ => decode utf8Lead 0

end Yaml
end ImportBlock
