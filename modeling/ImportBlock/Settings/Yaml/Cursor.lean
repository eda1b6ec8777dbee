import ImportBlock.Settings.Yaml.Source

/-! # Places in a document

    A cursor is a place in a document: what comes next, and on which line and column it
    stands.  Everything that reads characters moves a cursor and fails where the
    document breaks the rules. -/

namespace ImportBlock
namespace Yaml

/-- A place in a document. -/
structure Cursor where
  /-- The characters from here on. -/
  rest : List Char
  /-- Does the document end after them?  If not, something malformed follows. -/
  sound : Bool := true
  /-- Does the text being looked at start with a byte order mark? -/
  marked : Bool := false
  /-- The number of characters of the document. -/
  size : Nat := rest.length
  /-- The number of characters before this place. -/
  index : Nat := 0
  line : Nat := 0
  column : Nat := 0
  /-- The number of line breaks since the last character that is no blank. -/
  breaks : Nat := 0
  deriving Repr

namespace Cursor

/-- The start of a document. -/
def ofSource (s : Source) : Cursor :=
  { rest := s.chars, sound := s.sound, marked := s.chars.head? == some byteOrderMark }

/-- A bound on the number of steps that can still be made. -/
def left (c : Cursor) : Nat := c.size - c.index + 2

/-- The next character. -/
def head? (c : Cursor) : Option Char := c.rest.head?

/-- The next character but one. -/
def second? (c : Cursor) : Option Char := c.rest.tail.head?

/-- Is the next character the given one? -/
def isAt (ch : Char) (c : Cursor) : Bool := c.head? == some ch

/-- Looks so many characters ahead.  Fewer are fine at the end of a sound document. -/
def look (n : Nat) (c : Cursor) : Option Cursor :=
  if (c.rest.drop (n - 1)).isEmpty then if c.sound then some { c with marked := false } else none
  else some c

/-- Moves over a character that is no line break. -/
def skip (c : Cursor) : Cursor :=
  match c.rest with
  | [] => c
  | ch :: rest =>
      { c with
        rest, index := c.index + 1, column := c.column + 1
        breaks := if isBlank ch then c.breaks else 0 }

/-- Moves over so many characters that are no line breaks. -/
def advance : Nat → Cursor → Cursor
  | 0, c => c
  | n + 1, c => advance n c.skip

/-- Moves over a line break; a carriage return with its line feed is one. -/
def skipBreak (c : Cursor) : Cursor :=
  let (size, rest) := match c.rest with
    | '\r' :: '\n' :: rest => (2, rest)
    | _ :: rest => (1, rest)
    | [] => (0, [])
  { c with rest, index := c.index + size, column := 0, line := c.line + 1, breaks := c.breaks + 1 }

/-- The character that a line break stands for: a line feed, or itself if it separates
    lines or paragraphs. -/
def breakChar (ch : Char) : Char := if ch == '\u2028' || ch == '\u2029' then ch else '\n'

/-- Moves over blanks. -/
def skipBlanks (c : Cursor) : Cursor := c.advance (c.rest.takeWhile isBlank).length

/-- Moves to the end of the line. -/
def toLineEnd (c : Cursor) : Cursor := c.advance (c.rest.takeWhile (!isBreak ·)).length

/-- Does the line start here with the given mark? -/
def isAtMark (mark : String) (c : Cursor) : Bool :=
  c.column == 0 && mark.toList.isPrefixOf c.rest && endsWord (c.rest.drop mark.length).head?

/-- The mark that starts a document. -/
def startMark : String := "---"

/-- The mark that ends a document. -/
def endMark : String := "..."

/-- Does the line start here with a mark of the start or the end of a document? -/
def isAtDocumentMark (c : Cursor) : Bool := c.isAtMark startMark || c.isAtMark endMark

/-! ## Comments and white space -/

/-- How far a comment is looked for. -/
def commentReach : Nat := 512

/-- Moves over a comment that follows on the same line. -/
def skipLineComment (c : Cursor) : Option Cursor := do
  if 0 < c.breaks then return c
  let blanks := (c.rest.takeWhile isBlank).length
  if commentReach ≤ blanks then return c
  let c ← c.look (blanks + 1)
  if (c.rest.drop blanks).head? = some '#' then c.toLineEnd.look 1 else return c

/-- Moves over blanks and line breaks. -/
def skipGap : Nat → Cursor → Cursor
  | 0, c => c
  | n + 1, c =>
      match c.head? with
      | some ch =>
          if isBreak ch then skipGap n c.skipBreak else if isBlank ch then skipGap n c.skip else c
      | none => c

/-- Moves from the start of a comment to its end and to the end of the comments on the
    lines below it.  Between comments there may be any blanks. -/
def skipCommentsFrom : Nat → Cursor → Option Cursor
  | 0, c => some c
  | n + 1, c => do
      let c ← c.toLineEnd.look 1
      let gap := (c.rest.takeWhile fun ch => isBlank ch || ch == '\n' || ch == '\r').length
      if commentReach ≤ gap then return c
      let c ← c.look (gap + 1)
      if (c.rest.drop gap).head? = some '#' then skipCommentsFrom n (c.skipGap gap) else return c

/-- Moves from the start of a comment behind it and the comments that follow it. -/
def skipComments (c : Cursor) : Option Cursor := skipCommentsFrom c.left c

/-- Moves to the next character that is no white space and in no comment.  `flow` tells
    whether a flow collection is open, `fresh` whether a key may start here.  Outside of
    flow collections a key may start after a line break, and a tab must not stand where
    a key may start. -/
def skipToTokenFrom (flow : Bool) : Nat → Bool → Cursor → Option (Bool × Cursor)
  | 0, _, _ => none
  | n + 1, fresh, c => do
      let c ← c.look 1
      let c ← (if c.column == 0 && c.marked then c.skip else c).look 1
      let isSkipped (ch : Char) : Bool := ch == ' ' || (ch == '\t' && (flow || !fresh))
      let c ← (c.advance (c.rest.takeWhile isSkipped).length).look 1
      let c ← if c.isAt '#' then c.skipComments else some c
      match c.head? with
      | some ch =>
          if isBreak ch then do
            let c ← c.look 2
            skipToTokenFrom flow n (fresh || !flow) c.skipBreak
          else return (fresh, c)
      | none => return (fresh, c)

/-- Moves to the next token; tells also whether a key may start there. -/
def skipToToken (flow fresh : Bool) (c : Cursor) : Option (Bool × Cursor) :=
  skipToTokenFrom flow c.left fresh c

end Cursor

end Yaml
end ImportBlock
