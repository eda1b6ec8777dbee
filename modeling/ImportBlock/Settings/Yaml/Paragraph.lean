import ImportBlock.Settings.Yaml.Cursor

/-! # Block scalars

    A block scalar is the indented text below a mark: `|` keeps its lines, `>` folds
    them.  After the mark may follow how the line breaks at the end are treated and how
    deep the text is indented. -/

namespace ImportBlock
namespace Yaml

/-- What becomes of the line breaks at the end of a block scalar. -/
inductive Chomping where
  /-- None is kept. -/
  | strip
  /-- The first is kept. -/
  | clip
  /-- All are kept. -/
  | keep
  deriving DecidableEq, Repr

/-- What the mark of a block scalar says. -/
structure BlockHeader where
  chomping : Chomping := .clip
  /-- How much deeper than the lines around it the text is, 0 if the text tells. -/
  depth : Nat := 0
  deriving DecidableEq, Repr

/-- Reads the sign that tells the treatment of the last line breaks. -/
def readChomping (h : BlockHeader) (c : Cursor) : BlockHeader × Cursor :=
  match c.head? with
  | some '+' => ({ h with chomping := .keep }, c.skip)
  | some '-' => ({ h with chomping := .strip }, c.skip)
  | _ => (h, c)

/-- Reads the digit that tells the depth; it is not 0. -/
def readDepth (h : BlockHeader) (c : Cursor) : Option (BlockHeader × Cursor) :=
  match c.head? with
  | some ch =>
      if ch == '0' then none
      else if ch.isDigit then some ({ h with depth := ch.toNat - 48 }, c.skip)
      else some (h, c)
  | none => some (h, c)

/-- Reads what follows the mark on its line: a sign and a digit in either order, then at
    most a comment. -/
def readHeader (c : Cursor) : Option (BlockHeader × Cursor) := do
  let c ← c.look 1
  let (h, c) ←
    if c.isAt '+' || c.isAt '-' then
      let (h, c) := readChomping {} c
      readDepth h c
    else do
      let (h, c) ← readDepth {} c
      pure (if h.depth = 0 then (h, c) else readChomping h c)
  let c := c.skipBlanks
  let c := if c.isAt '#' then c.toLineEnd else c
  let c ← c.look 2
  if !endsLine c.head? then none
  return (h, if c.rest.isEmpty then c else c.skipBreak)

/-- The blank lines before the next line of a block scalar. -/
structure BlankLines where
  /-- The greatest column that was reached. -/
  deepest : Nat := 0
  /-- The line breaks, as the characters they stand for. -/
  breaks : List Char := []
  deriving DecidableEq, Repr

/-- Moves over blank lines and the indentation of the next line; `indent` is the depth
    of the text, 0 if it is not known yet.  No tab may stand in the indentation. -/
def readBlankLines (indent : Nat) : Nat → BlankLines → Cursor → Option (BlankLines × Cursor)
  | 0, _, _ => none
  | n + 1, b, c => do
      let spaces := (c.rest.takeWhile (· == ' ')).length
      let c ← (c.advance (if indent = 0 then spaces else min spaces (indent - c.column))).look 1
      let b := { b with deepest := max b.deepest c.column }
      if (indent = 0 || c.column < indent) && c.isAt '\t' then none
      match c.head? with
      | some ch =>
          if isBreak ch then do
            let c ← c.look 2
            readBlankLines indent n { b with breaks := b.breaks ++ [Cursor.breakChar ch] } c.skipBreak
          else return (b, c)
      | none => return (b, c)

/-- What has been read of a block scalar. -/
structure Paragraph where
  /-- The characters so far, the last one first. -/
  before : List Char := []
  /-- The line break that ended the last line. -/
  lastBreak : List Char := []
  /-- The breaks of the blank lines after it. -/
  blanks : List Char := []
  /-- Did the last line start with a blank? -/
  indented : Bool := false
  deriving DecidableEq, Repr

/-- The characters between the last line and the next.  Folded lines are joined by a
    space, unless one of them starts with a blank. -/
def Paragraph.join (p : Paragraph) (literal indented : Bool) : List Char :=
  if !literal && !p.indented && !indented && p.lastBreak == ['\n'] then
    if p.blanks.isEmpty then [' '] else p.blanks
  else p.lastBreak ++ p.blanks

/-- Reads the lines of a block scalar of the given depth. -/
def readLines (literal : Bool) (indent : Nat) : Nat → Paragraph → Cursor → Option (Paragraph × Cursor)
  | 0, _, _ => none
  | n + 1, p, c =>
      if c.column ≠ indent || c.rest.isEmpty then some (p, c)
      else do
        let indented := c.head?.any isBlank
        let content := c.rest.takeWhile (!isBreak ·)
        let before := content.reverse ++ ((p.join literal indented).reverse ++ p.before)
        let c ← c.toLineEnd.look 2
        let (lastBreak, c) := match c.head? with
          | some ch => ([Cursor.breakChar ch], c.skipBreak)
          | none => ([], c)
        let (b, c) ← readBlankLines indent c.left {} c
        readLines literal indent n { before, lastBreak, blanks := b.breaks, indented } c

/-- Reads a block scalar from its mark on, below lines of the given depth. -/
def readParagraph (literal : Bool) (outer : Int) (c : Cursor) : Option (List Char × Cursor) := do
  let (h, c) ← readHeader c.skip
  let indent := if h.depth = 0 then 0 else (max outer 0).toNat + h.depth
  let (b, c) ← readBlankLines indent c.left {} c
  let indent := if indent = 0 then max b.deepest (max (outer + 1) 1).toNat else indent
  let (p, c) ← readLines literal indent c.left { blanks := b.breaks } c
  let chars := p.before.reverse
  let tail := match h.chomping with
    | .strip => []
    | .clip => p.lastBreak
    | .keep => p.lastBreak ++ p.blanks
  return (chars ++ tail, c)

end Yaml
end ImportBlock
