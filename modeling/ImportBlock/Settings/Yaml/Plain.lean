import ImportBlock.Settings.Yaml.Cursor

/-! # Plain scalars

    A plain scalar is written without quotes, as words with gaps between them.  A gap
    that spans lines is folded: a single line break becomes a space, of more than one
    all but the first are kept. -/

namespace ImportBlock
namespace Yaml

/-- The white space between two words. -/
structure Gap where
  /-- The blanks before the first line break. -/
  blanks : List Char := []
  /-- The line breaks, as the characters they stand for. -/
  breaks : List Char := []
  deriving DecidableEq, Repr

/-- What a gap stands for. -/
def Gap.fold (g : Gap) : List Char :=
  match g.breaks with
  | [] => g.blanks
  | ['\n'] => [' ']
  | '\n' :: more => more
  | breaks => breaks

/-- Does the gap reach beyond the line? -/
def Gap.spansLines (g : Gap) : Bool := !g.breaks.isEmpty

/-- Reads a gap; `joined` tells whether an escaped line break came before it.  After a
    line break no tab may stand before the column `least`. -/
def readGap (least : Int) (joined : Bool) : Nat → Gap → Cursor → Option (Gap × Cursor)
  | 0, g, c => some (g, c)
  | n + 1, g, c =>
      let started := joined || g.spansLines
      match c.head? with
      | none => some (g, c)
      | some ch =>
          if isBlank ch then
            if started && ch == '\t' && c.column < least then none
            else do
              let c ← c.skip.look 1
              readGap least joined n (if started then g else { g with blanks := g.blanks ++ [ch] }) c
          else if isBreak ch then do
            let c ← c.look 2
            let c ← c.skipBreak.look 1
            readGap least joined n { blanks := [], breaks := g.breaks ++ [Cursor.breakChar ch] } c
          else some (g, c)

/-- The characters that end a plain word inside a flow collection. -/
def isFlowMark (c : Char) : Bool :=
  c == ',' || c == '?' || c == '[' || c == ']' || c == '\x7b' || c == '\x7d'

/-- The characters up to the end of a plain word.  A colon ends it before a blank. -/
def plainWord (flow : Bool) : List Char → List Char
  | [] => []
  | c :: rest =>
      if isBlank c || isBreak c || (c == ':' && endsWord rest.head?) || (flow && isFlowMark c) then []
      else c :: plainWord flow rest

/-- A plain scalar that has been read. -/
structure PlainText where
  chars : List Char
  /-- Did the reading go on to another line behind the last word? -/
  reachedLine : Bool
  deriving DecidableEq, Repr

/-- Reads on in a plain scalar after a gap; `before` holds the characters so far, the
    last one first.  Outside of flow collections the lines of a plain scalar are at
    least as deep as `least`. -/
def readPlainFrom (flow : Bool) (least : Int) :
    Nat → List Char → Gap → Cursor → Option (PlainText × Cursor)
  | 0, _, _, _ => none
  | n + 1, before, gap, c => do
      let c ← c.look 4
      let word := plainWord flow c.rest
      if c.isAtDocumentMark || c.isAt '#' || word.isEmpty then
        return (⟨before.reverse, gap.spansLines⟩, c)
      let before := word.reverse ++ (gap.fold.reverse ++ before)
      let c ← (c.advance word.length).look 2
      let (gap, c) ← readGap least false c.left {} c
      if gap = {} || (!flow && c.column < least) then
        return (⟨before.reverse, gap.spansLines⟩, c)
      readPlainFrom flow least n before gap c

/-- Reads a plain scalar. -/
def readPlain (flow : Bool) (least : Int) (c : Cursor) : Option (PlainText × Cursor) :=
  readPlainFrom flow least c.left [] {} c

end Yaml
end ImportBlock
