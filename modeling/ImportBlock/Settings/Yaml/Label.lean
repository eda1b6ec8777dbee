import ImportBlock.Settings.Yaml.Cursor
import ImportBlock.Text.Literal

/-! # Names, tags and directives

    A node may be given a name by which it is referred to later, and a tag that tells
    its type.  Directives at the top of a document tell its version and abbreviate
    tags. -/

namespace ImportBlock
namespace Yaml

/-- The UTF-8 encoding of some characters. -/
def textOf (cs : List Char) : Text := text (String.ofList cs)

/-- Reads the longest run of characters of a kind. -/
def readWhile (p : Char → Bool) (c : Cursor) : Option (List Char × Cursor) := do
  let cs := c.rest.takeWhile p
  let c ← (c.advance cs.length).look 1
  return (cs, c)

/-- The characters that may follow a name besides white space. -/
def endsName (c : Option Char) : Bool :=
  endsWord c || c.any fun ch => "?:,]\x7d%@\x60".toList.contains ch

/-- Reads a name after its mark. -/
def readName (c : Cursor) : Option (Text × Cursor) := do
  let (name, c) ← readWhile isNameChar c.skip
  if name.isEmpty || !endsName c.head? then none
  return (textOf name, c)

/-! ## Tags -/

/-- A tag as it is written: a handle that stands for the start of the tag, and the rest
    of it. -/
structure Tag where
  handle : Text
  suffix : Text
  deriving DecidableEq, Repr

/-- The characters of a tag besides those of names. -/
def isTagChar (c : Char) : Bool :=
  isNameChar c || ";/?:@&=+$,.%!~*'()[]".toList.contains c

/-- The bytes that a tag spells, where a percent sign and two digits stand for a byte. -/
def tagBytes? : List Char → Option Text
  | [] => some []
  | '%' :: a :: b :: rest => do
      let n ← Text.readHex? (textOf [a, b])
      return n.toUInt8 :: (← tagBytes? rest)
  | c :: rest => if c == '%' then none else do return textOf [c] ++ (← tagBytes? rest)

/-- Reads the rest of a tag. -/
def readTagEnd (c : Cursor) : Option (Text × Cursor) := do
  let (cs, c) ← readWhile isTagChar c
  let bytes ← tagBytes? cs
  if Text.isWellFormed bytes then return (bytes, c) else none

/-- Reads the handle of a tag: an exclamation mark and perhaps a name with another
    exclamation mark. -/
def readHandle (c : Cursor) : Option (List Char × Cursor) := do
  if !c.isAt '!' then none
  let (name, c) ← readWhile isNameChar c.skip
  if c.isAt '!' then return ('!' :: name ++ ['!'], c.skip) else return ('!' :: name, c)

/-- Reads a tag. -/
def readTag (c : Cursor) : Option (Tag × Cursor) := do
  let c ← c.look 2
  let (tag, c) ←
    if c.second? == some '<' then do
      let (suffix, c) ← readTagEnd c.skip.skip
      if suffix.isEmpty || !c.isAt '>' then none
      pure (Tag.mk [] suffix, c.skip)
    else do
      let (handle, c) ← readHandle c
      let (suffix, c) ← readTagEnd c
      if 1 < handle.length && handle.getLast? == some '!' then
        if suffix.isEmpty then none else pure (Tag.mk (textOf handle) suffix, c)
      else
        let suffix := textOf handle.tail ++ suffix
        pure (if suffix.isEmpty then Tag.mk [] (text "!") else Tag.mk (text "!") suffix, c)
  if endsWord c.head? then return (tag, c) else none

/-! ## Directives -/

/-- A line at the top of a document that starts with a percent sign. -/
inductive Directive where
  /-- The version of the language. -/
  | version (major minor : Nat)
  /-- What a handle of tags stands for. -/
  | handle (name expansion : Text)
  deriving DecidableEq, Repr

/-- Reads a part of a version, a number of one or two digits. -/
def readVersionPart (c : Cursor) : Option (Nat × Cursor) := do
  let (ds, c) ← readWhile Char.isDigit c
  if ds.isEmpty || 2 < ds.length then none
  return (Text.digitsValue (textOf ds), c)

/-- Reads the rest of a version directive. -/
def readVersion (c : Cursor) : Option (Directive × Cursor) := do
  let (major, c) ← readVersionPart c.skipBlanks
  if !c.isAt '.' then none
  let (minor, c) ← readVersionPart c.skip
  return (.version major minor, c)

/-- Reads the rest of a directive about a handle. -/
def readHandleDirective (c : Cursor) : Option (Directive × Cursor) := do
  let (handle, c) ← readHandle c.skipBlanks
  if handle ≠ ['!'] && handle.getLast? ≠ some '!' then none
  if !c.head?.any isBlank then none
  let (expansion, c) ← readTagEnd c.skipBlanks
  if expansion.isEmpty || !endsWord c.head? then none
  return (.handle (textOf handle) expansion, c)

/-- Reads a directive and the line break after it. -/
def readDirective (c : Cursor) : Option (Directive × Cursor) := do
  let (name, c) ← readWhile isNameChar c.skip
  if !endsWord c.head? then none
  let (d, c) ←
    if name == "YAML".toList then readVersion c
    else if name == "TAG".toList then readHandleDirective c
    else none
  let c := c.skipBlanks
  let c ← (if c.isAt '#' then c.toLineEnd else c).look 2
  if !endsLine c.head? then none
  return (d, if c.rest.isEmpty then c else c.skipBreak)

end Yaml
end ImportBlock
