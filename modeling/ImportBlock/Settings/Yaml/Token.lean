import ImportBlock.Settings.Yaml.Label
import ImportBlock.Settings.Yaml.Paragraph
import ImportBlock.Settings.Yaml.Quoted

/-! # Tokens

    A document is a sequence of tokens.  Depth matters outside of flow collections:
    going deeper opens a block, going back closes it.  A key is known only by the colon
    after it, so tokens wait in a queue until it is clear whether a key starts with
    them. -/

namespace ImportBlock
namespace Yaml

/-- A scalar as it is written. -/
structure Spelling where
  chars : Text
  /-- Was it written without quotes, on the lines of its surroundings? -/
  plain : Bool
  deriving DecidableEq, Repr

/-- A part of a document. -/
inductive Token where
  | ending
  | directive (d : Directive)
  | documentStart
  | documentEnd
  | blockList
  | blockMap
  | blockEnd
  | flowList
  | flowListEnd
  | flowMap
  | flowMapEnd
  | comma
  | item
  | key
  | value
  /-- A reference to a named node. -/
  | reference (name : Text)
  /-- The name of the node that follows. -/
  | anchor (name : Text)
  | tag (t : Tag)
  | scalar (s : Spelling)
  deriving DecidableEq, Repr

/-- A place at which a key may have started. -/
structure KeyStart where
  /-- The number of tokens before the key. -/
  token : Nat
  index : Nat
  line : Nat
  column : Nat
  /-- Is the document wrong if no key starts there? -/
  required : Bool
  deriving DecidableEq, Repr

/-- The tokens of a document, read as far as they were asked for. -/
structure TokenStream where
  cursor : Cursor
  /-- The number of open flow collections. -/
  flow : Nat := 0
  /-- The depth of the innermost block, -1 outside of all blocks. -/
  indent : Int := -1
  /-- The depths of the blocks around it, the innermost first. -/
  outer : List Int := []
  /-- May a key start here? -/
  fresh : Bool := true
  /-- Where a key may have started, in the innermost flow collection first. -/
  starts : List (Option KeyStart) := [none]
  /-- The tokens that were read but not taken. -/
  queue : List Token := []
  /-- The number of tokens that were taken. -/
  taken : Nat := 0
  deriving Repr

namespace TokenStream

/-- The tokens of a text, none of them read. -/
def ofText (s : Text) : TokenStream := { cursor := .ofSource (.ofText s) }

/-- Adds a token. -/
def push (s : TokenStream) (t : Token) : TokenStream := { s with queue := s.queue ++ [t] }

/-- Adds a token that takes up so many characters here. -/
def pushMark (s : TokenStream) (t : Token) (size : Nat) : TokenStream :=
  { s with cursor := s.cursor.advance size, queue := s.queue ++ [t] }

/-- Puts a token before the tokens from the given number on. -/
def insertAt (s : TokenStream) (number : Nat) (t : Token) : TokenStream :=
  let n := number - s.taken
  { s with queue := s.queue.take n ++ t :: s.queue.drop n }

/-! ## Blocks -/

/-- The greatest number of blocks or flow collections inside each other. -/
def deepest : Nat := 10000

/-- Opens a block at a column that is deeper than the innermost block; its first token
    is put before the tokens from the given number on. -/
def openBlock (s : TokenStream) (column : Nat) (number : Nat) (t : Token) : Option TokenStream :=
  if 0 < s.flow || (column : Int) ≤ s.indent then some s
  else if deepest ≤ s.outer.length then none
  else some ({ s with outer := s.indent :: s.outer, indent := column }.insertAt number t)

/-- The number of the next token to be read. -/
def next (s : TokenStream) : Nat := s.taken + s.queue.length

/-- Closes the blocks that are deeper than a column. -/
def closeBlocksFrom (column : Int) (s : TokenStream) : List Int → TokenStream
  | [] => s
  | depth :: outer =>
      if column < s.indent then
        closeBlocksFrom column { s.push .blockEnd with indent := depth, outer } outer
      else s

/-- Closes the blocks that are deeper than a column; flow collections do not care. -/
def closeBlocks (s : TokenStream) (column : Int) : TokenStream :=
  if 0 < s.flow then s else closeBlocksFrom column s s.outer

/-! ## Keys -/

/-- How many characters a key may have. -/
def longestKey : Nat := 1024

/-- Is it too late for a colon after the key? -/
def isStale (s : TokenStream) (k : KeyStart) : Bool :=
  k.line < s.cursor.line || k.index + longestKey < s.cursor.index

/-- Gives up the innermost start of a key. -/
def dropStart (s : TokenStream) : Option TokenStream :=
  match s.starts with
  | some k :: rest => if k.required then none else some { s with starts := none :: rest }
  | _ => some s

/-- Notes that a key may start here. -/
def noteStart (s : TokenStream) : Option TokenStream :=
  if !s.fresh then some s
  else do
    let c := s.cursor
    let required := s.flow = 0 && s.indent == (c.column : Int)
    let k : KeyStart := ⟨s.next, c.index, c.line, c.column, required⟩
    let s ← s.dropStart
    return { s with starts := some k :: s.starts.tail }

/-- The innermost start of a key, if a colon here makes it one. -/
def start? (s : TokenStream) : Option (Option KeyStart) :=
  match s.starts with
  | some k :: _ =>
      if s.isStale k then if k.required then none else some none else some (some k)
  | _ => some none

/-! ## The kinds of tokens -/

/-- The end of the document: everything is closed. -/
def readEnding (s : TokenStream) : Option TokenStream := do
  let c := s.cursor
  let c := if c.column = 0 then c else { c with column := 0, line := c.line + 1 }
  let s ← ({ s with cursor := c }.closeBlocks (-1)).dropStart
  return { s with fresh := false }.push .ending

/-- A directive. -/
def readDirectiveLine (s : TokenStream) : Option TokenStream := do
  let s ← (s.closeBlocks (-1)).dropStart
  let (d, c) ← readDirective s.cursor
  return { s with fresh := false, cursor := c }.push (.directive d)

/-- The start or the end of a document. -/
def readDocumentMark (s : TokenStream) (t : Token) : Option TokenStream := do
  let s ← (s.closeBlocks (-1)).dropStart
  return { s with fresh := false }.pushMark t 3

/-- An opening bracket or brace, which may start a key. -/
def readFlowStart (s : TokenStream) (t : Token) : Option TokenStream := do
  let s ← s.noteStart
  if deepest ≤ s.flow then none
  return { s with flow := s.flow + 1, starts := none :: s.starts, fresh := true }.pushMark t 1

/-- A closing bracket or brace. -/
def readFlowEnd (s : TokenStream) (t : Token) : Option TokenStream := do
  let s ← s.dropStart
  let starts := if s.flow = 0 then s.starts else s.starts.tail
  return { s with flow := s.flow - 1, starts, fresh := false }.pushMark t 1

/-- A comma. -/
def readComma (s : TokenStream) : Option TokenStream := do
  let s ← s.dropStart
  return { s with fresh := true }.pushMark .comma 1

/-- The dash before an item of a block list. -/
def readItem (s : TokenStream) : Option TokenStream := do
  if s.flow = 0 && !s.fresh then none
  let s ← s.openBlock s.cursor.column s.next .blockList
  let s ← s.dropStart
  return { s with fresh := true }.pushMark .item 1

/-- The question mark before a key. -/
def readKey (s : TokenStream) : Option TokenStream := do
  if s.flow = 0 && !s.fresh then none
  let s ← s.openBlock s.cursor.column s.next .blockMap
  let s ← s.dropStart
  return { s with fresh := s.flow = 0 }.pushMark .key 1

/-- The colon after a key. -/
def readValue (s : TokenStream) : Option TokenStream := do
  match ← s.start? with
  | some k =>
      let s ← (s.insertAt k.token .key).openBlock k.column k.token .blockMap
      return { s with starts := none :: s.starts.tail, fresh := false }.pushMark .value 1
  | none =>
      if s.flow = 0 && !s.fresh then none
      let s ← s.openBlock s.cursor.column s.next .blockMap
      return { s with starts := none :: s.starts.tail, fresh := s.flow = 0 }.pushMark .value 1

/-- A token that is read by itself and may start a key. -/
def readStarting (s : TokenStream) (read : Cursor → Option (Token × Cursor)) :
    Option TokenStream := do
  let s ← s.noteStart
  let (t, c) ← read s.cursor
  return { s with cursor := c, fresh := false }.push t

/-- A block scalar. -/
def readBlockScalar (s : TokenStream) (literal : Bool) : Option TokenStream := do
  let s ← s.dropStart
  let (cs, c) ← readParagraph literal s.indent s.cursor
  return { s with cursor := c, fresh := true }.push (.scalar ⟨textOf cs, false⟩)

/-- A quoted scalar. -/
def readQuotedScalar (s : TokenStream) (q : Quote) : Option TokenStream :=
  s.readStarting fun c => (readQuoted q c).map fun (cs, c) => (.scalar ⟨textOf cs, false⟩, c)

/-- A plain scalar.  After the lines below it a key may start. -/
def readPlainScalar (s : TokenStream) : Option TokenStream := do
  let s ← s.noteStart
  let (p, c) ← readPlain (0 < s.flow) (s.indent + 1) s.cursor
  return { s with cursor := c, fresh := p.reachedLine }.push (.scalar ⟨textOf p.chars, true⟩)

/-- The characters that start something else than a plain scalar. -/
def isReserved (c : Char) : Bool := "-?:,[]\x7b\x7d#&*!|>'\"%@\x60".toList.contains c

/-- May a plain scalar start with the character, before the given one? -/
def startsPlain (flow : Bool) (c : Char) (second : Option Char) : Bool :=
  if c == '-' then !endsWord second
  else if c == '?' || c == ':' then !flow && !endsWord second
  else !(isReserved c || isBlank c || isBreak c)

/-- The token that starts with a character. -/
def readToken (s : TokenStream) (ch : Char) : Option TokenStream :=
  let flow := 0 < s.flow
  let second := s.cursor.second?
  match ch with
  | '[' => s.readFlowStart .flowList
  | '\x7b' => s.readFlowStart .flowMap
  | ']' => s.readFlowEnd .flowListEnd
  | '\x7d' => s.readFlowEnd .flowMapEnd
  | ',' => s.readComma
  | '*' => s.readStarting fun c => (readName c).map fun (name, c) => (.reference name, c)
  | '&' => s.readStarting fun c => (readName c).map fun (name, c) => (.anchor name, c)
  | '!' => s.readStarting fun c => (readTag c).map fun (t, c) => (.tag t, c)
  | '\'' => s.readQuotedScalar .single
  | '"' => s.readQuotedScalar .double
  | ch =>
      if ch == '-' && endsWord second then s.readItem
      else if ch == '?' && (flow || endsWord second) then s.readKey
      else if ch == ':' && (flow || endsWord second) then s.readValue
      else if ch == '|' && !flow then s.readBlockScalar true
      else if ch == '>' && !flow then s.readBlockScalar false
      else if startsPlain flow ch second then s.readPlainScalar
      else none

/-- Moves over a comment behind the last token; a dash has none. -/
def skipComment (s : TokenStream) : Option TokenStream :=
  if s.queue.getLast? = some .item then some s
  else s.cursor.skipLineComment.map fun c => { s with cursor := c }

/-- Reads the next token. -/
def readNext (s : TokenStream) : Option TokenStream := do
  let (fresh, c) ← s.cursor.skipToToken (0 < s.flow) s.fresh
  let s := { s with cursor := c, fresh }.closeBlocks c.column
  let c ← s.cursor.look 4
  let s := { s with cursor := c }
  match c.head? with
  | none => s.readEnding
  | some ch =>
      if c.column = 0 && ch == '%' then s.readDirectiveLine
      else if c.isAtMark Cursor.startMark then s.readDocumentMark .documentStart
      else if c.isAtMark Cursor.endMark then s.readDocumentMark .documentEnd
      else (s.readToken ch).bind skipComment

/-! ## Taking tokens -/

/-- How many tokens are read before the first of them is looked at. -/
def lookahead : Nat := 3

/-- Does a key perhaps start with the first token?  It fails if one must and cannot. -/
def isUndecided (s : TokenStream) : Option Bool :=
  match s.starts.findSome? (·.filter fun k => k.token == s.taken) with
  | none => some false
  | some k => if s.isStale k then if k.required then none else some false else some true

/-- Reads tokens until the first one can be looked at. -/
def prepareFrom : Nat → TokenStream → Option TokenStream
  | 0, _ => none
  | n + 1, s => do
      if s.queue.length < lookahead then prepareFrom n (← s.readNext)
      else if ← s.isUndecided then prepareFrom n (← s.readNext)
      else return s

/-- The first token, and the tokens with it. -/
def peek (s : TokenStream) : Option (Token × TokenStream) := do
  let s ← prepareFrom (s.cursor.left + lookahead) s
  let t ← s.queue.head?
  return (t, s)

/-- Takes the first token. -/
def drop (s : TokenStream) : TokenStream := { s with queue := s.queue.tail, taken := s.taken + 1 }

end TokenStream

end Yaml
end ImportBlock
