import ImportBlock.Settings.Yaml.Plain
import ImportBlock.Text.Literal

/-! # Quoted scalars

    In single quotes a quote is written twice and nothing else is special; in double
    quotes a backslash starts an escape.  Lines are folded as in plain scalars, but an
    escaped line break is nothing. -/

namespace ImportBlock
namespace Yaml

/-- The kind of a quote. -/
inductive Quote where
  | single
  | double
  deriving DecidableEq, Repr

/-- The character of a quote. -/
def Quote.char : Quote → Char
  | .single => '\''
  | .double => '"'

/-- The character of a one-letter escape. -/
def escapeValue? : Char → Option Char
  | '0' => some '\x00'
  | 'a' => some '\x07'
  | 'b' => some '\x08'
  | 't' => some '\t'
  | '\t' => some '\t'
  | 'n' => some '\n'
  | 'v' => some '\x0b'
  | 'f' => some '\x0c'
  | 'r' => some '\r'
  | 'e' => some '\x1b'
  | ' ' => some ' '
  | '"' => some '"'
  | '\'' => some '\''
  | '\\' => some '\\'
  | 'N' => some '\u0085'
  | '_' => some '\u00a0'
  | 'L' => some '\u2028'
  | 'P' => some '\u2029'
  | _ => none

/-- The number of hexadecimal digits after an escape letter. -/
def escapeWidth? : Char → Option Nat
  | 'x' => some 2
  | 'u' => some 4
  | 'U' => some 8
  | _ => none

/-- The number that hexadecimal digits stand for. -/
def hexValue? (cs : List Char) : Option Nat := Text.readHex? (text (String.ofList cs))

/-- Reads an escape after its backslash. -/
def readEscape (c : Cursor) : Option (Char × Cursor) := do
  let letter ← c.head?
  match escapeValue? letter with
  | some ch => return (ch, c.skip)
  | none =>
      let width ← escapeWidth? letter
      let c ← c.skip.look width
      let digits := c.rest.take width
      let code ← hexValue? digits
      if digits.length < width || (0xD800 ≤ code && code ≤ 0xDFFF) || 0x10FFFF < code then none
      else return (Char.ofNat code, c.advance width)

/-- What has been read inside quotes. -/
structure QuotedRun where
  /-- The characters so far, the last one first. -/
  before : List Char
  /-- Is an escaped line break the last thing that was read? -/
  joined : Bool
  deriving DecidableEq, Repr

/-- Reads characters up to a blank, a line break or the closing quote. -/
def readRun (q : Quote) : Nat → List Char → Cursor → Option (QuotedRun × Cursor)
  | 0, _, _ => none
  | n + 1, before, c =>
      let ended : Option (QuotedRun × Cursor) := some (⟨before, false⟩, c)
      match c.head? with
      | none => ended
      | some ch =>
          if isBlank ch || isBreak ch then ended
          else if ch == q.char then
            if q == .single && c.second? == some ch then do
              readRun q n (ch :: before) (← c.skip.skip.look 2)
            else ended
          else if q == .double && ch == '\\' then
            if c.second?.any isBreak then do
              let c ← c.look 3
              return (⟨before, true⟩, c.skip.skipBreak)
            else do
              let (ch, c) ← readEscape c.skip
              readRun q n (ch :: before) (← c.look 2)
          else do
            readRun q n (ch :: before) (← c.skip.look 2)

/-- Reads on inside quotes up to the closing quote. -/
def readQuotedFrom (q : Quote) : Nat → List Char → Cursor → Option (List Char × Cursor)
  | 0, _, _ => none
  | n + 1, before, c => do
      let c ← c.look 4
      if c.isAtDocumentMark || c.rest.isEmpty then none
      let (run, c) ← readRun q c.left before c
      let c ← c.look 1
      if c.isAt q.char then return (run.before.reverse, c.skip)
      let (gap, c) ← readGap 0 run.joined c.left {} c
      let folded := if run.joined then gap.breaks else gap.fold
      readQuotedFrom q n (folded.reverse ++ run.before) c

/-- Reads a quoted scalar from its opening quote on. -/
def readQuoted (q : Quote) (c : Cursor) : Option (List Char × Cursor) :=
  readQuotedFrom q c.left [] c.skip

end Yaml
end ImportBlock
