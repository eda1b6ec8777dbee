import ImportBlock.Text.Quoted
import ImportBlock.Text.Space
import ImportBlock.Trace

/-! # Log lines

    A record is shown as a line: level, speaker, message, then each key with its
    value.  Values that could be misread are quoted; a value of several lines is
    written below its key. -/

namespace ImportBlock
namespace Record

open Text

/-- The four letters that a level is shown as. -/
def levelTag : Level → Text
  | .debug => text "DEBU"
  | .info => text "INFO"
  | .warn => text "WARN"
  | .error => text "ERRO"
  | .fatal => text "FATA"

/-- The name that a speaker is shown as. -/
def speakerName : Speaker → Text
  | .optimizer => text "optimizer"
  | .main => text "esio"

/-- A value without quotes. -/
def valueText : Value → Text
  | .text t => t
  | .int n => ofInt n

/-- Must a value with this piece be quoted?  White space, `=`, a double quote and
    what cannot be printed call for it. -/
def needsQuotes : Piece → Bool
  | .stray _ => true
  | .char bytes =>
      bytes == [34] || bytes == [61] || bytes == replacement || spaceUnits.contains bytes
        || !isPrintable (codePoint bytes)

/-- Is the piece changed by escaping? -/
def needsEscape : Piece → Bool
  | .stray _ => false
  | .char bytes => bytes == [34] || !isPrintable (codePoint bytes)

/-- A piece with control characters escaped. -/
def escapePiece (quotes : Bool) : Piece → Text
  | .stray _ => replacement
  | .char bytes =>
      if quotes && bytes == [34] then [92, 34]
      else if isPrintable (codePoint bytes) then bytes
      else escape 0x20 (codePoint bytes)

/-- A text with control characters and, where asked for, double quotes escaped. -/
def escaped (quotes : Bool) (t : Text) : Text :=
  let ps := pieces t
  if ps.any needsEscape then ps.flatMap (escapePiece quotes) else t

/-- The lines of a value of several lines; `more` tells whether further keys follow. -/
def valueLines (more : Bool) (t : Text) : Text :=
  let ls := split newline t
  let mark := text "  │ "
  let shown := (ls.dropLast.map fun l => mark ++ escaped false l ++ [newline]).flatten
  match ls.getLast? with
  | some [] | none => shown
  | some last => shown ++ mark ++ escaped false last ++ (if more then [newline] else [])

/-- A key and its value; `more` tells whether further keys follow. -/
def renderField (more : Bool) (key : String) (v : Value) : Text :=
  let t := valueText v
  let key := text key
  if t = [] then text " " ++ key ++ text "=\"\""
  else if t.contains newline then
    text "\n  " ++ key ++ text "=\n" ++ valueLines more t
  else if (pieces t).any needsQuotes then
    text " " ++ key ++ text "=\"" ++ escaped true t ++ text "\""
  else text " " ++ key ++ text "=" ++ t

/-- The keys and values of a record. -/
def renderFields : List (String × Value) → Text
  | [] => []
  | (key, v) :: rest => renderField (!rest.isEmpty) key v ++ renderFields rest

/-- A tab in a message is shown as four spaces. -/
def expandTabs (t : Text) : Text := t.flatMap fun b => if b = 9 then [32, 32, 32, 32] else [b]

/-- The line of a record. -/
def render (r : Record) : Text :=
  levelTag r.level ++ text " " ++ speakerName r.speaker ++ text ": " ++ expandTabs r.message
    ++ renderFields r.fields ++ [newline]

/-- The lines that a log of the given level shows; a log of level `fatal` shows none. -/
def renderAll (threshold : Level) (rs : List Record) : Text :=
  (shown threshold rs).flatMap render

end Record
end ImportBlock
