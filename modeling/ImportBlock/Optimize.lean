import ImportBlock.Block
import ImportBlock.Flat
import ImportBlock.Merge
import ImportBlock.Rules

/-! # Putting an import block in order

    `optimize` reads the import block of a text, joins or filters its statements by
    the rules, and writes them before the body.  A text without a readable import
    line is left alone. -/

namespace ImportBlock

open Text

namespace Rules

/-- The statements that the declarations become under the rules. -/
def statements (r : Rules) (ds : List Declaration) : List Statement :=
  if r.merge then Merge.statements r.sort ds else Flat.statements r.dedupe r.sort ds

/-- What is noted while the declarations become statements. -/
def statementNotes (r : Rules) (ds : List Declaration) : List Note :=
  if r.merge then Merge.notes ds else Flat.notes r.dedupe ds

end Rules

/-- The import lines that are written for a block. -/
def importLines (r : Rules) (b : Block) : List Text :=
  Statement.renderAll (r.statements b.declarations)
    ++ (if r.keepMalformed then b.malformed else [])

/-- Puts the import block of a text in order. -/
def optimize (r : Rules) (src : Text) : Text :=
  let b := Block.ofText src
  if b.declarations = [] then src else assemble (importLines r b) b.body

/-- What is noted about a text. -/
def notes (r : Rules) (src : Text) : List Note :=
  let b := Block.ofText src
  let readNotes := b.readings.map fun (c, reading) => Note.ofReading c.index reading
  if b.declarations = [] then readNotes
  else
    readNotes ++ r.statementNotes b.declarations
      ++ (if b.malformed = [] ∨ r.keepMalformed then [] else [.dropped b.malformed.length])

/-- Puts the import block of a file in order and keeps the file's final line feed. -/
def optimizeFile (r : Rules) (src : Text) : Text :=
  let out := optimize r src
  if out ≠ src ∧ out ≠ [] ∧ src.getLast? = some newline ∧ out.getLast? ≠ some newline then
    out ++ [newline]
  else out

end ImportBlock
