import ImportBlock.Statement.Reader

/-! # The import block of a file

    A file starts with its import block: blank lines and lines whose first word is
    `import`.  The first other line starts the body, which is everything after. -/

namespace ImportBlock

open Text

/-- An import line: its position in the file and its trimmed text. -/
structure Candidate where
  index : Nat
  text : Text
  deriving DecidableEq, Repr

/-- A file cut where its import block ends. -/
structure Block where
  /-- The import lines. -/
  candidates : List Candidate := []
  /-- The lines after the import block. -/
  body : List Text := []
  deriving DecidableEq, Repr

/-- Does a trimmed line start with the word `import`? -/
def isImportLine (trimmed : Text) : Bool := hasWordAt trimmed 0 importWord

namespace Block

/-- Cuts a list of lines, the first of which stands at position `i`. -/
def ofLines (i : Nat) : List Text → Block
  | [] => {}
  | line :: rest =>
      let trimmed := trim line
      if trimmed = [] then ofLines (i + 1) rest
      else if isImportLine trimmed then
        let b := ofLines (i + 1) rest
        { b with candidates := ⟨i, trimmed⟩ :: b.candidates }
      else { body := line :: rest }

/-- Cuts a text. -/
def ofText (src : Text) : Block := ofLines 0 (lines src)

/-- The reading of each import line, in order. -/
def readings (b : Block) : List (Candidate × Except Rejection Declaration) :=
  b.candidates.map fun c => (c, Declaration.read c.text c.index)

/-- The import lines that can be read. -/
def declarations (b : Block) : List Declaration :=
  b.readings.filterMap fun (_, r) => r.toOption

/-- The import lines that cannot be read. -/
def malformed (b : Block) : List Text :=
  b.readings.filterMap fun (c, r) =>
    match r with
    | .ok _ => none
    | .error _ => some c.text

end Block

/-- Import lines and body with one blank line between them, if both hold text. -/
def assemble (imports body : List Text) : Text :=
  let head := unlines imports
  if body = [] then head
  else if head = [] then unlines body
  else head ++ [newline, newline] ++ unlines body

end ImportBlock
