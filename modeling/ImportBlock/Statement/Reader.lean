import ImportBlock.Clause.Reader
import ImportBlock.Statement.Basic

/-! # Reading statements

    A line is read by its first whole word `from`: the clause stands between
    `import` and it, the module source after it. -/

namespace ImportBlock

open Text

/-- The word that starts an import line. -/
def importWord : Text := ImportBlock.text "import"

/-- The word before the module source. -/
def fromWord : Text := ImportBlock.text "from"

/-- Why a line is not an import statement. -/
inductive Rejection where
  /-- There is no whole word `from`. -/
  | missingFrom
  /-- There is nothing that names a module. -/
  | emptySource
  /-- The text between `import` and `from` is no clause. -/
  | unrecognizedClause (clause : Text)
  deriving DecidableEq, Repr

/-- The bytes around a module source that is not between two quotes. -/
def isSourceEdge (b : UInt8) : Bool := isQuote b || b == semicolon || isAsciiSpace b

/-- The module source in the text after `from`: what stands between the first and
    the last quote, or, without two quotes, the text up to a semicolon. -/
def readSource (region : Text) : Text :=
  match (cutFirst isQuote region).bind fun (_, rest) => cutLast isQuote rest with
  | some (source, _) => source
  | none =>
      let bare := dropEndWhile isSourceEdge (region.dropWhile isSourceEdge)
      match cutFirst (· == semicolon) bare with
      | some (source, _) => trim source
      | none => bare

/-- Reads a trimmed line that starts with the word `import`. -/
def Statement.read (line : Text) : Except Rejection Statement :=
  match cutWordFrom line fromWord 0 with
  | none => .error .missingFrom
  | some (before, after) =>
      let clause := trim (before.drop importWord.length)
      let source := readSource (trim after)
      if source = [] then .error .emptySource
      else match Clause.read? clause with
        | none => .error (.unrecognizedClause clause)
        | some c => .ok ⟨source, c⟩

/-- Reads a trimmed line that starts with the word `import` as the declaration at
    that position. -/
def Declaration.read (line : Text) (index : Int) : Except Rejection Declaration :=
  (Statement.read line).map fun s => ⟨line, index, s⟩

end ImportBlock
