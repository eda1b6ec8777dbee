import ImportBlock.Trace

/-! # Keeping statements apart

    Without joining, each declaration stays a statement of its own; lines that
    repeat an earlier one word for word may be dropped. -/

namespace ImportBlock

open Text

namespace Flat

/-- The declarations whose text does not occur before them. -/
def firstCopies (seen : List Text) : List Declaration → List Declaration
  | [] => []
  | d :: rest =>
      if d.text ∈ seen then firstCopies seen rest
      else d :: firstCopies (d.text :: seen) rest

/-- A note for each declaration whose text occurs before it. -/
def laterCopies (seen : List Text) : List Declaration → List Note
  | [] => []
  | d :: rest =>
      if d.text ∈ seen then .duplicate d.line d.source :: laterCopies seen rest
      else laterCopies (d.text :: seen) rest

/-- One statement for each declaration, or for each distinct line. -/
def statements (removeCopies sort : Bool) (ds : List Declaration) : List Statement :=
  let kept := if removeCopies then firstCopies [] ds else ds
  (if sort then sortOn Declaration.source kept else kept).map Declaration.statement

/-- What is noted while dropping copies. -/
def notes (removeCopies : Bool) (ds : List Declaration) : List Note :=
  if removeCopies then laterCopies [] ds else []

end Flat

end ImportBlock
