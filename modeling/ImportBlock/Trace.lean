import ImportBlock.Statement.Reader

/-! # Trace

    What happened to the lines of an import block, as data: one note for each
    decision.  A note is shown to the user as a log record, a level, a message and
    a list of keys with values. -/

namespace ImportBlock

/-- How important a record is. -/
inductive Level where
  | debug
  | info
  | warn
  | error
  | fatal
  deriving DecidableEq, Repr

/-- The position of a level, the least important first. -/
def Level.rank : Level → Nat
  | .debug => 0
  | .info => 1
  | .warn => 2
  | .error => 3
  | .fatal => 4

/-- The value of a key of a record. -/
inductive Record.Value where
  | text (t : Text)
  | int (n : Int)
  deriving DecidableEq, Repr

/-- Which part of the program a record comes from. -/
inductive Record.Speaker where
  /-- The reading and joining of import lines. -/
  | optimizer
  /-- Everything around it. -/
  | main
  deriving DecidableEq, Repr

/-- A log record. -/
structure Record where
  speaker : Record.Speaker
  level : Level
  message : Text
  fields : List (String × Record.Value) := []
  deriving DecidableEq, Repr

/-- The records that a log of the given level shows. -/
def Record.shown (threshold : Level) (rs : List Record) : List Record :=
  rs.filter fun r => threshold.rank ≤ r.level.rank

/-- One decision about the lines of an import block. -/
inductive Note where
  /-- The line at that position was read. -/
  | parsed (d : Declaration)
  /-- The line at that position was rejected. -/
  | rejected (line : Int) (reason : Rejection)
  /-- A later default binding of a module lost to an earlier one. -/
  | defaultConflict (source kept discarded : Text)
  /-- A later namespace binding of a module lost to an earlier one. -/
  | namespaceConflict (source kept discarded : Text)
  /-- So many declarations became so many statements. -/
  | merged (declarations groups : Nat)
  /-- The line at that position repeats an earlier one. -/
  | duplicate (line : Int) (source : Text)
  /-- So many rejected lines are left out. -/
  | dropped (count : Nat)
  deriving DecidableEq, Repr

/-- The short name of a reason. -/
def Rejection.reason : Rejection → Text
  | .missingFrom => text "missing from"
  | .emptySource => text "empty module source"
  | .unrecognizedClause _ => text "unrecognized clause"

/-- The clause that a reason is about. -/
def Rejection.details : Rejection → List (String × Record.Value)
  | .unrecognizedClause clause => [("clause", .text clause)]
  | _ => []

namespace Note

/-- The message of a note. -/
def message : Note → Text
  | .parsed _ => text "parsed import line"
  | .rejected _ _ => text "rejecting import line"
  | .defaultConflict _ _ _ => text "discarding conflicting default import"
  | .namespaceConflict _ _ _ => text "discarding conflicting namespace import"
  | .merged _ _ => text "merged imports"
  | .duplicate _ _ => text "removing duplicate import"
  | .dropped _ => text "dropping malformed import lines"

/-- The number that a line goes by: lines are counted from 1, in 64 bits, so that the
    least integer follows the greatest one. -/
def lineNumber (index : Int) : Int := Int.bmod (index + 1) (Nat.pow 2 64)

/-- The keys and values of a note. -/
def fields : Note → List (String × Record.Value)
  | .parsed d =>
      [("line", .int (lineNumber d.line)), ("source", .text d.source),
       ("default", .text d.clause.defaultName), ("namespace", .text d.clause.namespaceName),
       ("named", .int d.clause.named.length)]
  | .rejected line reason =>
      [("line", .int (lineNumber line)), ("reason", .text reason.reason)] ++ reason.details
  | .defaultConflict source kept discarded =>
      [("source", .text source), ("kept", .text kept), ("discarded", .text discarded)]
  | .namespaceConflict source kept discarded =>
      [("source", .text source), ("kept", .text kept), ("discarded", .text discarded)]
  | .merged declarations groups =>
      [("declarations", .int declarations), ("groups", .int groups)]
  | .duplicate line source => [("line", .int (lineNumber line)), ("source", .text source)]
  | .dropped count => [("count", .int count)]

/-- The log record of a note. -/
def record (n : Note) : Record := ⟨.optimizer, .debug, n.message, n.fields⟩

/-- What is noted about reading the line at a position. -/
def ofReading (index : Int) : Except Rejection Declaration → Note
  | .ok d => .parsed d
  | .error reason => .rejected index reason

end Note

end ImportBlock
