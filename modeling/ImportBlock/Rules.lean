/-! # Rules

    What may be done to an import block.  All rules are off by default. -/

namespace ImportBlock

/-- The rules an import block is put in order by. -/
structure Rules where
  /-- Order statements by module source. -/
  sort : Bool := false
  /-- Drop lines that repeat an earlier one. -/
  dedupe : Bool := false
  /-- Join the statements of one module. -/
  merge : Bool := false
  /-- Keep import lines that cannot be read. -/
  keepMalformed : Bool := false
  deriving DecidableEq, Repr

/-- Sets the three core rules and leaves the handling of malformed lines alone. -/
def Rules.configure (r : Rules) (sort dedupe merge : Bool) : Rules :=
  { r with sort, dedupe, merge }

end ImportBlock
