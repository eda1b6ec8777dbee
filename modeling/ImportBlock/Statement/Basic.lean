import ImportBlock.Clause.Basic

/-! # Import statements

    A statement imports a clause from a module source.  A declaration is a
    statement together with the line it was read from. -/

namespace ImportBlock

/-- An import statement: a clause and the module it comes from. -/
structure Statement where
  /-- The module source. -/
  source : Text
  clause : Clause := {}
  deriving DecidableEq, Repr

/-- A statement as it was found in a file. -/
structure Declaration where
  /-- The trimmed line. -/
  text : Text
  /-- The position of the line, counted from 0. -/
  line : Int
  /-- What the line states. -/
  statement : Statement
  deriving DecidableEq, Repr

/-- The module source of a declaration. -/
def Declaration.source (d : Declaration) : Text := d.statement.source

/-- The clause of a declaration. -/
def Declaration.clause (d : Declaration) : Clause := d.statement.clause

namespace Statement

/-- The line of a statement with the given written clause. -/
def renderLine (clause source : Text) : Text :=
  ImportBlock.text "import " ++ clause ++ ImportBlock.text " from '" ++ source
    ++ ImportBlock.text "';"

/-- The line of a statement; a statement that binds nothing has none. -/
def render? (s : Statement) : Option Text :=
  let clause := s.clause.render
  if clause = [] then none else some (renderLine clause s.source)

/-- One line for each statement that binds something. -/
def renderAll (ss : List Statement) : List Text := ss.filterMap render?

end Statement

end ImportBlock
