import ImportBlock.Trace

/-! # Joining statements

    The statements of one module are joined into one: the first default and the
    first namespace binding win, and so does the first named binding of each name.
    Without sorting, modules and names keep the order in which they first appear. -/

namespace ImportBlock

open Text

namespace Merge

/-- The first of two names that is not empty. -/
def firstName (kept new : Text) : Text := if kept = [] then new else kept

/-- Adds the bindings whose names are new. -/
def addBindings (kept : List Binding) : List Binding → List Binding
  | [] => kept
  | b :: rest =>
      if hasBinding kept b.name then addBindings kept rest
      else addBindings (kept ++ [b]) rest

/-- Joins a further clause into one. -/
def joinClause (kept new : Clause) : Clause where
  defaultName := firstName kept.defaultName new.defaultName
  namespaceName := firstName kept.namespaceName new.namespaceName
  named := addBindings kept.named new.named

/-- Joins a statement into the one of its module, or adds it as the last. -/
def add (groups : List Statement) (s : Statement) : List Statement :=
  match groups with
  | [] => [⟨s.source, joinClause {} s.clause⟩]
  | g :: rest =>
      if g.source = s.source then ⟨g.source, joinClause g.clause s.clause⟩ :: rest
      else g :: add rest s

/-- One statement for each module, in order of first appearance. -/
def groups (ds : List Declaration) : List Statement :=
  ds.foldl (fun gs d => add gs d.statement) []

/-- Orders the named bindings of a statement by name. -/
def sortNamed (s : Statement) : Statement :=
  { s with clause := { s.clause with named := sortOn Binding.name s.clause.named } }

/-- Statements by module source, and their named bindings by name. -/
def sorted (gs : List Statement) : List Statement := (sortOn Statement.source gs).map sortNamed

/-- The clause collected so far for a module. -/
def clauseOf (groups : List Statement) (source : Text) : Clause :=
  match groups.find? (fun g => g.source == source) with
  | some g => g.clause
  | none => {}

/-- The names of a declaration that lose to an earlier one of its module. -/
def conflicts (kept : Clause) (d : Declaration) : List Note :=
  let lost (old new : Text) : Bool := !old.isEmpty && !new.isEmpty && old != new
  (if lost kept.defaultName d.clause.defaultName then
    [.defaultConflict d.source kept.defaultName d.clause.defaultName] else [])
    ++ (if lost kept.namespaceName d.clause.namespaceName then
    [.namespaceConflict d.source kept.namespaceName d.clause.namespaceName] else [])

/-- The conflicts met while joining declarations to what was collected before. -/
def conflictNotes (groups : List Statement) : List Declaration → List Note
  | [] => []
  | d :: rest =>
      conflicts (clauseOf groups d.source) d ++ conflictNotes (add groups d.statement) rest

/-- Joins the declarations of each module into one statement. -/
def statements (sort : Bool) (ds : List Declaration) : List Statement :=
  if sort then sorted (groups ds) else groups ds

/-- What is noted while joining. -/
def notes (ds : List Declaration) : List Note :=
  conflictNotes [] ds ++ [.merged ds.length (groups ds).length]

end Merge

end ImportBlock
