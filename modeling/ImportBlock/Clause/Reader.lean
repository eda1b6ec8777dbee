import ImportBlock.Clause.Basic
import ImportBlock.Text.Space
import ImportBlock.Text.Word

/-! # Reading clauses

    A clause is read by where its first `*`, its first `{` and its last `}` stand.
    `Clause.read?` accepts a default binding, a namespace binding, a brace list, and
    a default binding before either of the last two; it also accepts what the
    printer writes for a lone binding beside a namespace, which has no braces. -/

namespace ImportBlock

open Text

/-- The word before an alias. -/
def asWord : Text := text "as"

namespace Binding

/-- One entry of a list: cut at the first whole word `as` that is not its start. -/
def read (item : Text) : Binding :=
  match cutWordFrom item asWord 1 with
  | some (name, localName) => ⟨trim name, trim localName⟩
  | none => ⟨item, []⟩

/-- Keeps the bindings whose name is not empty and has not been seen before. -/
def distinct (seen : List Text) : List Binding → List Binding
  | [] => []
  | b :: rest =>
      if b.name = [] ∨ b.name ∈ seen then distinct seen rest
      else b :: distinct (b.name :: seen) rest

/-- The interior of a brace list: entries between commas, blank ones left out and
    the first of each name kept. -/
def readList (inner : Text) : List Binding :=
  distinct [] ((((split comma inner).map trim).filter (· ≠ [])).map read)

end Binding

namespace Clause

/-- A clause cut at its namespace binding. -/
structure StarCut where
  namespaceName : Text := []
  defaultName : Text := []
  /-- What follows the namespace binding and its comma, empty if nothing does. -/
  named : Text := []
  deriving DecidableEq, Repr

/-- The default binding before a `*`: blank, or a name and a comma. -/
def readBeforeStar? (before : Text) : Option Text :=
  let before := trim before
  if before = [] then some []
  else if before.getLast? = some comma then
    let name := trim before.dropLast
    if name = [] ∨ containsAny [braceOpen, braceClose, comma] name then none else some name
  else none

/-- Cuts a `* as name` binding out of a clause. -/
def cutStar? (clause : Text) : Option StarCut := do
  let (before, after) ← cutFirst (· == star) clause
  let defaultName ← readBeforeStar? before
  let after := trim after
  if startsWord asWord after then
    let rest := trim (after.drop asWord.length)
    let (namespaceName, named) ←
      match cutFirst (· == comma) rest with
      | none => some (rest, [])
      | some (l, r) => if trim r = [] then none else some (trim l, trim r)
    if namespaceName = [] ∨ containsAny [braceOpen, braceClose, star] namespaceName then none
    else some { namespaceName, defaultName, named }
  else none

/-- The interior of a text in braces. -/
def unbrace? (s : Text) : Option Text :=
  if s.head? = some braceOpen ∧ s.getLast? = some braceClose then some s.tail.dropLast else none

/-- The named bindings after a namespace binding: none, a brace list, or a lone
    binding without braces. -/
def readAfterStar? (named : Text) : Option (List Binding) :=
  if named = [] then some []
  else match unbrace? named with
    | some inner => some (Binding.readList inner)
    | none =>
        if containsAny [braceOpen, braceClose, star, comma] named then none
        else some (Binding.readList named)

/-- A clause without a well-formed namespace binding. -/
def readPlain? (clause : Text) : Option Clause :=
  match unbrace? clause with
  | some inner => some { named := Binding.readList inner }
  | none =>
      match cutFirst (· == braceOpen) clause with
      | some (before, rest) =>
          (cutLast (· == braceClose) rest).map fun (inner, _) =>
            { defaultName := trim (dropEndWhile (· == comma) (trim before))
              named := Binding.readList inner }
      | none =>
          if containsAny [braceClose, star] clause then none
          else some { defaultName := clause }

/-- Reads the text between `import` and `from`. -/
def read? (clause : Text) : Option Clause :=
  if clause = [] then none
  else match cutStar? clause with
    | some cut =>
        (readAfterStar? cut.named).map fun named =>
          { defaultName := cut.defaultName, namespaceName := cut.namespaceName, named }
    | none => readPlain? clause

end Clause

end ImportBlock
