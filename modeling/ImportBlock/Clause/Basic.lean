import ImportBlock.Text.Basic

/-! # Import clauses

    The clause of an import statement is what stands between `import` and `from`:
    a default binding, a namespace binding and a list of named bindings, each of
    which may be absent.  An absent name is the empty text; no written name is
    empty, so the two cannot be confused. -/

namespace ImportBlock

/-- One entry of a list of named bindings: `name`, or `name as alias`. -/
structure Binding where
  /-- The exported name. -/
  name : Text
  /-- The local name, empty if it is the exported one. -/
  localName : Text := []
  deriving DecidableEq, Repr

/-- The bindings that one import statement introduces. -/
structure Clause where
  /-- The default binding, empty if there is none. -/
  defaultName : Text := []
  /-- The alias of a `* as` binding, empty if there is none. -/
  namespaceName : Text := []
  /-- The named bindings, in written order. -/
  named : List Binding := []
  deriving DecidableEq, Repr

/-- The written form of a binding. -/
def Binding.render (b : Binding) : Text :=
  if b.localName = [] then b.name else b.name ++ text " as " ++ b.localName

/-- Does the list hold a binding of that exported name? -/
def hasBinding (named : List Binding) (name : Text) : Bool :=
  named.any fun b => b.name == name

namespace Clause

/-- The written form of the named bindings: a lone binding stands without braces. -/
def renderNamed : List Binding → List Text
  | [] => []
  | [b] => [b.render]
  | bs => [text "\x7b " ++ Text.join (text ", ") (bs.map Binding.render) ++ text " \x7d"]

/-- The written parts of a clause: default, namespace, named bindings. -/
def parts (c : Clause) : List Text :=
  (if c.defaultName = [] then [] else [c.defaultName])
    ++ (if c.namespaceName = [] then [] else [text "* as " ++ c.namespaceName])
    ++ renderNamed c.named

/-- The written form of a clause; it is empty if the clause binds nothing. -/
def render (c : Clause) : Text := Text.join (text ", ") c.parts

end Clause

end ImportBlock
