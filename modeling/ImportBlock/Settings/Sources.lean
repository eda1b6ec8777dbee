import ImportBlock.Settings.Library

/-! # Where settings come from

    The value of a key is taken from the command line if its flag was given, else from the
    environment, else from the settings file, else it is the default.  An empty environment
    variable counts as unset, and so does a null in the file. -/

namespace ImportBlock
namespace Sources

/-- Keys are compared in lower case; a key that is spelled otherwise counts before one
    that is spelled so. -/
def lowerKeys (es : List (Text × Value)) : List (Text × Value) :=
  let (plain, other) := es.partition fun e => Text.lower e.1 == e.1
  (other ++ plain).map fun (k, v) => (Text.lower k, v)

/-- The value of an environment variable that is set and not empty. -/
def fromEnvironment? (s : Sources) (name : Text) : Option Text :=
  match s.environment.find? fun e => e.1 == name with
  | some (_, value) => if value = [] then none else some value
  | none => none

/-- What the file holds under the name of a section. -/
def section? (s : Sources) (part : Text) : Option Value := Value.lookup (lowerKeys s.file) part

/-- The value in the file: under the dotted key, or in its section. -/
def inFile? (s : Sources) (key : Text) : Option Value :=
  match Value.lookupSome (lowerKeys s.file) key with
  | some v => some v
  | none =>
      (s.section? (partOf key)).bind fun v =>
        Value.lookupSome (lowerKeys v.entries) (nameOf key)

/-- Does the file hold null or a date for the section?  Then the section has no entries. -/
def isEmptySection (s : Sources) (part : Text) : Bool :=
  match s.section? part with
  | some .null | some .date => true
  | _ => false

/-- Does a whole section come from a value that is no mapping?  Then it cannot be
    read. -/
def isBrokenSection (s : Sources) (part : Text) : Bool :=
  match s.section? part with
  | none | some (.map _) => false
  | some _ =>
      !s.isEmptySection part || (s.fromEnvironment? (s.registry.variableName part)).isSome

/-- The value of a key that nobody sets.  A date in place of its section takes even the
    default away. -/
def fallback (s : Sources) (key : Text) : Value :=
  match s.section? (partOf key) with
  | some .date => .null
  | _ => (s.registry.defaults.lookup key).getD .null

/-- The value that a key has, if no section is broken.  A section without entries hides the
    environment from the keys that are not bound to a flag, and a variable for a whole
    section hides what the file and the defaults say about it. -/
def value (s : Sources) (key : Text) : Value :=
  if s.isEmptySection (partOf key) && (s.registry.bound.lookup key).isNone then s.fallback key
  else match s.registry.flag? key with
    | some v => v
    | none =>
        match s.fromEnvironment? (s.registry.variableName key) with
        | some t => .text t
        | none =>
            if (s.fromEnvironment? (s.registry.variableName (partOf key))).isSome then .null
            else (s.inFile? key).getD (s.fallback key)

/-- The value that a key has.  With a broken section no key has one. -/
def value? (s : Sources) (key : Text) : Option Value :=
  if s.registry.defaults.any fun d => s.isBrokenSection (partOf d.1) then none
  else some (s.value key)

end Sources
end ImportBlock
