import ImportBlock.Settings.Yaml.Node
import ImportBlock.Settings.Yaml.Scalar
import ImportBlock.Text.Base64

/-! # Documents

    The value of a document: its scalars take on their meaning, references become the
    values of the nodes they refer to, and a merge key adds the entries of other
    mappings to those of its own. -/

namespace ImportBlock
namespace Yaml

/-! ## Scalars -/

/-- Does a value have the type of a tag? -/
def hasType (tag : Text) : Value → Bool
  | .null => tag == text "!!null"
  | .bool _ => tag == text "!!bool"
  | .int _ => tag == text "!!int"
  | .number _ => tag == text "!!float"
  | .date => tag == text "!!timestamp"
  | _ => false

/-- The tags that tell the meaning of a spelling. -/
def typeTags : List Text :=
  [text "!!null", text "!!bool", text "!!int", text "!!float", text "!!timestamp"]

/-- The value of a scalar.  Without a tag a plain scalar means what it is spelled like;
    a tag that tells a type needs a spelling of that type, one for bytes needs base 64,
    and any other makes it a text. -/
def Scalar.value? (s : Scalar) : Option Value :=
  let chars := s.spelling.chars
  match s.tag with
  | none => some (if s.spelling.plain then plainValue chars else .text chars)
  | some tag =>
      if typeTags.contains tag then
        match plainValue chars with
        | .int n =>
            if tag = text "!!float" then
              if n < Int.pow 2 63 then (Number.ofDecimal? (n < 0) n.natAbs 0).map .number else none
            else if tag = text "!!int" then some (.int n)
            else none
        | v => if hasType tag v then some v else none
      else if tag = text "!!binary" then (Text.ofBase64? chars).map .text
      else some (.text chars)

/-! ## Effort -/

/-- How many nodes were turned into values, and how many of them inside references. -/
structure Effort where
  steps : Nat := 0
  borrowed : Nat := 0

/-- Is too much of the work done for references?  The more there is to do, the smaller
    is their share. -/
def Effort.isExcessive (e : Effort) : Bool :=
  let low := 400000
  let high := 4000000
  let range := high - low
  100 < e.borrowed && 1000 < e.steps &&
    if e.steps ≤ low then 99 * e.steps < 100 * e.borrowed
    else if high ≤ e.steps then e.steps < 10 * e.borrowed
    else e.steps * (99 * range - 89 * (e.steps - low)) < 100 * range * e.borrowed

/-- Work that fails where the document breaks the rules or takes too much effort. -/
abbrev Work (α : Type) := StateT Effort Option α

/-- The document breaks the rules. -/
def Work.fail {α : Type} : Work α := fun _ => none

/-- Counts a node; `inside` tells whether it is reached through a reference. -/
def Work.step (inside : Bool) : Work Unit := fun e =>
  let e : Effort := ⟨e.steps + 1, if inside then e.borrowed + 1 else e.borrowed⟩
  if e.isExcessive then none else some ((), e)

/-! ## Keys -/

/-- Is the node the key that merges mappings? -/
def Node.isMerge : Node → Bool
  | .scalar s =>
      s.spelling.chars == text "<<" &&
        match s.tag with
        | none => s.spelling.plain
        | some tag => tag == text "!!merge"
  | _ => false

/-- Is the node a mapping, or a reference to one? -/
def Node.isMap : Node → Bool
  | .map _ | .reference _ (.map _) => true
  | _ => false

/-- Are two keys written the same?  Lists are, and mappings are, whatever they hold. -/
def sameKey : Node → Node → Bool
  | .scalar a, .scalar b => a.spelling.chars == b.spelling.chars
  | .list _, .list _ => true
  | .map _, .map _ => true
  | .reference a _, .reference b _ => a == b
  | _, _ => false

/-- Is a key written twice? -/
def hasRepeatedKey : List (Node × Node) → Bool
  | [] => false
  | (key, _) :: rest => rest.any (fun e => sameKey key e.1) || hasRepeatedKey rest

/-- The text of a scalar that stands as a key; a null key has none. -/
def Scalar.keyText (s : Scalar) : Work (Option Text) :=
  match s.value? with
  | none => Work.fail
  | some .null => pure none
  | some (.text t) => pure (some t)
  | some _ => pure (some s.spelling.chars)

/-- The text of a key.  Lists and mappings are no keys. -/
def Node.keyText (inside : Bool) (key : Node) : Work (Option Text) := do
  Work.step inside
  match key with
  | .scalar s => s.keyText
  | .reference _ (.scalar s) => do
      Work.step true
      s.keyText
  | _ => Work.fail

/-- Is the key among the entries? -/
def hasKey (es : List (Text × Value)) (key : Text) : Bool := es.any fun e => e.1 == key

/-- Adds the entries whose keys are not there yet. -/
def addEntries (es more : List (Text × Value)) : List (Text × Value) :=
  more.foldl (fun es e => if hasKey es e.1 then es else es ++ [e]) es

/-! ## Values -/

/-- The entries of a mapping, and those that are merged into it. -/
structure Entries where
  own : List (Text × Value) := []
  merged : List (Text × Value) := []

/-- All entries; those of the mapping itself come first. -/
def Entries.all (e : Entries) : List (Text × Value) := addEntries e.own e.merged

mutual

/-- The value of a node; `inside` tells whether it is reached through a reference. -/
def Node.value (inside : Bool) : Node → Work Value
  | .scalar s => do
      Work.step inside
      match s.value? with
      | some v => return v
      | none => Work.fail
  | .list items => do
      Work.step inside
      return .list (← valuesOf inside items)
  | .map entries => do
      Work.step inside
      if hasRepeatedKey entries then Work.fail
      return .map (← entriesOf inside false entries).all
  | .reference _ target => do
      Work.step inside
      target.value true
  | .circular _ => Work.fail

/-- The values of some nodes. -/
def valuesOf (inside : Bool) : List Node → Work (List Value)
  | [] => return []
  | item :: rest => do
      let v ← item.value inside
      return v :: (← valuesOf inside rest)

/-- The entries of a mapping; `top` tells whether it is the whole document, where an
    entry without a key is passed over. -/
def entriesOf (inside top : Bool) : List (Node × Node) → Work Entries
  | [] => return {}
  | (key, value) :: rest => do
      if key.isMerge then
        if value.isMap then
          let v ← value.value inside
          let es ← entriesOf inside top rest
          return { es with merged := v.entries ++ es.merged }
        else match value with
          | .list items =>
              if items.all Node.isMap then
                let vs ← valuesOf inside items
                let es ← entriesOf inside top rest
                return { es with merged := vs.flatMap Value.entries ++ es.merged }
              else Work.fail
          | _ => Work.fail
      else
        let keyText ← key.keyText inside
        if top && keyText.isNone then entriesOf inside top rest
        else
          let v ← value.value inside
          let es ← entriesOf inside top rest
          return { es with own := (keyText.getD [], v) :: es.own }

end

/-- The entries of the mapping that a document is.  A document that is null has none;
    any other is no mapping. -/
def Node.documentEntries? (node : Node) : Option (List (Text × Value)) :=
  match node with
  | .map entries =>
      if hasRepeatedKey entries then none
      else (entriesOf false true entries { steps := 2 }).map fun (es, _) => es.all
  | .scalar s =>
      match s.value? with
      | some .null => some []
      | _ => none
  | _ => none

/-- Reads the mapping that the first document of a text holds; without a document it is
    an empty one. -/
def read? (src : Text) : Option (List (Text × Value)) :=
  match readDocument? src with
  | none => none
  | some none => some []
  | some (some node) => node.documentEntries?

end Yaml
end ImportBlock
