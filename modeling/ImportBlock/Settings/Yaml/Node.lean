import ImportBlock.Settings.Yaml.Token

/-! # Nodes

    A node is a scalar, a list or a mapping of nodes, or a reference to an earlier node.
    Nodes are read from tokens; what a scalar means is left open. -/

namespace ImportBlock
namespace Yaml

/-- A scalar and the tag it was given, if any. -/
structure Scalar where
  spelling : Spelling
  tag : Option Text := none
  deriving DecidableEq, Repr

/-- A scalar of which nothing is written. -/
def Scalar.empty : Scalar := ⟨⟨[], true⟩, none⟩

/-- A part of a document. -/
inductive Node where
  | scalar (s : Scalar)
  | list (items : List Node)
  | map (entries : List (Node × Node))
  /-- A reference to a node by its name. -/
  | reference (name : Text) (target : Node)
  /-- A reference to a node that it is a part of. -/
  | circular (name : Text)
  deriving Repr

/-- Tokens that are being read into nodes. -/
structure NodeReader where
  tokens : TokenStream
  /-- The named nodes, the last one first; a node that is still being read is none. -/
  names : List (Text × Option Node) := []
  /-- What the handles of tags stand for. -/
  handles : List (Text × Text) := []

namespace NodeReader

/-- A step of reading. -/
abbrev Step (α : Type) := StateT NodeReader Option α

/-- Looks at the next token. -/
def peek : Step Token := fun r => do
  let (t, tokens) ← r.tokens.peek
  return (t, { r with tokens })

/-- Takes the next token. -/
def take : Step Unit := modify fun r => { r with tokens := r.tokens.drop }

/-- The document breaks the rules. -/
def fail {α : Type} : Step α := fun _ => none

/-- The start of all tags that are not of a document's own. -/
def commonStart : Text := text "tag:yaml.org,2002:"

/-- A tag with its common start abbreviated. -/
def shorten (tag : Text) : Text :=
  if commonStart.isPrefixOf tag then text "!!" ++ tag.drop commonStart.length else tag

/-- The tag that a written one stands for; a lone exclamation mark stands for none. -/
def resolveTag (t : Tag) : Step (Option Text) := fun r => do
  if t.handle.isEmpty then
    return (if t.suffix = text "!" then none else some (shorten t.suffix), r)
  else
    let (_, start) ← r.handles.find? fun h => h.1 == t.handle
    return (some (shorten (start ++ t.suffix)), r)

/-- What stands before a node: its name and its tag. -/
structure Labels where
  name : Option Text := none
  tag : Option Text := none
  /-- Is there any? -/
  present : Bool := false

/-- Reads the name and the tag before a node, in either order. -/
def readLabels : Step Labels := do
  match ← peek with
  | .anchor name =>
      take
      match ← peek with
      | .tag t => do
          take
          return ⟨some name, ← resolveTag t, true⟩
      | _ => return ⟨some name, none, true⟩
  | .tag t =>
      take
      match ← peek with
      | .anchor name => do
          take
          return ⟨some name, ← resolveTag t, true⟩
      | _ => return ⟨none, ← resolveTag t, true⟩
  | _ => return {}

/-- Notes that a named node starts. -/
def beginNamed (l : Labels) : Step Unit :=
  match l.name with
  | none => pure ()
  | some name => modify fun r => { r with names := (name, none) :: r.names }

/-- Notes that a named node is complete. -/
def endNamed (l : Labels) (n : Node) : Step Node := do
  match l.name with
  | none => return n
  | some name =>
      modify fun r =>
        match r.names.find? fun e => e.1 == name with
        | some (_, none) => { r with names := (name, some n) :: r.names }
        | _ => r
      return n

/-- The node that a name refers to. -/
def lookup (name : Text) : Step Node := fun r => do
  match ← r.names.find? fun e => e.1 == name with
  | (_, some n) => return (.reference name n, r)
  | (_, none) => return (.circular name, r)

/-- The node of which nothing is written. -/
def emptyNode : Node := .scalar .empty

/-- Does the token end what may stand after a key or colon of a block mapping? -/
def endsBlockPart : Token → Bool
  | .key | .value | .blockEnd => true
  | _ => false

mutual

/-- Reads a node.  Block collections are only allowed where `block` holds, and where
    `loose` holds a block list need not be deeper than what it belongs to. -/
def readNode : Nat → Bool → Bool → Step Node
  | 0, _, _ => fail
  | n + 1, block, loose => do
      match ← peek with
      | .reference name =>
          take
          lookup name
      | _ =>
          let labels ← readLabels
          beginNamed labels
          let t ← peek
          match t, block, loose with
          | .item, _, true => do endNamed labels (.list (← readLooseItems n []))
          | .scalar s, _, _ => do
              take
              endNamed labels (.scalar ⟨s, labels.tag⟩)
          | .flowList, _, _ => do
              take
              endNamed labels (.list (← readFlowItems n true []))
          | .flowMap, _, _ => do
              take
              endNamed labels (.map (← readFlowEntries n true []))
          | .blockList, true, _ => do
              take
              endNamed labels (.list (← readBlockItems n []))
          | .blockMap, true, _ => do
              take
              endNamed labels (.map (← readBlockEntries n []))
          | _, _, _ =>
              if labels.present then endNamed labels (.scalar ⟨⟨[], true⟩, labels.tag⟩) else fail

/-- Reads the items of a block list; `before` holds the items so far, the last one
    first. -/
def readBlockItems : Nat → List Node → Step (List Node)
  | 0, _ => fail
  | n + 1, before => do
      match ← peek with
      | .item =>
          take
          let item ← match ← peek with
            | .item | .blockEnd => pure emptyNode
            | _ => readNode n true false
          readBlockItems n (item :: before)
      | .blockEnd =>
          take
          return before.reverse
      | _ => fail

/-- Reads the items of a block list that is as deep as the key it belongs to. -/
def readLooseItems : Nat → List Node → Step (List Node)
  | 0, _ => fail
  | n + 1, before => do
      match ← peek with
      | .item =>
          take
          let t ← peek
          let item ← if t == .item || endsBlockPart t then pure emptyNode else readNode n true false
          readLooseItems n (item :: before)
      | _ => return before.reverse

/-- Reads the entries of a block mapping. -/
def readBlockEntries : Nat → List (Node × Node) → Step (List (Node × Node))
  | 0, _ => fail
  | n + 1, before => do
      match ← peek with
      | .key =>
          take
          let key ← if endsBlockPart (← peek) then pure emptyNode else readNode n true true
          let value ← match ← peek with
            | .value => do
                take
                if endsBlockPart (← peek) then pure emptyNode else readNode n true true
            | _ => pure emptyNode
          readBlockEntries n ((key, value) :: before)
      | .blockEnd =>
          take
          return before.reverse
      | _ => fail

/-- Reads the items of a flow list; `first` tells whether none came before. -/
def readFlowItems : Nat → Bool → List Node → Step (List Node)
  | 0, _, _ => fail
  | n + 1, first, before => do
      let t ← peek
      if t == .flowListEnd then
        take
        return before.reverse
      else if first then readFlowItem n before
      else if t == .comma then
        take
        readFlowItem n before
      else fail

/-- Reads an item of a flow list and those after it.  An item may be a single entry of
    a mapping, without braces; a comma may stand after the last item. -/
def readFlowItem : Nat → List Node → Step (List Node)
  | 0, _ => fail
  | n + 1, before => do
      match ← peek with
      | .flowListEnd =>
          take
          return before.reverse
      | .key =>
          take
          let entry ← readPair n
          readFlowItems n false (.map [entry] :: before)
      | _ =>
          let item ← readNode n false false
          readFlowItems n false (item :: before)

/-- Reads a single entry of a mapping inside a flow list.  If no key is written, the
    token after it is taken for the key. -/
def readPair : Nat → Step (Node × Node)
  | 0 => fail
  | n + 1 => do
      let t ← peek
      let key ←
        if t == .value || t == .comma || t == .flowListEnd then do
          take
          pure emptyNode
        else readNode n false false
      match ← peek with
      | .value =>
          take
          let t ← peek
          let value ← if t == .comma || t == .flowListEnd then pure emptyNode
            else readNode n false false
          return (key, value)
      | _ => return (key, emptyNode)

/-- Reads the entries of a flow mapping; `first` tells whether none came before. -/
def readFlowEntries : Nat → Bool → List (Node × Node) → Step (List (Node × Node))
  | 0, _, _ => fail
  | n + 1, first, before => do
      let t ← peek
      if t == .flowMapEnd then
        take
        return before.reverse
      else if first then readFlowEntry n before
      else if t == .comma then
        take
        readFlowEntry n before
      else fail

/-- Reads an entry of a flow mapping and those after it.  A node without a colon is a
    key without a value; a comma may stand after the last entry. -/
def readFlowEntry : Nat → List (Node × Node) → Step (List (Node × Node))
  | 0, _ => fail
  | n + 1, before => do
      match ← peek with
      | .flowMapEnd =>
          take
          return before.reverse
      | .key =>
          take
          let t ← peek
          let key ← if t == .value || t == .comma || t == .flowMapEnd then pure emptyNode
            else readNode n false false
          let value ← match ← peek with
            | .value => do
                take
                let t ← peek
                if t == .comma || t == .flowMapEnd then pure emptyNode else readNode n false false
            | _ => pure emptyNode
          readFlowEntries n false ((key, value) :: before)
      | _ =>
          let key ← readNode n false false
          let _ ← peek
          readFlowEntries n false ((key, emptyNode) :: before)

end

/-! ## Documents -/

/-- The handles that every document has. -/
def commonHandles : List (Text × Text) := [(text "!", text "!"), (text "!!", commonStart)]

/-- Reads the directives of a document: at most one version, which must be the known
    one, and each handle once. -/
def readDirectives : Nat → Bool → List (Text × Text) → Step Unit
  | 0, _, _ => fail
  | n + 1, versioned, handles => do
      match ← peek with
      | .directive (.version major minor) =>
          if versioned || major ≠ 1 || minor ≠ 1 then fail
          take
          readDirectives n true handles
      | .directive (.handle name expansion) =>
          if handles.any fun h => h.1 == name then fail
          take
          readDirectives n versioned ((name, expansion) :: handles)
      | _ => modify fun r => { r with handles := handles ++ commonHandles }

/-- Does the token end a document of which nothing is written? -/
def endsDocument : Token → Bool
  | .directive _ | .documentStart | .documentEnd | .ending => true
  | _ => false

/-- Reads the end of a document. -/
def readDocumentEnd : Step Unit := do
  match ← peek with
  | .documentEnd => take
  | _ => pure ()

/-- Reads the first document, if there is one.  The document may start without a
    mark. -/
def readDocument (n : Nat) : Step (Option Node) := do
  match ← peek with
  | .ending => return none
  | .directive _ | .documentStart => do
      readDirectives n false []
      if (← peek) ≠ .documentStart then fail
      take
      let node ← if endsDocument (← peek) then pure emptyNode else readNode n true false
      readDocumentEnd
      return some node
  | _ => do
      modify fun r => { r with handles := commonHandles }
      let node ← readNode n true false
      readDocumentEnd
      return some node

end NodeReader

/-- The first document of a text: `none` if the text breaks the rules, `some none` if it
    holds no document. -/
def readDocument? (src : Text) : Option (Option Node) :=
  let r : NodeReader := { tokens := .ofText src }
  (NodeReader.readDocument (4 * src.length + 16) r).map Prod.fst

end Yaml
end ImportBlock
