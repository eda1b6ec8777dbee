import ImportBlock.Files.Fault
import ImportBlock.Files.Path

/-! # File trees

    A tree tells for each place whether there is a file or a directory.  A place is
    the list of names from the top directory down to it.

    There are no other kinds of entries: no links, devices or pipes.  Every directory can
    be searched and listed; a single file may be one that cannot be read, or not written.
    That a path may be too long is met where a path is followed, and only there: looking
    for something at a place spells no path. -/

namespace ImportBlock

/-- The names from the top directory down. -/
abbrev Place := List Text

instance : LawfulBEq Place := inferInstanceAs (LawfulBEq (List Text))

/-- The absolute path of a place. -/
def Place.path (p : Place) : Text := Text.slash :: Text.join [Text.slash] p

/-- What may stand at a place. -/
inductive Entry where
  | directory
  | file (content : Text)
  deriving DecidableEq, Repr

/-- The entries of a tree below its top directory. -/
structure Tree where
  entries : List (Place × Entry) := []
  /-- The files that cannot be read, each with the reason. -/
  unreadable : List (Place × Fault) := []
  /-- The files that cannot be written, each with the reason. -/
  unwritable : List (Place × WriteFault) := []
  deriving Repr

namespace Tree

/-- What stands at a place.  The top directory is always there. -/
def get? (t : Tree) (p : Place) : Option Entry :=
  if p = [] then some .directory
  else (t.entries.find? fun e => e.1 == p).map Prod.snd

/-- Puts an entry at a place. -/
def put (t : Tree) (p : Place) (e : Entry) : Tree :=
  { t with entries := (p, e) :: t.entries.filter fun old => old.1 != p }

/-- What was put at a place stands there. -/
theorem get?_put (t : Tree) {p : Place} (hp : p ≠ []) (e : Entry) :
    (t.put p e).get? p = some e := by
  simp [get?, put, hp]

/-- Putting an entry at a place changes no other place. -/
theorem get?_put_of_ne (t : Tree) {p q : Place} (hq : q ≠ p) (e : Entry) :
    (t.put p e).get? q = t.get? q := by
  have same : (fun old : Place × Entry => decide ((old.1 != p) = true ∧ (old.1 == q) = true))
      = fun old => old.1 == q := by
    funext old
    by_cases ho : old.1 = q
    · simp [ho, hq]
    · simp [ho]
  have head : (p == q) = false := beq_eq_false_iff_ne.2 (Ne.symm hq)
  rw [get?, get?, put]
  dsimp only
  rw [List.find?_cons, head, List.find?_filter, same]

/-- Is there a directory at the place? -/
def hasDirectory (t : Tree) (p : Place) : Bool := t.get? p == some .directory

/-- Is there a file at the place? -/
def hasFile (t : Tree) (p : Place) : Bool :=
  match t.get? p with
  | some (.file _) => true
  | _ => false

/-- Makes the directories along some names below a place. -/
def makeDirectories (t : Tree) (p : Place) : List Text → Tree
  | [] => t
  | name :: rest =>
      let q := p ++ [name]
      makeDirectories (if (t.get? q).isSome then t else t.put q .directory) q rest

/-- Writes a file, with the directories it needs. -/
def write (t : Tree) (p : Place) (content : Text) : Tree :=
  (t.makeDirectories [] p.dropLast).put p (.file content)

/-- The files of a tree: their places and contents. -/
def files (t : Tree) : List (Place × Text) :=
  t.entries.filterMap fun
    | (p, .file content) => some (p, content)
    | (_, .directory) => none

/-- The longest name, in bytes. -/
def longestName : Nat := 255

/-- The longest path, in bytes. -/
def longestPath : Nat := 4095

/-- Follows the names of a path from a place; each step needs a directory. -/
def walk (t : Tree) (p : Place) : List Text → Except Fault Place
  | [] => .ok p
  | name :: rest =>
      match t.get? p with
      | none => .error .missing
      | some (.file _) => .error .notDirectory
      | some .directory =>
          if name = [] ∨ name = Path.here then walk t p rest
          else if name = Path.above then walk t p.dropLast rest
          else if longestName < name.length then .error .tooLong
          else walk t (p ++ [name]) rest

/-- The place that a path leads to from a working directory, and what stands there.
    A working directory that was taken away is still a directory, an empty one, for
    whoever works in it. -/
def resolve (t : Tree) (cwd : Place) (path : Text) : Except Fault (Place × Entry) := do
  if path.contains 0 then throw .invalid
  if path = [] then throw .missing
  if longestPath < path.length then throw .tooLong
  let (t, start) := if Path.isAbsolute path then (t, []) else (t.makeDirectories [] cwd, cwd)
  let p ← t.walk start (Text.split Text.slash path)
  match t.get? p with
  | none => throw .missing
  | some e => return (p, e)

/-! ## Using files -/

/-- Why the file at a place cannot be read, if it cannot. -/
def readFault? (t : Tree) (p : Place) : Option Fault := t.unreadable.lookup p

/-- Why the file at a place cannot be written, if it cannot. -/
def writeFault? (t : Tree) (p : Place) : Option WriteFault := t.unwritable.lookup p

/-- Reads what stands at the place that a path leads to. -/
def read (t : Tree) (path : Text) (p : Place) : Entry → Except PathError Text
  | .directory => .error ⟨.read, path, .isDirectory⟩
  | .file content =>
      match t.readFault? p with
      | some fault => .error ⟨.opening, path, fault⟩
      | none => .ok content

/-- What the file at a place holds after a content was written to it; none if it keeps what it
    held. -/
def stored? (t : Tree) (p : Place) (content : Text) : Option Text :=
  match t.writeFault? p with
  | some fault => fault.left? content
  | none => some content

/-- Writes a content to the file at the place that a path leads to.  Tells why if that
    fails. -/
def overwrite (t : Tree) (path : Text) (p : Place) (content : Text) : Option PathError × Tree :=
  ((t.writeFault? p).map (WriteFault.error path),
    match t.stored? p content with
    | some s => t.put p (.file s)
    | none => t)

end Tree

/-- The place that a path names, told from its text alone. -/
def Place.ofPath (cwd : Place) (path : Text) : Place :=
  Path.follow true (if Path.isAbsolute path then [] else cwd) (Text.split Text.slash path)

end ImportBlock
