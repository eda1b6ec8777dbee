import ImportBlock.Optimize
import ImportBlock.Files.Tree
import ImportBlock.Run.Failure

/-! # The handling of one file

    A file is read, put in order and, in place, written back.  What the run says
    about it afterwards depends on the mode alone. -/

namespace ImportBlock

/-- What is done with a file that has been put in order. -/
inductive Mode where
  /-- Print it. -/
  | print
  /-- Write it back. -/
  | inPlace
  /-- Print a patch if it changed. -/
  | diff
  /-- Print its path if it changed. -/
  | check
  deriving DecidableEq, Repr

/-- The mode that three switches select: the last one set, and a failure if there is
    more than one. -/
def Mode.select (inPlace diff check : Bool) : Mode × Option Failure :=
  let mode : Mode := if check then .check else if diff then .diff else if inPlace then .inPlace
    else .print
  let count := inPlace.toNat + diff.toNat + check.toNat
  (mode, if 1 < count then some .conflictingModes else none)

/-- The outcome of handling one file. -/
structure Result where
  path : Text
  before : Text := []
  after : Text := []
  failure : Option Failure := none
  deriving DecidableEq, Repr

/-- Did putting the file in order change it? -/
def Result.changed (r : Result) : Bool := r.after != r.before

/-- Was the file handled without failure, and did that change it? -/
def Result.counted (r : Result) : Bool := r.failure.isNone && r.changed

/-- Was the file read?  One that could not be written back was. -/
def Result.wasRead (r : Result) : Bool :=
  match r.failure with
  | none | some (.unwritableFile _) => true
  | some _ => false

/-- The outcome for a text of the given name. -/
def Result.ofText (rules : Rules) (name src : Text) : Result :=
  { path := name, before := src, after := optimizeFile rules src }

/-- Handles the file at a path. -/
def processFile (rules : Rules) (mode : Mode) (t : Tree) (cwd : Place) (path : Text) :
    Result × Tree :=
  match t.resolve cwd path with
  | .error fault => ({ path, failure := some (.unreachableFile ⟨.stat, path, fault⟩) }, t)
  | .ok (p, e) =>
      match t.read path p e with
      | .error e => ({ path, failure := some (.unreadableFile e) }, t)
      | .ok src =>
          let r := Result.ofText rules path src
          if mode = .inPlace ∧ r.changed then
            let (failed, t) := t.overwrite path p r.after
            ({ r with failure := failed.map .unwritableFile }, t)
          else (r, t)

/-- Handles the files at some paths, one after the other. -/
def processEach (rules : Rules) (mode : Mode) (t : Tree) (cwd : Place) :
    List Text → List Result × Tree
  | [] => ([], t)
  | path :: rest =>
      let (r, t) := processFile rules mode t cwd path
      let (rs, t) := processEach rules mode t cwd rest
      (r :: rs, t)

namespace Result

/-- What was noted while the file was put in order. -/
def optimizerEvents (rules : Rules) (r : Result) : List Event :=
  if r.wasRead then (notes rules r.before).map fun n => .log n.record else []

/-- What is said about a file that was handled; `lib` compares the texts of a patch, and
    `single` tells whether the file was named rather than found. -/
def outcomeEvents (lib : Diff.Library) (mode : Mode) (single : Bool) (r : Result) : List Event :=
  match mode with
  | .print =>
      if single then [.print .file { text := r.after }]
      else if r.changed then [.tell .info (text "would rewrite " ++ r.path) []]
      else []
  | .inPlace =>
      if r.changed then [.tell .info (text "Processed") [("file", .text r.path)]]
      else [.tell .debug (text "Unchanged") [("file", .text r.path)]]
  | .diff =>
      if r.changed then
        (Diff.patch lib r.path r.before r.after).map fun l => .print .diff l.print
      else []
  | .check =>
      if r.changed then [.print .file { text := r.path ++ [Text.newline] }] else []

/-- What is logged about a file whose handling failed. -/
def complaint (r : Result) (e : Failure) : Record :=
  ⟨.main, .error, text "Error processing file",
    [("file", .text r.path), ("err", .text e.message)]⟩

/-- What is said about a file. -/
def events (lib : Diff.Library) (mode : Mode) (single : Bool) (r : Result) : List Event :=
  match r.failure with
  | some e => [.log (r.complaint e)]
  | none => r.outcomeEvents lib mode single

end Result

end ImportBlock
