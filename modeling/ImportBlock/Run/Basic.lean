import ImportBlock.Files.Discovery
import ImportBlock.Files.Project
import ImportBlock.Run.Result
import ImportBlock.Text.Size

/-! # Runs

    A run handles a list of files, everything found below a directory, or standard
    input.  All files are handled before anything is said about them, so an output
    that fails does not leave files half done. -/

namespace ImportBlock

/-- What a run is to do. -/
structure Job where
  rules : Rules := {}
  /-- The extensions of the files looked for in directories. -/
  extensions : List Text := []
  mode : Mode := .print
  /-- What compares the texts of a patch. -/
  library : Diff.Library := .standard

/-- Where a run prints to. -/
structure Output where
  /-- Does the output show colours? -/
  colour : Bool := false
  /-- The writes it takes before it fails. -/
  capacity : Capacity := none
  /-- Why later writes fail. -/
  reason : Text := []
  deriving Repr

/-- The outcome of a run. -/
structure Outcome where
  records : List Record := []
  out : Text := []
  tree : Tree := {}
  failure : Option Failure := none
  deriving Repr

/-- The outcome of saying some events and then coming to a verdict. -/
def Output.conclude (o : Output) (t : Tree) (events : List Event) (verdict : Option Failure) :
    Outcome :=
  let d := deliver o.colour o.capacity events
  { records := d.records, out := d.out, tree := t,
    failure := match d.failed with
      | some purpose => some (.write purpose o.reason)
      | none => verdict }

/-- The closing words of a run over files. -/
def summary (rs : List Result) : Event :=
  let failed := rs.countP fun r => r.failure.isSome
  let size := ((rs.filter Result.counted).map fun r => r.after.length).foldl (· + ·) 0
  let counted := text "Processed " ++ Text.ofNat (rs.length - failed)
    ++ text " files successfully (" ++ Text.ofSize size ++ text " rewritten)"
  .tell .info
    (if failed = 0 then counted else counted ++ text ", " ++ Text.ofNat failed
      ++ text " files had errors") []

/-- What a run over files comes to if everything could be said. -/
def verdict (mode : Mode) (rs : List Result) : Option Failure :=
  let failed := rs.countP fun r => r.failure.isSome
  let changed := rs.countP Result.counted
  if 0 < failed then some (.filesFailed failed)
  else if mode = .check ∧ 0 < changed then some (.filesChanged changed)
  else none

namespace Job

/-- Handles a list of files; `single` tells whether a lone file was named. -/
def runEach (job : Job) (o : Output) (cancelled single : Bool) (t : Tree) (cwd : Place)
    (paths : List Text) : Outcome :=
  if paths = [] then { tree := t }
  else if cancelled then { tree := t, failure := some .cancelled }
  else
    let (rs, t) := processEach job.rules job.mode t cwd paths
    o.conclude t
      (rs.flatMap (Result.optimizerEvents job.rules)
        ++ rs.flatMap (Result.events job.library job.mode single) ++ [summary rs])
      (verdict job.mode rs)

/-- Handles a list of files. -/
def runFiles (job : Job) (o : Output) (cancelled : Bool) (t : Tree) (cwd : Place)
    (paths : List Text) : Outcome :=
  job.runEach o cancelled (paths.length = 1) t cwd paths

/-- Handles a text that is read from elsewhere under a name. -/
def runReader (job : Job) (o : Output) (t : Tree) (name : Text) (input : Except Text Text) :
    Outcome :=
  if job.mode = .inPlace then { tree := t, failure := some .inPlaceStdin }
  else match input with
    | .error reason => { tree := t, failure := some (.unreadableInput reason) }
    | .ok src =>
        let r := Result.ofText job.rules name src
        o.conclude t (r.optimizerEvents job.rules ++ r.outcomeEvents job.library job.mode true)
          (verdict job.mode [r])

/-- The path that stands for standard input. -/
def stdinPath : Text := text "-"

/-- The name that standard input goes by. -/
def stdinName : Text := text "<stdin>"

/-- What is said before a directory is searched. -/
def directoryEvents (job : Job) : List Event :=
  if job.mode = .print then
    [.tell .warn
      (text "Processing directory without --in-place flag. No files will be modified.") [],
     .tell .info
      (text "Use --in-place, --diff or --check, or specify a single file for stdout output.") []]
  else []

/-- What is said about the files found in a directory. -/
def foundEvents (t : Tree) (cwd : Place) (path : Text) (files : List Text) : List Event :=
  if files = [] then
    [.tell .info (text "No source files found in directory") [("dir", .text path)]]
  else
    .tell .info (text "Found source files") [("count", .int files.length), ("dir", .text path)]
      :: match t.projectRoot cwd path with
        | some root => [.tell .debug (text "Project root") [("dir", .text root.path)]]
        | none => []

/-- Handles everything found below a directory. -/
def runDirectory (job : Job) (o : Output) (cancelled : Bool) (t : Tree) (cwd : Place)
    (path : Text) : Outcome :=
  let told (events : List Event) : List Record := (deliver o.colour none events).records
  match t.sourceFiles cwd job.extensions path with
  | .error e =>
      { records := told job.directoryEvents, tree := t, failure := some (.findFiles e) }
  | .ok files =>
      let before := told (job.directoryEvents ++ foundEvents t cwd path files)
      let rest := job.runEach o cancelled false t cwd files
      { rest with records := before ++ rest.records }

/-- Handles a file, a directory or standard input. -/
def runPath (job : Job) (o : Output) (cancelled : Bool) (t : Tree) (cwd : Place)
    (stdin : Except Text Text) (path : Text) : Outcome :=
  if path = stdinPath then job.runReader o t stdinName stdin
  else match t.resolve cwd path with
    | .error fault => { tree := t, failure := some (.checkPath ⟨.stat, path, fault⟩) }
    | .ok (_, .file _) => job.runEach o cancelled true t cwd [path]
    | .ok (_, .directory) => job.runDirectory o cancelled t cwd path

end Job

end ImportBlock
