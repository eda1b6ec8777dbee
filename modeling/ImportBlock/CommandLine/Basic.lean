import ImportBlock.CommandLine.Completion
import ImportBlock.CommandLine.LogLine
import ImportBlock.Run.Basic
import ImportBlock.Settings.Load
import ImportBlock.Version

/-! # The command

    A call of the command reads its arguments, loads the settings and runs.  Help
    wins over everything but a command line that cannot be read, then the version
    wins over the number of arguments.  A call may also ask for a completion script. -/

namespace ImportBlock

/-- Everything around a call of the command. -/
structure Call where
  args : List Text
  stdin : Except Text Text := .ok []
  environment : List (Text × Text) := []
  /-- Does the terminal show colours? -/
  colour : Bool := false
  cancelled : Bool := false
  tree : Tree := {}
  cwd : Place := []
  version : Version := {}
  /-- The script of each shell, with descriptions or without. -/
  scripts : Shell → Bool → Text := fun _ _ => []
  /-- What reads the settings. -/
  settings : Settings.Library := .standard
  /-- What compares the texts of a patch. -/
  diff : Diff.Library := .standard

/-- Why a call failed. -/
inductive CallError where
  | flags (e : FlagError)
  | operands (count : Nat)
  /-- Nothing may follow the name of a shell. -/
  | unknownCommand (name : Text) (s : Shell)
  | settings (e : LoadError)
  | run (e : Failure)
  deriving DecidableEq, Repr

/-- A failed call in words. -/
def CallError.message : CallError → Text
  | .flags e => e.message
  | .operands count => text "accepts 1 arg(s), received " ++ Text.ofNat count
  | .unknownCommand name s =>
      text "unknown command " ++ Text.quoted name ++ text " for " ++ Text.quoted s.path
  | .settings e => text "failed to load configuration: " ++ e.message
  | .run e => e.message

/-- The outcome of a call. -/
structure Ending where
  stdout : Text := []
  stderr : Text := []
  tree : Tree := {}
  error : Option CallError := none

/-- The exit status of a call. -/
def Ending.status (e : Ending) : UInt32 := if e.error.isSome then 1 else 0

namespace Call

/-- Ends a call with an error, which is also told to the user. -/
def fail (c : Call) (e : CallError) : Ending :=
  { tree := c.tree, error := some e, stderr := text "Error: " ++ e.message ++ [Text.newline] }

/-- The rules as the log shows them. -/
def showRules (r : Rules) : Text :=
  let switch (name : String) (on : Bool) : Text :=
    text name ++ text (if on then ":true" else ":false")
  [Text.braceOpen] ++ Text.join (text " ")
    [switch "SortImports" r.sort, switch "RemoveDuplicates" r.dedupe,
     switch "MergeImports" r.merge, switch "KeepMalformed" r.keepMalformed]
    ++ [Text.braceClose]

/-- What is noted about the settings. -/
def settingsRecord (s : Settings) : Record :=
  ⟨.main, .debug, text "loaded configuration",
    [("rules", .text (showRules s.rules)), ("jobs", .int s.jobs)]⟩

/-- The path whose project is searched for settings. -/
def searchPath (path : Text) : Text := if path = Job.stdinPath then Path.here else path

/-- Runs with the given settings. -/
def runWith (c : Call) (a : Arguments) (mode : Mode) (path : Text) (s : Settings) : Ending :=
  let job : Job := { rules := s.rules, extensions := s.extensions, mode, library := c.diff }
  let output : Output := { colour := c.colour && !a.isOn (text "no-color") }
  let o := job.runPath output c.cancelled c.tree c.cwd c.stdin path
  let log := Record.renderAll (Level.ofName s.level) (settingsRecord s :: o.records)
  let error := o.failure.map CallError.run
  { stdout := o.out, tree := o.tree, error
    stderr := log ++ match error with
      | some e => text "Error: " ++ e.message ++ [Text.newline]
      | none => [] }

/-- Runs on the path that the arguments name. -/
def runPath (c : Call) (a : Arguments) (path : Text) : Ending :=
  let on (name : String) : Bool := a.isOn (text name)
  match Mode.select (on "in-place") (on "diff") (on "check") with
  | (_, some e) => c.fail (.run e)
  | (mode, none) =>
      let dirs := (c.tree.settingsPlaces c.cwd (searchPath path)).map Place.path
      let flags : FlagSet := { known := Command.flags, given := a.flags }
      match loadSettings c.settings c.tree c.cwd (a.textOf (text "config")) dirs (some flags)
          c.environment with
      | .error e => c.fail (.settings e)
      | .ok s => c.runWith a mode path s

/-- Ends a call with a text for the user. -/
def tell (c : Call) (out : Text) : Ending := { stdout := out, tree := c.tree }

/-- Carries out a call that asks for a run. -/
def executeRun (c : Call) (args : List Text) : Ending :=
  match Arguments.read Command.flags args with
  | .error e => c.fail (.flags e)
  | .ok a =>
      if a.isOn (text "help") then c.tell Command.help
      else if a.isOn (text "version") then c.tell (c.version.render ++ [Text.newline])
      else match a.operands with
        | [path] => c.runPath a path
        | operands => c.fail (.operands operands.length)

/-- Carries out a call that asks for a script. -/
def executeScript (c : Call) (s : Shell) (args : List Text) : Ending :=
  match Arguments.read s.flags args with
  | .error e => c.fail (.flags e)
  | .ok a =>
      if a.isOn (text "help") then c.tell s.help
      else match a.operands with
        | [] => c.tell (c.scripts s (!a.isOn Shell.plainFlag.name))
        | name :: _ => c.fail (.unknownCommand name s)

/-- Carries out a call of the command. -/
def execute (c : Call) : Ending :=
  match Request.ofArgs c.args with
  | (.run, args) => c.executeRun args
  | (.script s, args) => c.executeScript s args
  | (.completion, args) =>
      match Arguments.read Completion.flags args with
      | .error e => c.fail (.flags e)
      | .ok _ => c.tell Completion.help

end Call

end ImportBlock
