import ImportBlock.CommandLine.Basic
import ImportBlock.Files.Discovery

/-! # The program

    The outer layer of the command: it takes a picture of the files that a call may
    look at, carries out the call on it, and writes back what changed.  A file that cannot
    be read or written does not end the program, nor does an input that cannot be read: the
    call is told of it. -/

namespace ImportBlock

/-- The bytes of a text. -/
def Text.bytes (t : Text) : ByteArray := ⟨t.toArray⟩

/-- A text as a string of the operating system. -/
def Text.osString (t : Text) : String := (String.fromUTF8? t.bytes).getD ""

/-- The names from the top directory down to a path of the operating system. -/
def Place.ofOsPath (path : String) : Place := Place.ofPath [] (text path)

/-- The path of a place for the operating system. -/
def Place.osPath (p : Place) : String := p.path.osString

/-- An error of the operating system as a reason. -/
def Fault.ofOsError : IO.Error → Fault
  | .permissionDenied .. => .refused (text "permission denied")
  | e => .refused (text (toString e))

/-- Adds what stands at a place to a picture of the files.  A file that cannot be read is
    marked so. -/
def photograph (t : Tree) (p : Place) : IO Tree := do
  let path := (← IO.currentDir) / p.osPath
  if ← path.isDir then return t.makeDirectories [] p
  else if ← path.pathExists then
    try
      let content ← IO.FS.readBinFile path
      return t.write p content.data.toList
    catch e =>
      let t := t.write p []
      return { t with unreadable := (p, .ofOsError e) :: t.unreadable }
  else return t

/-- Adds everything at and below a place to a picture of the files, directories that
    are never searched left out. -/
partial def photographAll (t : Tree) (p : Place) : IO Tree := do
  let t ← photograph t p
  if t.hasDirectory p then
    let mut t := t
    for entry in ← ((← IO.currentDir) / p.osPath).readDir do
      let name := text entry.fileName
      if !(isSkipped name && (← entry.path.isDir)) then
        t ← photographAll t (p ++ [name])
    return t
  else return t

/-- Adds the directories at and above a place, and the files in them that settings
    or projects are found by, to a picture of the files. -/
def photographAbove (t : Tree) (p : Place) : IO Tree := do
  let mut t := t
  for n in List.range (p.length + 1) do
    let dir := p.take n
    t ← photograph t dir
    for name in projectMarker :: fileNames settingsName do
      t ← photograph t (dir ++ [name])
  return t

/-- The environment variables that stand for settings, and those that the paths of some
    places are spelled with. -/
def readEnvironment (places : List Place) : IO (List (Text × Text)) := do
  let keys := Setting.all.map Setting.path ++ Section.all.map Section.key
  let names := keys.map (registry none).variableName
    ++ Path.homeVariable.drop 1 :: places.flatMap fun p => Path.variableNames p.path
  names.filterMapM fun name => do
    return (← IO.getEnv name.osString).map fun value => (name, text value)

/-- Does the terminal show colours? -/
def terminalShowsColour : IO Bool := do
  let off := (← IO.getEnv "NO_COLOR").any (· ≠ "")
  let dumb := (← IO.getEnv "TERM") == some "dumb"
  return !off && !dumb && (← (← IO.getStdout).isTty)

/-- Gathers what a run with the given arguments may look at. -/
def gatherRun (call : Call) (a : Arguments) : IO Call := do
  let cwd := call.cwd
  let mut call := call
  let mut t ← photographAbove {} cwd
  let mut places := [cwd]
  for path in a.operands do
    if path = Job.stdinPath then
      let stdin : Except Text Text ←
        try pure (.ok (← (← IO.getStdin).readBinToEnd).data.toList)
        catch e => pure (.error (text (toString e)))
      call := { call with stdin }
    else
      let p := Place.ofPath cwd path
      places := p :: places
      t ← photographAbove t p
      t ← photographAll t p
  let settings := a.textOf (text "config")
  if settings ≠ [] then
    let p := Place.ofPath cwd settings
    t ← photographAbove t p.dropLast
    t ← photograph t p
  let environment ← readEnvironment places
  for dir in t.settingsPlaces cwd Path.here do
    t ← photographAbove t (Place.ofPath cwd (Path.expand environment dir.path))
  return { call with tree := t, environment, colour := ← terminalShowsColour }

/-- Gathers everything around a call of the command. -/
def gatherCall (args : List Text) : IO Call := do
  let call : Call := { args, cwd := Place.ofOsPath (← IO.currentDir).toString }
  match Request.ofArgs args with
  | (.run, args) =>
      match Arguments.read Command.flags args with
      | .ok a => gatherRun call a
      | .error _ => return call
  | _ => return call

/-- Writes a file, and tells why if that fails. -/
def writeBack? (p : Place) (content : Text) : IO (Option WriteFault) := do
  let opened ← try pure (Except.ok (← IO.FS.Handle.mk p.osPath .write)) catch e => pure (.error e)
  match opened with
  | .error e => return some (.closed (.ofOsError e))
  | .ok handle =>
      try
        handle.write content.bytes
        handle.flush
        return none
      catch e =>
        let left ← try IO.FS.readBinFile p.osPath catch _ => pure ByteArray.empty
        return some (.cutShort left.size (.ofOsError e))

/-- Writes the files back that changed, and gives those that could not be written. -/
def writeBack (before after : Tree) : IO (List (Place × WriteFault)) := do
  let changed := after.files.filter fun (p, content) => before.get? p != some (.file content)
  changed.filterMapM fun (p, content) => do
    return (← writeBack? p content).map fun fault => (p, fault)

end ImportBlock

open ImportBlock in
/-- The command-line program.  What it says about files that could not be written comes from
    a run that knows of them. -/
def main (args : List String) : IO UInt32 := do
  let call ← gatherCall (args.map text)
  let ending := call.execute
  let unwritable ← writeBack call.tree ending.tree
  let ending :=
    if unwritable.isEmpty then ending
    else Call.execute { call with tree := { call.tree with unwritable } }
  (← IO.getStdout).write ending.stdout.bytes
  (← IO.getStderr).write ending.stderr.bytes
  return ending.status
