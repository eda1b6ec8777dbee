import ImportBlock.CommandLine.Flag
import ImportBlock.Settings.Standard

/-! # Loading settings

    The program registers its keys with their defaults, the flags that they are bound to,
    and how their environment variables are named.  The library does the rest, and the
    settings that come out of it are checked. -/

namespace ImportBlock

/-- Why settings cannot be loaded. -/
inductive LoadError where
  /-- The file cannot be read. -/
  | unreadable (e : FileError)
  /-- A value cannot be converted to what its setting needs. -/
  | unconvertible
  /-- The settings are not valid. -/
  | invalid (e : SettingsError)
  deriving DecidableEq, Repr

/-- A load error in words. -/
def LoadError.message : LoadError → Text
  | .unreadable e => text "failed to read config file: " ++ e.message
  | .unconvertible => text "failed to unmarshal config: a value has the wrong type"
  | .invalid e => text "invalid configuration: " ++ e.message

/-! ## What is registered -/

/-- The keys that flags stand for. -/
def flagKeys : List (Text × Text) :=
  [("sort", "rules.sort_imports"), ("dedupe", "rules.remove_duplicates"),
    ("merge", "rules.merge_imports"), ("keep-malformed", "rules.keep_malformed"),
    ("log-level", "logging.level"), ("jobs", "processing.jobs")].map
      fun (name, key) => (text name, text key)

/-- The extensions of source files, if nobody says otherwise. -/
def defaultExtensions : List Text :=
  [".js", ".jsx", ".mjs", ".cjs", ".ts", ".tsx", ".mts", ".cts"].map text

/-- The defaults of all keys. -/
def settingDefaults : List (Text × Value) :=
  [(text "rules.sort_imports", .bool false), (text "rules.remove_duplicates", .bool false),
    (text "rules.merge_imports", .bool false), (text "rules.keep_malformed", .bool false),
    (text "logging.level", .text (text "warn")),
    (text "processing.extensions", .list (defaultExtensions.map .text)),
    (text "processing.jobs", .int 0)]

/-- The name of a settings file without its type. -/
def settingsName : Text := text ".esio"

/-- The type that a settings file is read as if it was searched for. -/
def settingsType : Text := text "yaml"

/-- What the environment variables of settings start with. -/
def variablePrefix : Text := text "ESIO"

/-- A name with underscores in place of dots. -/
def underscored (name : Text) : Text := name.map fun b => if b = Text.dot then 95 else b

/-- The flags that a command line may give, and the values of those that it gives. -/
structure FlagSet where
  known : List Flag
  /-- The last one that was given stands first. -/
  given : List (Text × Value) := []

/-- Is there a flag of the name? -/
def FlagSet.knows (fs : FlagSet) (name : Text) : Bool := fs.known.any fun f => f.name == name

/-- The keys that are bound to flags: those whose flag the command line knows. -/
def boundKeys (fs : FlagSet) : List (Text × Option Value) :=
  (flagKeys.filter fun e => fs.knows e.1).map fun (name, key) => (key, fs.given.lookup name)

/-- What the program registers; without a command line no key is bound. -/
def registry (flags : Option FlagSet) : Registry where
  defaults := settingDefaults
  bound := (flags.map boundKeys).getD []
  variablePrefix := variablePrefix
  rename := underscored

/-! ## Loading -/

/-- Where the settings file is looked for: at a path, or in directories if that is empty. -/
def fileSource (path : Text) (dirs : List Text) : FileSource :=
  if path ≠ [] then .named path else .searched settingsName settingsType (dirs.filter (· ≠ []))

namespace Settings.Library

/-- The entries of the settings file.  There are none if there is no file to be found, or
    nowhere to look for one. -/
def entries (lib : Settings.Library) (t : Tree) (cwd : Place) (path : Text) (dirs : List Text)
    (environment : List (Text × Text)) : Except FileError (List (Text × Value)) :=
  if path ≠ [] ∨ dirs ≠ [] then
    match lib.readFile t cwd environment (fileSource path dirs) with
    | .error .notFound => .ok []
    | .error e => .error e
    | .ok es => .ok es
  else .ok []

/-- The settings that the sources choose, if all values can be gathered and converted. -/
def choose? (lib : Settings.Library) (s : Sources) : Option Settings := do
  let value? (k : Setting) : Option Value := lib.value? s k.path
  return {
    rules := {
      sort := ← lib.toBool? (← value? .sort)
      dedupe := ← lib.toBool? (← value? .dedupe)
      merge := ← lib.toBool? (← value? .merge)
      keepMalformed := ← lib.toBool? (← value? .keepMalformed) }
    level := ← lib.toText? (← value? .level)
    jobs := ← lib.toInt? (← value? .jobs)
    extensions := ← lib.toTexts? (← value? .extensions) }

end Settings.Library

/-- Loads the settings of a run. -/
def loadSettings (lib : Settings.Library) (t : Tree) (cwd : Place) (path : Text)
    (dirs : List Text) (flags : Option FlagSet) (environment : List (Text × Text)) :
    Except LoadError Settings := do
  let file ← (lib.entries t cwd path dirs environment).mapError .unreadable
  match lib.choose? { registry := registry flags, environment, file } with
  | none => throw .unconvertible
  | some s => s.validate.mapError .invalid

end ImportBlock
