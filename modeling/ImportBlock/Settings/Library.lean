import ImportBlock.Files.Tree
import ImportBlock.Settings.Basic

/-! # The library that settings are read with

    Settings are gathered by a library.  A program registers what it knows: the default of
    each key, the flags that keys are bound to, and how the environment variable of a key
    is named.  The library reads a settings file, gives each registered key its value, and
    converts values.  `Settings.Library` says what such a library has to offer;
    `Settings.Library.standard` is one. -/

namespace ImportBlock

/-- What a program registers. -/
structure Registry where
  /-- The keys, each with its default. -/
  defaults : List (Text × Value) := []
  /-- The keys that are bound to flags, each with the value of its flag if that was given. -/
  bound : List (Text × Option Value) := []
  /-- What the names of environment variables start with. -/
  variablePrefix : Text := []
  /-- What is replaced in the name of an environment variable. -/
  rename : Text → Text := id

namespace Registry

/-- The keys that are registered. -/
def keys (r : Registry) : List Text := r.defaults.map Prod.fst ++ r.bound.map Prod.fst

/-- The value of the flag that a key is bound to, if it was given. -/
def flag? (r : Registry) (key : Text) : Option Value := (r.bound.lookup key).join

/-- The environment variable of a key: the prefix and the key in capitals. -/
def variableName (r : Registry) (key : Text) : Text :=
  r.rename (Text.upper (r.variablePrefix ++ text "_" ++ key))

end Registry

/-- Everything that the values of settings come from. -/
structure Sources where
  registry : Registry := {}
  /-- The environment variables. -/
  environment : List (Text × Text) := []
  /-- The entries of the settings file. -/
  file : List (Text × Value) := []

/-- Where a settings file is looked for. -/
inductive FileSource where
  /-- At a path. -/
  | named (path : Text)
  /-- In some directories, under a name with any type added, and read as of a type. -/
  | searched (name type : Text) (dirs : List Text)
  deriving DecidableEq, Repr

/-- Why a settings file cannot be read. -/
inductive FileError where
  /-- None of the directories has one. -/
  | notFound
  | unsupportedType (type : Text)
  /-- There is nothing that decodes files of the type. -/
  | noDecoder (type : Text)
  | path (e : PathError)
  | malformed
  deriving DecidableEq, Repr

/-- A file error in words. -/
def FileError.message : FileError → Text
  | .notFound => text "no config file was found"
  | .unsupportedType type => text "unsupported file type " ++ Text.quoted type
  | .noDecoder type => text "no decoder for the file type " ++ Text.quoted type
  | .path e => e.message
  | .malformed => text "the file is malformed"

/-- A library that gathers settings. -/
structure Settings.Library where
  /-- The entries of the settings file, looked for from a working directory and with the
      environment. -/
  readFile : Tree → Place → List (Text × Text) → FileSource →
    Except FileError (List (Text × Value))
  /-- The value of a registered key, if all of them can be gathered. -/
  value? : Sources → Text → Option Value
  /-- A value as a switch. -/
  toBool? : Value → Option Bool
  /-- A value as an integer. -/
  toInt? : Value → Option Int
  /-- A value as a text. -/
  toText? : Value → Option Text
  /-- A value as a list of texts. -/
  toTexts? : Value → Option (List Text)

end ImportBlock
