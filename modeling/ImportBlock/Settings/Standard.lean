import ImportBlock.Files.Project
import ImportBlock.Files.Variable
import ImportBlock.Settings.Json
import ImportBlock.Settings.Sources
import ImportBlock.Settings.Yaml.Document

/-! # A library that reads JSON and YAML

    A settings file is named, or found in one of some directories.  A named file is read by
    the type in its name, a found one as of the type that is asked for.  Files of other types
    than JSON and YAML are read by decoders that are added to the library. -/

namespace ImportBlock

/-- The types of settings files, in the order in which they are searched for. -/
def fileTypes : List Text :=
  ["json", "toml", "yaml", "yml", "properties", "props", "prop", "hcl", "tfvars", "dotenv", "env",
    "ini"].map text

/-- The names that a settings file is searched for under, in order. -/
def fileNames (name : Text) : List Text :=
  fileTypes.map (fun type => name ++ [Text.dot] ++ type) ++ [name]

/-- What decodes files of a type: the entries of a content, none if it is malformed. -/
abbrev Decoders := Text → Option (Text → Option (List (Text × Value)))

/-- What decodes JSON and YAML; other types are left to other decoders. -/
def decoder? (others : Decoders) : Decoders := fun type =>
  if type = text "json" then some Json.read?
  else if type = text "yaml" ∨ type = text "yml" then some Yaml.read?
  else others type

/-- Reads the content of a settings file of the given type. -/
def readSettings (others : Decoders) (type content : Text) :
    Except FileError (List (Text × Value)) :=
  match decoder? others type with
  | none => .error (.noDecoder type)
  | some decode =>
      match decode content with
      | some es => .ok es
      | none => .error .malformed

namespace Tree

/-- Reads the settings file at a path. -/
def settingsAt (others : Decoders) (t : Tree) (cwd : Place) (path : Text) :
    Except FileError (List (Text × Value)) :=
  let type := (Path.extension path).drop 1
  if fileTypes.contains type then
    match t.resolve cwd path with
    | .error fault => .error (.path ⟨.opening, path, fault⟩)
    | .ok (p, e) =>
        match t.read path p e with
        | .error e => .error (.path e)
        | .ok content => readSettings others type content
  else .error (.unsupportedType type)

/-- The place of a directory to be searched, named with variables.  A relative path
    has none if the working directory was taken away. -/
def searchPlace? (t : Tree) (cwd : Place) (environment : List (Text × Text)) (dir : Text) :
    Option Place :=
  let path := Path.expand environment dir
  if Path.isAbsolute path || (t.workingDirectory? cwd).isSome then some (Place.ofPath cwd path)
  else none

/-- What keeps a directory from being searched at all.  That it is missing, or that a
    file stands there, does not. -/
def searchError? (t : Tree) (name : Text) (dir : Place) : Option PathError :=
  let path := (dir ++ [name]).path
  match t.resolve [] path with
  | .error .missing | .error .notDirectory | .ok _ => none
  | .error fault => some ⟨.stat, path, fault⟩

/-- The place of the first settings file in some directories.  What stands at a place is
    looked up without spelling a path, so the names that are added need not fit in one. -/
def findSettings? (t : Tree) (name : Text) (dirs : List Place) : Option Place :=
  dirs.findSome? fun dir => (fileNames name).findSome? fun file =>
    if t.hasFile (dir ++ [file]) then some (dir ++ [file]) else none

/-- Reads the first settings file in some directories as a file of the given type. -/
def settingsBelow (others : Decoders) (t : Tree) (name type : Text) (places : List Place) :
    Except FileError (List (Text × Value)) :=
  match places.findSome? (t.searchError? name), t.findSettings? name places with
  | some e, _ => .error (.path e)
  | none, none => .error .notFound
  | none, some p =>
      match t.read p.path p ((t.get? p).getD .directory) with
      | .error e => .error (.path e)
      | .ok content => readSettings others type content

/-- Reads the settings file that is looked for. -/
def readFile (others : Decoders) (t : Tree) (cwd : Place) (environment : List (Text × Text)) :
    FileSource → Except FileError (List (Text × Value))
  | .named path => t.settingsAt others cwd path
  | .searched name type dirs =>
      t.settingsBelow others name type (dirs.filterMap (t.searchPlace? cwd environment))

end Tree

/-- The library with further decoders. -/
def Settings.Library.withDecoders (others : Decoders) : Settings.Library where
  readFile := Tree.readFile others
  value? := Sources.value?
  toBool? := Value.toBool?
  toInt? := Value.toInt?
  toText? := Value.toText?
  toTexts? := Value.toTexts?

/-- The library for JSON and YAML. -/
def Settings.Library.standard : Settings.Library := .withDecoders fun _ => none

end ImportBlock
