import ImportBlock.Rules
import ImportBlock.Settings.Value
import ImportBlock.Text.Quoted
import ImportBlock.Trace

/-! # Settings

    The seven things that can be set, where each of them stands in a settings file, and
    what makes a choice of settings valid. -/

namespace ImportBlock

/-- The settings of a run. -/
structure Settings where
  rules : Rules := {}
  /-- The name of the log's level. -/
  level : Text
  /-- The number of files handled at a time, 0 for as many as there are processors. -/
  jobs : Int := 0
  /-- The extensions of source files. -/
  extensions : List Text
  deriving DecidableEq, Repr

/-- The level that a name stands for, in any case. -/
def Level.ofName? (name : Text) : Option Level :=
  let name := Text.lower name
  if name = text "debug" then some .debug
  else if name = text "info" then some .info
  else if name = text "warn" then some .warn
  else if name = text "error" then some .error
  else if name = text "fatal" then some .fatal
  else none

/-- The level of the log; an unknown name counts as `info`. -/
def Level.ofName (name : Text) : Level := (Level.ofName? name).getD .info

/-! ## Validity -/

/-- Why settings are not valid. -/
inductive SettingsError where
  | invalidLevel (name : Text)
  | negativeJobs (jobs : Int)
  | noExtensions
  deriving DecidableEq, Repr

/-- An invalid choice in words. -/
def SettingsError.message : SettingsError → Text
  | .invalidLevel name => text "invalid log level: " ++ Text.quoted name
  | .negativeJobs jobs => text "jobs must not be negative: " ++ Text.ofInt jobs
  | .noExtensions => text "at least one source extension is required"

/-- An extension with its dot. -/
def withDot (extension : Text) : Text :=
  if extension.head? = some Text.dot then extension else Text.dot :: extension

/-- Checks the level, the number of jobs and the extensions, in that order, and puts
    a dot before each extension that lacks one. -/
def Settings.validate (s : Settings) : Except SettingsError Settings :=
  if (Level.ofName? s.level).isNone then .error (.invalidLevel s.level)
  else if s.jobs < 0 then .error (.negativeJobs s.jobs)
  else if s.extensions = [] then .error .noExtensions
  else .ok { s with extensions := s.extensions.map withDot }

/-! ## The single settings -/

/-- A key with its section: the name of the section, a dot, and the name in the section. -/
def dotted (part name : Text) : Text := part ++ [Text.dot] ++ name

/-- The section of a dotted key. -/
def partOf (key : Text) : Text := key.takeWhile (· != Text.dot)

/-- The name of a dotted key in its section. -/
def nameOf (key : Text) : Text := (key.dropWhile (· != Text.dot)).drop 1

/-- One of the things that can be set. -/
inductive Setting where
  | sort
  | dedupe
  | merge
  | keepMalformed
  | level
  | extensions
  | jobs
  deriving DecidableEq, Repr

/-- A section of a settings file. -/
inductive Section where
  | rules
  | logging
  | processing
  deriving DecidableEq, Repr

/-- The key of a section. -/
def Section.key : Section → Text
  | .rules => text "rules"
  | .logging => text "logging"
  | .processing => text "processing"

/-- All sections. -/
def Section.all : List Section := [.rules, .logging, .processing]

namespace Setting

/-- All settings. -/
def all : List Setting := [.sort, .dedupe, .merge, .keepMalformed, .level, .extensions, .jobs]

/-- The section that a setting stands in. -/
def sectionOf : Setting → Section
  | .sort | .dedupe | .merge | .keepMalformed => .rules
  | .level => .logging
  | .extensions | .jobs => .processing

/-- The key of a setting in its section. -/
def key : Setting → Text
  | .sort => text "sort_imports"
  | .dedupe => text "remove_duplicates"
  | .merge => text "merge_imports"
  | .keepMalformed => text "keep_malformed"
  | .level => text "level"
  | .extensions => text "extensions"
  | .jobs => text "jobs"

/-- The section and the key of a setting. -/
def path (k : Setting) : Text := dotted k.sectionOf.key k.key

end Setting

end ImportBlock
