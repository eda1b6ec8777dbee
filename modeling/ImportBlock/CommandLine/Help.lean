import ImportBlock.Settings.Load

/-! # The flags of the command and its help -/

namespace ImportBlock
namespace Command

open Text

/-- The flags of the command, by name. -/
def flags : List Flag :=
  [⟨text "check", .switch, text "List files that would change and exit with an error if any", none⟩,
   ⟨text "config", .text, text "Path to a configuration file (default .esio.yaml)", none⟩,
   ⟨text "dedupe", .switch, text "Remove duplicate import lines", none⟩,
   ⟨text "diff", .switch, text "Print a diff of the changes instead of the rewritten file", none⟩,
   ⟨text "help", .switch, text "help for esio", some 104⟩,
   ⟨text "in-place", .switch, text "Modify files in place instead of printing to stdout", none⟩,
   ⟨text "jobs", .integer, text "Number of files processed in parallel (0 uses all CPUs)", none⟩,
   ⟨text "keep-malformed", .switch,
    text "Keep import lines that cannot be parsed instead of dropping them", none⟩,
   ⟨text "log-level", .text, text "Log level (debug, info, warn, error) (default \"warn\")", none⟩,
   ⟨text "merge", .switch, text "Merge imports of the same module into one statement", none⟩,
   ⟨text "no-color", .switch, text "Disable coloured output", none⟩,
   ⟨text "sort", .switch, text "Sort import statements and named imports by module source", none⟩,
   ⟨text "version", .switch, text "Show version information", some 118⟩]

/-- What the command does, for a reader. -/
def description : Text :=
  unlines <| [
    "esio is a command-line tool that normalizes the import block at the top of",
    "JavaScript and TypeScript files.",
    "",
    "Rules (all disabled by default):",
    "  --sort     order import statements by module source",
    "  --dedupe   drop repeated identical import lines",
    "  --merge    combine imports of the same module into one statement",
    "",
    "Only single-line \"import ... from '...'\" statements at the top of a file are rewritten;",
    "everything after the first other line is left untouched.",
    "",
    "PATH can be a single file, a directory or \"-\" for standard input. When a directory is",
    "specified, all source files in the directory and subdirectories are processed recursively.",
    "",
    "Rules can also be set in a .esio.yaml file in the working directory or the project root",
    "(the nearest directory with a package.json), or with ESIO_* environment variables."].map text

/-- The name of a flag with what it takes. -/
def flagColumn (f : Flag) : Text :=
  (match f.letter with
    | some c => text "  -" ++ [c] ++ text ", --"
    | none => text "      --")
    ++ f.name
    ++ match f.kind with
      | .switch => []
      | .integer => text " int"
      | .text => text " string"

/-- Two columns, the second one starting below itself. -/
def columns (gap : Text) (rows : List (Text × Text)) : Text :=
  let width := (rows.map fun r => r.1.length).foldl max 0
  unlines (rows.map fun (l, r) => l ++ List.replicate (width - l.length) 32 ++ gap ++ r)

/-- The lines of some flags, what they are for in one column. -/
def flagLines (fs : List Flag) : Text := columns (text "   ") (fs.map fun f => (flagColumn f, f.usage))

/-- The switch that asks for help. -/
def helpFlag (name : Text) : Flag := ⟨text "help", .switch, text "help for " ++ name, some 104⟩

/-- The help of the command. -/
def help : Text :=
  description ++ text "\n\nUsage:\n  esio [flags] PATH\n\nFlags:\n" ++ flagLines flags ++ [newline]

end Command
end ImportBlock
