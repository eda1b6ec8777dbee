import ImportBlock.Diff.Search
import ImportBlock.Text.Basic

/-! # The line diff of two texts

    Texts are compared line by line, where a line includes its line feed: a last
    line without one differs from the same line with one.

    The comparison is left to a library: it gives each line a symbol, finds a script for the
    two sequences of symbols, and spells the runs of the script as texts again.  `Library`
    says what such a library has to offer; `Library.standard` is one. -/

namespace ImportBlock.Diff

open Text

/-- A library that compares texts by their lines. -/
structure Library where
  /-- The symbols of the lines of two texts, and the lines that the symbols stand for. -/
  encode : Text → Text → List Nat × List Nat × List Text
  /-- A script that leads from one sequence of symbols to another. -/
  compare : List Nat → List Nat → Script Nat
  /-- The script with the lines in place of the symbols, each run as one text. -/
  decode : Script Nat → List Text → Script UInt8

/-- A line of a diff. -/
structure Line where
  op : Op
  text : Text
  deriving DecidableEq, Repr

/-- The lines of an edit: its text without one final line feed, split at the others. -/
def Edit.lines (e : Edit UInt8) : List Line :=
  (split newline (chopEnd newline e.items)).map fun l => ⟨e.op, l⟩

/-- The line diff of two texts. -/
def lineDiff (lib : Library) (before after : Text) : List Line :=
  let (a, b, lines) := lib.encode before after
  (lib.decode (lib.compare a b) lines).flatMap Edit.lines

/-- The line of the text before, counted from 1, at a position of the diff. -/
def lineNumber (ls : List Line) (i : Nat) : Nat :=
  (ls.take i).countP (fun l => l.op ≠ .insert) + 1

/-! ## A library -/

/-- The lines of a text with their line feeds. -/
def fullLines : Text → List Text
  | [] => []
  | b :: s =>
      if b = newline then [b] :: fullLines s
      else match fullLines s with
        | [] => [[b]]
        | line :: rest => (b :: line) :: rest

/-- Numbers lines by their place in a table, which grows by those that are not in it. -/
def numberLines (table : List Text) : List Text → List Nat × List Text
  | [] => ([], table)
  | line :: rest =>
      let i := table.idxOf line
      let (is, table) := numberLines (if i < table.length then table else table ++ [line]) rest
      (i :: is, table)

/-- A line of a table. -/
def tableLine (table : List Text) (i : Nat) : Text := table.getD i []

/-- The library that numbers the lines and searches for a short script. -/
def Library.standard : Library where
  encode before after :=
    let (a, table) := numberLines [] (fullLines before)
    let (b, table) := numberLines table (fullLines after)
    (a, b, table)
  compare := search
  decode s table := s.map fun e => ⟨e.op, e.items.flatMap (tableLine table)⟩

end ImportBlock.Diff
