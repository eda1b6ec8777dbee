import ImportBlock.Diff.Lines

/-! # Patches

    A diff is shown as a patch: a header, the changed lines with a few unchanged
    lines around them, and a marker with a line number after each run of unchanged
    lines that is left out. -/

namespace ImportBlock.Diff

open Text

/-- The number of unchanged lines shown around a change. -/
def contextLines : Nat := 3

/-- Marks what stands at most `context` places after a mark; `left` places are
    still to be marked for the last one seen. -/
def spread (context : Nat) : Nat → List Bool → List Bool
  | _, [] => []
  | _, true :: rest => true :: spread context context rest
  | 0, false :: rest => false :: spread context 0 rest
  | left + 1, false :: rest => true :: spread context left rest

/-- Which lines of a diff are shown: those near a change. -/
def visible (ls : List Line) : List Bool :=
  let changed := ls.map fun l => decide (l.op ≠ .equal)
  List.zipWith (· || ·) (spread contextLines 0 changed)
    (spread contextLines 0 changed.reverse).reverse

/-- A line of a patch. -/
inductive PatchLine where
  /-- The file that the patch is about. -/
  | header (path : Text)
  /-- The next shown line stands at this line of the text before. -/
  | marker (line : Nat)
  /-- A line of the diff. -/
  | line (l : Line)
  deriving DecidableEq, Repr

/-- The patch lines of a diff from a position on, where each line is given with whether it is
    shown; `skipped` tells whether the line before was left out. -/
def hunks (ls : List Line) : Nat → Bool → List (Line × Bool) → List PatchLine
  | _, _, [] => []
  | i, skipped, (l, shown) :: rest =>
      if shown then
        (if skipped then [.marker (lineNumber ls i)] else [])
          ++ .line l :: hunks ls (i + 1) false rest
      else hunks ls (i + 1) true rest

/-- The shown part of a diff. -/
def patchLines (ls : List Line) : List PatchLine := hunks ls 0 false (ls.zip (visible ls))

/-- The patch of a file that changed. -/
def patch (lib : Library) (path before after : Text) : List PatchLine :=
  .header path :: patchLines (lineDiff lib before after)

/-- The written form of a patch line, with its line feed. -/
def PatchLine.render : PatchLine → Text
  | .header path => text "--- " ++ path ++ text "\n+++ " ++ path ++ [newline]
  | .marker n => text "@@ line " ++ ofNat n ++ text " @@\n"
  | .line ⟨.delete, t⟩ => text "-" ++ t ++ [newline]
  | .line ⟨.insert, t⟩ => text "+" ++ t ++ [newline]
  | .line ⟨.equal, t⟩ => text " " ++ t ++ [newline]

end ImportBlock.Diff
