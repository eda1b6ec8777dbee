/-! # Edit scripts

    A script turns one sequence into another: it is a list of runs that are
    deleted, kept or inserted.  `before` and `after` read the two sequences back. -/

namespace ImportBlock.Diff

/-- What happens to a run of items. -/
inductive Op where
  | delete
  | equal
  | insert
  deriving DecidableEq, Repr

/-- A run of items and what happens to it. -/
structure Edit (α : Type) where
  op : Op
  items : List α
  deriving DecidableEq, Repr

/-- A sequence of edits. -/
abbrev Script (α : Type) := List (Edit α)

variable {α : Type}

/-- The sequence that a script starts from. -/
def Script.before (s : Script α) : List α :=
  s.flatMap fun e => if e.op = .insert then [] else e.items

/-- The sequence that a script ends in. -/
def Script.after (s : Script α) : List α :=
  s.flatMap fun e => if e.op = .delete then [] else e.items

/-- A script after another starts from both starts. -/
theorem Script.before_append (s t : Script α) : Script.before (s ++ t) = s.before ++ t.before :=
  List.flatMap_append

/-- A script after another ends in both ends. -/
theorem Script.after_append (s t : Script α) : Script.after (s ++ t) = s.after ++ t.after :=
  List.flatMap_append

/-- A kept run, left out if it is empty. -/
def keep (items : List α) : Script α := if items.isEmpty then [] else [⟨.equal, items⟩]

/-- Everything goes and everything comes. -/
def replace (a b : List α) : Script α := [⟨.delete, a⟩, ⟨.insert, b⟩]

/-! ## Common ends -/

variable [DecidableEq α]

/-- The length of the longest common start. -/
def commonStart : List α → List α → Nat
  | x :: a, y :: b => if x = y then commonStart a b + 1 else 0
  | _, _ => 0

/-- The length of the longest common end. -/
def commonEnd (a b : List α) : Nat := commonStart a.reverse b.reverse

/-- The positions at which a sequence starts inside another, counted from `i`. -/
def occurrencesFrom (part : List α) : Nat → List α → List Nat
  | _, [] => []
  | i, x :: s =>
      if part.isPrefixOf (x :: s) then i :: occurrencesFrom part (i + 1) s
      else occurrencesFrom part (i + 1) s

/-- The positions at which a sequence starts inside another. -/
def occurrences (part s : List α) : List Nat := occurrencesFrom part 0 s

end ImportBlock.Diff
