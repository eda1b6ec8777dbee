import ImportBlock.Diff.Script

/-! # Tidy scripts

    A script put together from parts may hold neighbouring runs that belong
    together.  `gather` joins each stretch of deletions and insertions into one
    deletion and one insertion, and moves what the two share at their ends into the
    kept runs around them.  `slide` moves an edit that stands alone between two kept
    runs over one of them where that makes the kept run disappear.  `tidy` repeats
    both until nothing slides any more. -/

namespace ImportBlock.Diff

variable {α : Type} [DecidableEq α]

/-- A stretch of deletions and insertions between two kept runs. -/
structure Stretch (α : Type) where
  deletions : Nat := 0
  insertions : Nat := 0
  deleted : List α := []
  inserted : List α := []

namespace Stretch

/-- One edit for the deletions and one for the insertions, if there are any. -/
def edits (s : Stretch α) : Script α :=
  (if s.deletions = 0 then [] else [⟨.delete, s.deleted⟩])
    ++ (if s.insertions = 0 then [] else [⟨.insert, s.inserted⟩])

end Stretch

/-- Adds kept items after a script, to its last run if that is kept. -/
def keepAfter (s : Script α) (items : List α) : Script α :=
  match s.getLast? with
  | some ⟨.equal, last⟩ => s.dropLast ++ [⟨.equal, last ++ items⟩]
  | _ => s ++ [⟨.equal, items⟩]

/-- Joins a stretch and the kept run after it to the script so far. -/
def settle (done : Script α) (s : Stretch α) (kept : List α) : Script α :=
  if s.deletions + s.insertions = 0 then keepAfter done kept
  else if s.deletions = 0 ∨ s.insertions = 0 then done ++ s.edits ++ [⟨.equal, kept⟩]
  else
    let start := commonStart s.inserted s.deleted
    let done := if start = 0 then done else keepAfter done (s.inserted.take start)
    let deleted := s.deleted.drop start
    let inserted := s.inserted.drop start
    let shared := commonEnd inserted deleted
    let rest (items : List α) := items.take (items.length - shared)
    done ++ [⟨.delete, rest deleted⟩, ⟨.insert, rest inserted⟩,
      ⟨.equal, inserted.drop (inserted.length - shared) ++ kept⟩]

/-- Walks over a script, collecting stretches and settling each at the next kept run. -/
def gatherFrom (done : Script α) (s : Stretch α) : Script α → Script α
  | [] => done ++ s.edits
  | ⟨.delete, items⟩ :: rest =>
      gatherFrom done
        { s with deletions := s.deletions + 1, deleted := s.deleted ++ items } rest
  | ⟨.insert, items⟩ :: rest =>
      gatherFrom done
        { s with insertions := s.insertions + 1, inserted := s.inserted ++ items } rest
  | ⟨.equal, items⟩ :: rest => gatherFrom (settle done s items) {} rest

/-- Drops a final run that is empty. -/
def dropEmptyEnd (s : Script α) : Script α :=
  match s.getLast? with
  | some ⟨_, []⟩ => s.dropLast
  | _ => s

/-- Joins the edits between kept runs. -/
def gather (s : Script α) : Script α :=
  dropEmptyEnd (gatherFrom [] {} (s ++ [⟨.equal, []⟩]))

/-- Moves single edits over a neighbouring kept run.  Tells whether one moved. -/
def slide : Script α → Script α × Bool
  | e₁ :: e₂ :: e₃ :: rest =>
      if e₁.op = .equal ∧ e₃.op = .equal then
        if e₁.items.isSuffixOf e₂.items then
          let moved := e₁.items ++ e₂.items.take (e₂.items.length - e₁.items.length)
          let (tail, _) := slide (⟨.equal, e₁.items ++ e₃.items⟩ :: rest)
          (⟨e₂.op, moved⟩ :: tail, true)
        else if e₃.items.isPrefixOf e₂.items then
          let moved := e₂.items.drop e₃.items.length ++ e₃.items
          let (tail, _) := slide (⟨e₂.op, moved⟩ :: rest)
          (⟨.equal, e₁.items ++ e₃.items⟩ :: tail, true)
        else
          let (tail, moved) := slide (e₂ :: e₃ :: rest)
          (e₁ :: tail, moved)
      else
        let (tail, moved) := slide (e₂ :: e₃ :: rest)
        (e₁ :: tail, moved)
  | s => (s, false)
termination_by s => s.length

/-- Gathers and slides at most so many times. -/
def tidyWithin : Nat → Script α → Script α
  | 0, s => s
  | n + 1, s =>
      match slide (gather s) with
      | (s, true) => tidyWithin n s
      | (s, false) => s

/-- Gathers and slides until nothing moves.  Each slide takes a kept run away, so
    the number of rounds is bounded by the size of the script. -/
def tidy (s : Script α) : Script α :=
  tidyWithin ((s.map fun e => e.items.length + 2).foldl (· + ·) 0 + 2) s

end ImportBlock.Diff
