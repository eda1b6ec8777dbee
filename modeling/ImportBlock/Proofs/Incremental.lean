import Mathlib
import ImportBlock.Proofs.FirstWins
import ImportBlock.Proofs.LineOrder

/-! # Joining bit by bit

    Declarations can be joined in portions: what has been joined stands for the declarations
    it was joined from, whatever comes after it.  Without sorting this is so because joining
    goes from left to right and leaves joined statements alone, `groups_of_joined`.

    With sorting the portion comes back in another order, modules and bindings alike.  That
    is a difference (`Reordered`) which each further step keeps, `Reordered.add`, and which
    the sorting at the end removes, `Reordered.sorted_eq`. -/

namespace ImportBlock

open Text

namespace Merge

/-! ## Joined statements -/

/-- What has been joined is left alone when it is joined again. -/
theorem groups_of_joined {sort : Bool} {ds js : List Declaration}
    (h : js.map Declaration.statement = statements sort ds) :
    groups js = statements sort ds := by
  have hsources : (js.map Declaration.source).Nodup := by
    have hnodup := nodup_sources_statements sort ds
    rw [← h, List.map_map] at hnodup
    exact hnodup
  have hnames : ∀ d ∈ js, (d.clause.named.map Binding.name).Nodup := by
    intro d hd
    have hmem : d.statement ∈ statements sort ds := h ▸ List.mem_map_of_mem hd
    exact (firstWins_of_mem_statements hmem).apart
  rw [groups_eq_map hsources hnames, h]

/-! ## Another order -/

/-- The same statements in another order, each with its bindings in another order. -/
structure Reordered (gs gs' : List Statement) : Prop where
  perm : (gs.map sortNamed).Perm (gs'.map sortNamed)
  apart : (gs.map Statement.source).Nodup
  named : ∀ g ∈ gs, (g.clause.named.map Binding.name).Nodup
  named' : ∀ g ∈ gs', (g.clause.named.map Binding.name).Nodup

theorem Reordered.sources {gs gs' : List Statement} (h : Reordered gs gs') :
    (gs.map Statement.source).Perm (gs'.map Statement.source) := by
  have hmap := h.perm.map Statement.source
  rw [List.map_map, List.map_map] at hmap
  exact hmap

/-- **Sorting removes the difference.** -/
theorem Reordered.sorted_eq {gs gs' : List Statement} (h : Reordered gs gs') :
    sorted gs = sorted gs' := by
  rw [Merge.sorted_eq, Merge.sorted_eq]
  refine sortOn_eq_of_perm h.perm ?_
  rw [List.map_map]
  exact h.apart

theorem sortNamed_sortNamed (g : Statement) : sortNamed (sortNamed g) = sortNamed g := by
  show (⟨_, ⟨_, _, sortOn Binding.name (sortOn Binding.name g.clause.named)⟩⟩ : Statement) = _
  rw [sortOn_eq_self (sortedOn_sortOn Binding.name g.clause.named)]
  rfl

theorem reordered_sorted {gs : List Statement} (hsources : (gs.map Statement.source).Nodup)
    (hnames : ∀ g ∈ gs, (g.clause.named.map Binding.name).Nodup) : Reordered (sorted gs) gs where
  perm := by
    rw [sorted, List.map_map]
    have hmap : (sortOn Statement.source gs).map (sortNamed ∘ sortNamed)
        = (sortOn Statement.source gs).map sortNamed :=
      List.map_congr_left fun g _ => sortNamed_sortNamed g
    rw [hmap]
    exact (sortOn_perm Statement.source gs).map sortNamed
  apart := (sources_sorted_perm gs).nodup_iff.2 hsources
  named := by
    intro g hg
    obtain ⟨s, hs, rfl⟩ := List.mem_map.1 hg
    have hperm := (sortOn_perm Binding.name s.clause.named).map Binding.name
    exact hperm.nodup_iff.2 (hnames s ((sortOn_perm Statement.source gs).mem_iff.1 hs))
  named' := hnames

/-! ## One more statement -/

/-- Which bindings are added does not depend on the order of those that are there. -/
theorem addBindings_perm {kept kept' : List Binding} (h : kept.Perm kept') (bs : List Binding) :
    (addBindings kept bs).Perm (addBindings kept' bs) := by
  induction bs generalizing kept kept' with
  | nil => exact h
  | cons b bs ih =>
      have hhas : hasBinding kept b.name = hasBinding kept' b.name := by
        rw [Bool.eq_iff_iff, hasBinding_iff, hasBinding_iff]
        exact (h.map Binding.name).mem_iff
      rw [addBindings, addBindings, hhas]
      split
      · exact ih h
      · exact ih (h.append_right [b])

/-- Bindings can be sorted before a clause is joined, if they are sorted after it. -/
theorem sortNamed_joinClause {g : Statement} (h : (g.clause.named.map Binding.name).Nodup)
    (c : Clause) :
    sortNamed ⟨g.source, joinClause (sortNamed g).clause c⟩
      = sortNamed ⟨g.source, joinClause g.clause c⟩ := by
  have hnamed : sortOn Binding.name (addBindings (sortOn Binding.name g.clause.named) c.named)
      = sortOn Binding.name (addBindings g.clause.named c.named) := by
    have hperm := sortOn_perm Binding.name g.clause.named
    refine sortOn_eq_of_perm (addBindings_perm hperm c.named) ?_
    exact nodup_addBindings c.named ((hperm.map Binding.name).nodup_iff.2 h)
  show (⟨_, ⟨_, _, sortOn Binding.name (addBindings (sortOn Binding.name g.clause.named) _)⟩⟩
    : Statement) = _
  rw [hnamed]
  rfl

/-- A statement after a further one was joined to it, if both are of one module. -/
def joinInto (s g : Statement) : Statement :=
  if g.source = s.source then ⟨g.source, joinClause g.clause s.clause⟩ else g

theorem sortNamed_joinInto {g : Statement} (h : (g.clause.named.map Binding.name).Nodup)
    (s : Statement) : sortNamed (joinInto s (sortNamed g)) = sortNamed (joinInto s g) := by
  show sortNamed (if g.source = s.source then _ else _)
    = sortNamed (if g.source = s.source then _ else _)
  split
  · exact sortNamed_joinClause h s.clause
  · exact sortNamed_sortNamed g

theorem nodup_names_add {gs : List Statement} (s : Statement)
    (h : ∀ g ∈ gs, (g.clause.named.map Binding.name).Nodup) :
    ∀ g ∈ add gs s, (g.clause.named.map Binding.name).Nodup := by
  refine forall_add h ?_ ?_
  · exact nodup_addBindings s.clause.named List.nodup_nil
  · intro g hg _
    exact nodup_addBindings s.clause.named (h g hg)

/-- **A further statement keeps the difference one of order.** -/
theorem Reordered.add {gs gs' : List Statement} (h : Reordered gs gs') (s : Statement) :
    Reordered (add gs s) (add gs' s) where
  perm := by
    by_cases hs : s.source ∈ gs.map Statement.source
    · -- the statement of its module changes, in both lists
      have hjoin : ∀ as : List Statement, (∀ g ∈ as, (g.clause.named.map Binding.name).Nodup) →
          (as.map (joinInto s)).map sortNamed
            = (as.map sortNamed).map fun g => sortNamed (joinInto s g) := by
        intro as has
        rw [List.map_map, List.map_map]
        refine List.map_congr_left ?_
        intro g hg
        exact (sortNamed_joinInto (has g hg) s).symm
      have hs' : s.source ∈ gs'.map Statement.source := h.sources.mem_iff.1 hs
      rw [add_of_mem h.apart hs, add_of_mem (h.sources.nodup_iff.1 h.apart) hs']
      show ((gs.map (joinInto s)).map sortNamed).Perm ((gs'.map (joinInto s)).map sortNamed)
      rw [hjoin gs h.named, hjoin gs' h.named']
      exact h.perm.map _
    · rw [add_of_not_mem hs, add_of_not_mem fun hs' => hs (h.sources.mem_iff.2 hs'),
        List.map_append, List.map_append]
      exact h.perm.append_right _
  apart := nodup_sources_add s h.apart
  named := nodup_names_add s h.named
  named' := nodup_names_add s h.named'

theorem Reordered.foldl_add {gs gs' : List Statement} (h : Reordered gs gs')
    (es : List Declaration) :
    Reordered (es.foldl (fun gs d => Merge.add gs d.statement) gs)
      (es.foldl (fun gs d => Merge.add gs d.statement) gs') := by
  induction es generalizing gs gs' with
  | nil => exact h
  | cons e es ih => exact ih (h.add e.statement)

/-- **Joining is incremental.**  Declarations that state what some declarations were joined
    to stand for these, before any further ones; and joined once more they stay as they are. -/
theorem joining_in_portions (sort : Bool) (ds es js : List Declaration)
    (hjoined : js.map Declaration.statement = statements sort ds) :
    statements sort (ds ++ es) = statements sort (js ++ es)
      ∧ statements sort js = js.map Declaration.statement := by
  have hmain : ∀ es : List Declaration,
      statements sort (ds ++ es) = statements sort (js ++ es) := by
    intro es
    rw [statements, statements, groups_append, groups_append, groups_of_joined hjoined, statements]
    cases sort with
    | false => rfl
    | true =>
        have hreordered : Reordered (sorted (groups ds)) (groups ds) :=
          reordered_sorted (nodup_sources_groups ds)
            fun g hg => (firstWins_of_mem_groups hg).apart
        exact ((hreordered.foldl_add es).sorted_eq).symm
  refine ⟨hmain es, ?_⟩
  have hnone := hmain []
  rw [List.append_nil, List.append_nil] at hnone
  rw [← hnone, hjoined]

/-- Two declarations of one module, with their names out of order, and one of another. -/
def firstPortion : List Declaration :=
  [⟨[], 0, ⟨text "b", ⟨[], [], [⟨text "q", text "r"⟩, ⟨text "p", []⟩]⟩⟩⟩,
    ⟨[], 1, ⟨text "a", ⟨[], text "n", []⟩⟩⟩,
    ⟨[], 2, ⟨text "b", ⟨text "x", [], [⟨text "c", []⟩]⟩⟩⟩]

/-- The first portion, joined and sorted, as if it had been found in a file. -/
def joinedPortion : List Declaration :=
  [⟨text "joined", 7, ⟨text "a", ⟨[], text "n", []⟩⟩⟩,
    ⟨text "joined", 7,
      ⟨text "b", ⟨text "x", [], [⟨text "c", []⟩, ⟨text "p", []⟩, ⟨text "q", text "r"⟩]⟩⟩⟩]

/-- A declaration that contradicts the first portion in part. -/
def secondPortion : List Declaration :=
  [⟨[], 3, ⟨text "b", ⟨text "y", text "m", [⟨text "q", []⟩, ⟨text "d", []⟩]⟩⟩⟩]

theorem joining_in_portions_secondPortion :
    joinedPortion.map Declaration.statement = statements true firstPortion
      ∧ statements true (firstPortion ++ secondPortion)
        = statements true (joinedPortion ++ secondPortion)
      ∧ statements true joinedPortion = joinedPortion.map Declaration.statement := by
  have hjoined : joinedPortion.map Declaration.statement = statements true firstPortion := by
    decide
  exact ⟨hjoined, joining_in_portions true firstPortion secondPortion joinedPortion hjoined⟩

end Merge

end ImportBlock
