import Mathlib
import ImportBlock.Proofs.Settled

/-! # One statement for each module

    The statements of one module are joined to one clause, step by step as they come.
    `Merge.groups_eq` says what the steps amount to: there is one statement for each
    source, in order of first appearance, and its clause is joined from the clauses
    of that source only (`Merge.joined`).  So modules do not influence each other.

    A joined clause is put together field by field, `Merge.joined_eq`: the first default
    and the first namespace binding that is there, and the first binding of each name. -/

namespace ImportBlock

open Text

namespace Merge

/-- The clauses of the statements of one module, in order. -/
def clausesOf (ss : List Statement) (source : Text) : List Clause :=
  (ss.filter fun s => s.source = source).map Statement.clause

/-- The clause that the statements of one module are joined to. -/
def joined (ss : List Statement) (source : Text) : Clause :=
  (clausesOf ss source).foldl joinClause {}

/-! ## Step by step -/

theorem joined_concat (ss : List Statement) (s : Statement) (source : Text) :
    joined (ss ++ [s]) source
      = if s.source = source then joinClause (joined ss source) s.clause else joined ss source := by
  rw [joined, clausesOf, List.filter_append, List.map_append, List.foldl_append]
  by_cases hs : s.source = source
  · rw [if_pos hs]
    simp [hs, joined, clausesOf]
  · rw [if_neg hs]
    simp [hs, joined, clausesOf]

theorem joined_of_not_mem {ss : List Statement} {source : Text}
    (h : source ∉ ss.map Statement.source) : joined ss source = {} := by
  have hnone : clausesOf ss source = [] := by
    rw [clausesOf, List.map_eq_nil_iff, List.filter_eq_nil_iff]
    intro s hs heq
    exact h (List.mem_map.2 ⟨s, hs, of_decide_eq_true heq⟩)
  rw [joined, hnone]
  rfl

theorem groups_append (ds es : List Declaration) :
    groups (ds ++ es) = es.foldl (fun gs d => add gs d.statement) (groups ds) :=
  List.foldl_append

theorem groups_concat (ds : List Declaration) (d : Declaration) :
    groups (ds ++ [d]) = add (groups ds) d.statement := by
  rw [groups, List.foldl_append]
  rfl

/-- The statement of a module that is there already is the only one that changes. -/
theorem add_of_mem {gs : List Statement} {s : Statement} (hnodup : (gs.map Statement.source).Nodup)
    (hmem : s.source ∈ gs.map Statement.source) :
    add gs s = gs.map fun g =>
      if g.source = s.source then ⟨g.source, joinClause g.clause s.clause⟩ else g := by
  induction gs with
  | nil => cases hmem
  | cons g gs ih =>
      obtain ⟨hg, hrest⟩ := List.nodup_cons.1 hnodup
      rw [add, List.map_cons]
      by_cases hs : g.source = s.source
      · -- no later statement is of this module
        have hsame : ∀ g' ∈ gs, g' = if g'.source = s.source
            then ⟨g'.source, joinClause g'.clause s.clause⟩ else g' := by
          intro g' hg'
          rw [if_neg]
          intro heq
          exact hg (List.mem_map.2 ⟨g', hg', heq.trans hs.symm⟩)
        rw [if_pos hs, if_pos hs, ← List.map_congr_left hsame, List.map_id']
      · have hmem' : s.source ∈ gs.map Statement.source := by
          rcases List.mem_cons.1 hmem with heq | hmem
          · exact absurd heq.symm hs
          · exact hmem
        rw [if_neg hs, if_neg hs, ih hrest hmem']

/-! ## All steps -/

theorem eraseDups_concat (xs : List Text) (x : Text) :
    (xs ++ [x]).eraseDups = if x ∈ xs then xs.eraseDups else xs.eraseDups ++ [x] := by
  rw [List.eraseDups_append]
  by_cases hx : x ∈ xs
  · simp [List.removeAll, hx]
  · simp [List.removeAll, hx, List.eraseDups_cons]

/-- Modules stand in the order in which they first appear. -/
theorem sources_groups (ds : List Declaration) :
    (groups ds).map Statement.source = (ds.map Declaration.source).eraseDups := by
  induction ds using List.reverseRecOn with
  | nil => rfl
  | append_singleton ds d ih =>
      rw [groups_concat, sources_add, ih, List.map_append, List.map_singleton, eraseDups_concat]
      exact if_congr List.mem_eraseDups rfl rfl

/-- **Modules are joined one by one.** -/
theorem groups_eq (ds : List Declaration) :
    groups ds = (ds.map Declaration.source).eraseDups.map fun source =>
      ⟨source, joined (ds.map Declaration.statement) source⟩ := by
  induction ds using List.reverseRecOn with
  | nil => rfl
  | append_singleton ds d ih =>
      have hsources : (ds.map Declaration.statement).map Statement.source
          = ds.map Declaration.source := List.map_map
      rw [groups_concat, List.map_append, List.map_append, List.map_singleton, List.map_singleton,
        eraseDups_concat]
      by_cases hd : d.source ∈ ds.map Declaration.source
      · have hmem : d.statement.source ∈ (groups ds).map Statement.source := by
          rw [sources_groups]
          exact List.mem_eraseDups.2 hd
        rw [if_pos hd, add_of_mem (nodup_sources_groups ds) hmem, ih, List.map_map]
        refine List.map_congr_left ?_
        intro source _
        rw [joined_concat, Function.comp_apply]
        by_cases hs : d.statement.source = source
        · rw [if_pos hs, if_pos hs.symm]
        · rw [if_neg hs, if_neg fun heq => hs heq.symm]
      · have hnot : d.statement.source ∉ (groups ds).map Statement.source := by
          rw [sources_groups]
          exact fun hmem => hd (List.mem_eraseDups.1 hmem)
        have hnew : joined (ds.map Declaration.statement ++ [d.statement]) d.source
            = joinClause {} d.statement.clause := by
          rw [joined_concat, if_pos (show d.statement.source = d.source from rfl),
            joined_of_not_mem (by rw [hsources]; exact hd)]
        rw [if_neg hd, add_of_not_mem hnot, ih, List.map_append, List.map_singleton, hnew]
        refine congrArg (· ++ _) (List.map_congr_left ?_)
        intro source hsource
        have hne : d.statement.source ≠ source := by
          rintro rfl
          exact hd (List.mem_eraseDups.1 hsource)
        rw [joined_concat, if_neg hne]

/-! ## Field by field -/

theorem addBindings_append (kept bs bs' : List Binding) :
    addBindings kept (bs ++ bs') = addBindings (addBindings kept bs) bs' := by
  induction bs generalizing kept with
  | nil => rfl
  | cons b bs ih =>
      rw [List.cons_append, addBindings, addBindings]
      split
      · exact ih kept
      · exact ih (kept ++ [b])

theorem foldl_joinClause (cs : List Clause) (kept : Clause) :
    cs.foldl joinClause kept =
      { defaultName := (cs.map Clause.defaultName).foldl firstName kept.defaultName
        namespaceName := (cs.map Clause.namespaceName).foldl firstName kept.namespaceName
        named := addBindings kept.named (cs.flatMap Clause.named) } := by
  induction cs generalizing kept with
  | nil => rfl
  | cons c cs ih =>
      rw [List.foldl_cons, ih, List.flatMap_cons, addBindings_append]
      rfl

/-- **A joined clause, field by field.** -/
theorem joined_eq (ss : List Statement) (source : Text) :
    joined ss source =
      { defaultName := ((clausesOf ss source).map Clause.defaultName).foldl firstName []
        namespaceName := ((clausesOf ss source).map Clause.namespaceName).foldl firstName []
        named := addBindings [] ((clausesOf ss source).flatMap Clause.named) } :=
  foldl_joinClause (clausesOf ss source) {}

end Merge

end ImportBlock
