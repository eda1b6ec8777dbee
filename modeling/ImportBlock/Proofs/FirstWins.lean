import Mathlib
import ImportBlock.Proofs.Joining

/-! # The first of each kind wins

    Statements are joined step by step, into a list that grows while it is changed.  What
    comes out can be said without the steps: a module gets the first default and the first
    namespace binding that its declarations have, and of each name the first binding
    (`FirstWins`).  Sorting moves bindings and modules and changes none of that.

    `first_of_each_kind_wins` says so for every list of declarations, with the order in
    which modules and bindings stand. -/

namespace ImportBlock

open Text

namespace Merge

/-- The declarations of one module, in order. -/
def declarationsOf (ds : List Declaration) (source : Text) : List Declaration :=
  ds.filter fun d => d.source = source

/-- The named bindings of one module, in order of appearance. -/
def bindingsOf (ds : List Declaration) (source : Text) : List Binding :=
  (declarationsOf ds source).flatMap fun d => d.clause.named

/-- The first name that is there; the empty text if none is. -/
def firstPresent (names : List Text) : Text := (names.find? fun n => n ≠ []).getD []

/-- The statement of a module holds the first of each kind and nothing else. -/
structure FirstWins (ds : List Declaration) (g : Statement) : Prop where
  defaultName : g.clause.defaultName
    = firstPresent ((declarationsOf ds g.source).map fun d => d.clause.defaultName)
  namespaceName : g.clause.namespaceName
    = firstPresent ((declarationsOf ds g.source).map fun d => d.clause.namespaceName)
  named (b : Binding) : b ∈ g.clause.named
    ↔ (bindingsOf ds g.source).find? (fun c => c.name = b.name) = some b
  apart : (g.clause.named.map Binding.name).Nodup

/-! ## Names -/

theorem foldl_firstName (kept : Text) (names : List Text) :
    names.foldl firstName kept = if kept = [] then firstPresent names else kept := by
  induction names generalizing kept with
  | nil =>
      by_cases hkept : kept = []
      · simp [hkept, firstPresent]
      · simp [hkept]
  | cons n names ih =>
      rw [List.foldl_cons, ih]
      by_cases hkept : kept = []
      · by_cases hn : n = []
        · simp [firstName, hkept, hn, firstPresent]
        · simp [firstName, hkept, hn, firstPresent]
      · simp [firstName, hkept]

/-! ## Bindings -/

theorem addBindings_concat (kept bs : List Binding) (b : Binding) :
    addBindings kept (bs ++ [b])
      = if hasBinding (addBindings kept bs) b.name then addBindings kept bs
        else addBindings kept bs ++ [b] := addBindings_append kept bs [b]

/-- Names stand in the order in which they first appear. -/
theorem names_addBindings (bs : List Binding) :
    (addBindings [] bs).map Binding.name = (bs.map Binding.name).eraseDups := by
  induction bs using List.reverseRecOn with
  | nil => rfl
  | append_singleton bs b ih =>
      have hmem : hasBinding (addBindings [] bs) b.name = true ↔ b.name ∈ bs.map Binding.name := by
        rw [hasBinding_iff, ih, List.mem_eraseDups]
      rw [addBindings_concat, List.map_append, List.map_singleton, eraseDups_concat]
      by_cases hb : b.name ∈ bs.map Binding.name
      · rw [if_pos (hmem.2 hb), if_pos hb, ih]
      · rw [if_neg fun h => hb (hmem.1 h), if_neg hb, List.map_append, ih, List.map_singleton]

/-- **The first binding of each name is kept**, and no other. -/
theorem mem_addBindings_iff_find? (bs : List Binding) (b : Binding) :
    b ∈ addBindings [] bs ↔ bs.find? (fun c => c.name = b.name) = some b := by
  induction bs using List.reverseRecOn with
  | nil => simp [addBindings]
  | append_singleton bs c ih =>
      have hmem : hasBinding (addBindings [] bs) c.name = true ↔ c.name ∈ bs.map Binding.name := by
        rw [hasBinding_iff, names_addBindings, List.mem_eraseDups]
      rw [addBindings_concat, List.find?_append]
      cases hfind : bs.find? (fun c => c.name = b.name) with
      | some a =>
          -- the name has appeared: the last binding is not the first of it
          have ha : a.name = b.name := by simpa using List.find?_some hfind
          have hb : b.name ∈ bs.map Binding.name :=
            List.mem_map.2 ⟨a, List.mem_of_find?_eq_some hfind, ha⟩
          rw [Option.some_or, ← hfind]
          split
          · exact ih
          · rename_i hnew
            rw [List.mem_append, List.mem_singleton, ih]
            refine or_iff_left ?_
            rintro rfl
            exact hnew (hmem.2 hb)
      | none =>
          have hb : b ∉ addBindings [] bs := by
            rw [ih, hfind]
            exact Option.some_ne_none b ∘ Eq.symm
          rw [Option.none_or]
          by_cases hc : c.name = b.name
          · -- the last binding is the first of its name
            have hnew : ¬ hasBinding (addBindings [] bs) c.name = true := by
              rw [hmem]
              intro h
              obtain ⟨a, ha, hname⟩ := List.mem_map.1 h
              exact List.find?_eq_none.1 hfind a ha (decide_eq_true (hname.trans hc))
            rw [if_neg hnew, List.mem_append, List.mem_singleton, or_iff_right hb]
            simp [hc, eq_comm]
          · have hne : b ≠ c := fun heq => hc (congrArg Binding.name heq.symm)
            have hlast : b ∉ addBindings [] bs ++ [c] := by
              rw [List.mem_append, List.mem_singleton, not_or]
              exact ⟨hb, hne⟩
            split
            · simp [hb, hc]
            · simp [hlast, hc]

/-! ## Statements -/

theorem clausesOf_eq (ds : List Declaration) (source : Text) :
    clausesOf (ds.map Declaration.statement) source
      = (declarationsOf ds source).map Declaration.clause := by
  rw [clausesOf, List.filter_map, List.map_map]
  rfl

/-- The statement of a module, joined from its clauses. -/
theorem firstWins_joined (ds : List Declaration) (source : Text) :
    FirstWins ds ⟨source, joined (ds.map Declaration.statement) source⟩ := by
  rw [joined_eq, clausesOf_eq, List.map_map, List.map_map, List.flatMap_map]
  refine ⟨?_, ?_, ?_, ?_⟩
  · exact (foldl_firstName [] _).trans (if_pos rfl)
  · exact (foldl_firstName [] _).trans (if_pos rfl)
  · exact mem_addBindings_iff_find? _
  · exact nodup_addBindings _ List.nodup_nil

theorem firstWins_of_mem_groups {ds : List Declaration} {g : Statement} (hg : g ∈ groups ds) :
    FirstWins ds g := by
  rw [groups_eq] at hg
  obtain ⟨source, -, rfl⟩ := List.mem_map.1 hg
  exact firstWins_joined ds source

/-- The bindings of a module stand in order of first appearance until they are sorted. -/
theorem names_of_mem_groups {ds : List Declaration} {g : Statement} (hg : g ∈ groups ds) :
    g.clause.named.map Binding.name = ((bindingsOf ds g.source).map Binding.name).eraseDups := by
  rw [groups_eq] at hg
  obtain ⟨source, -, rfl⟩ := List.mem_map.1 hg
  rw [joined_eq, clausesOf_eq, List.flatMap_map]
  exact names_addBindings _

/-- Sorting the bindings moves them and does nothing else. -/
theorem FirstWins.sortNamed {ds : List Declaration} {g : Statement} (h : FirstWins ds g) :
    FirstWins ds (sortNamed g) where
  defaultName := h.defaultName
  namespaceName := h.namespaceName
  named := fun b => (sortOn_perm Binding.name g.clause.named).mem_iff.trans (h.named b)
  apart := ((sortOn_perm Binding.name g.clause.named).map Binding.name).nodup_iff.2 h.apart

/-- **Every statement holds the first of each kind**, sorted or not. -/
theorem firstWins_of_mem_statements {sort : Bool} {ds : List Declaration} {g : Statement}
    (hg : g ∈ statements sort ds) : FirstWins ds g := by
  rw [statements] at hg
  split at hg
  · obtain ⟨s, hs, rfl⟩ := List.mem_map.1 hg
    exact (firstWins_of_mem_groups ((sortOn_perm Statement.source _).mem_iff.1 hs)).sortNamed
  · exact firstWins_of_mem_groups hg

theorem sources_statements_perm (sort : Bool) (ds : List Declaration) :
    ((statements sort ds).map Statement.source).Perm (ds.map Declaration.source).eraseDups := by
  rw [← sources_groups, statements]
  split
  · exact sources_sorted_perm (groups ds)
  · exact List.Perm.refl _

theorem nodup_sources_statements (sort : Bool) (ds : List Declaration) :
    ((statements sort ds).map Statement.source).Nodup := by
  rw [(sources_statements_perm sort ds).nodup_iff, ← sources_groups]
  exact nodup_sources_groups ds

/-- **Joining keeps the first of each kind.**  There is one statement for each source of the
    declarations and no other, and it holds the first default, the first namespace and the
    first binding of each name.  Without sorting, sources and names stand in the order in
    which they first appear; with it, both are strictly ascending. -/
theorem first_of_each_kind_wins (sort : Bool) (ds : List Declaration) :
    ((statements sort ds).map Statement.source).Nodup
      ∧ (∀ source, source ∈ (statements sort ds).map Statement.source
        ↔ source ∈ ds.map Declaration.source)
      ∧ (∀ g ∈ statements sort ds, FirstWins ds g)
      ∧ (sort = false →
        (statements sort ds).map Statement.source = (ds.map Declaration.source).eraseDups
        ∧ ∀ g ∈ statements sort ds, g.clause.named.map Binding.name
          = ((bindingsOf ds g.source).map Binding.name).eraseDups)
      ∧ (sort = true →
        ((statements sort ds).map Statement.source).Pairwise (· < ·)
        ∧ ∀ g ∈ statements sort ds, (g.clause.named.map Binding.name).Pairwise (· < ·)) := by
  refine ⟨nodup_sources_statements sort ds, ?_, ?_, ?_, ?_⟩
  · intro source
    rw [(sources_statements_perm sort ds).mem_iff, List.mem_eraseDups]
  · intro g hg
    exact firstWins_of_mem_statements hg
  · rintro rfl
    exact ⟨sources_groups ds, fun g hg => names_of_mem_groups hg⟩
  · rintro rfl
    constructor
    · refine pairwise_lt_of_nodup (List.pairwise_map.2 ?_) (nodup_sources_statements true ds)
      exact (sortedOn_map sortNamed).2 (sortedOn_sortOn Statement.source (groups ds))
    · intro g hg
      refine pairwise_lt_of_nodup (List.pairwise_map.2 ?_) (firstWins_of_mem_statements hg).apart
      obtain ⟨s, -, rfl⟩ := List.mem_map.1 hg
      exact sortedOn_sortOn Binding.name s.clause.named

/-- Two modules by turns, with a default too many and names that come again in the same
    declaration and in another one. -/
def interleaved : List Declaration :=
  [⟨[], 0, ⟨text "b",
      ⟨text "x", [], [⟨text "p", []⟩, ⟨text "q", text "r"⟩, ⟨text "p", text "s"⟩]⟩⟩⟩,
    ⟨[], 1, ⟨text "a", ⟨[], text "n", []⟩⟩⟩,
    ⟨[], 2, ⟨text "b", ⟨text "y", text "m", [⟨text "c", []⟩, ⟨text "q", []⟩]⟩⟩⟩]

theorem first_of_each_kind_wins_interleaved :
    (statements false interleaved).map Statement.source = [text "b", text "a"]
      ∧ (∀ g ∈ statements true interleaved, (g.clause.named.map Binding.name).Pairwise (· < ·))
      ∧ FirstWins interleaved ⟨text "b", ⟨text "x", text "m",
          [⟨text "c", []⟩, ⟨text "p", []⟩, ⟨text "q", text "r"⟩]⟩⟩ := by
  obtain ⟨-, -, -, horder, -⟩ := first_of_each_kind_wins false interleaved
  obtain ⟨-, -, hwins, -, hsorted⟩ := first_of_each_kind_wins true interleaved
  refine ⟨(horder rfl).1, (hsorted rfl).2, hwins _ ?_⟩
  decide

end Merge

end ImportBlock
