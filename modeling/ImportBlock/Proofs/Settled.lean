import Mathlib
import ImportBlock.Optimize
import ImportBlock.Proofs.Clause.Printing
import ImportBlock.Proofs.Text.Sorting

/-! # What the rules do to statements

    Statements are settled under the rules when the rules have nothing left to do:
    they are in order if the rules sort, and no two are of one module if the rules
    join (`Settled`).  The rules give settled statements, `Rules.settled_statements`,
    and leave settled statements alone, `Settled.statements_eq`.

    Joining and sorting make no name up: what holds of the parts of all clauses before
    holds of them after, `Rules.forall_statements`. -/

namespace ImportBlock

open Text

namespace Merge

/-! ## Joining clauses -/

theorem hasBinding_iff {bs : List Binding} {n : Text} :
    hasBinding bs n = true ↔ n ∈ bs.map Binding.name := by
  rw [hasBinding, List.any_eq_true, List.mem_map]
  constructor
  · rintro ⟨b, hb, heq⟩
    exact ⟨b, hb, eq_of_beq heq⟩
  · rintro ⟨b, hb, rfl⟩
    exact ⟨b, hb, beq_self_eq_true _⟩

theorem firstName_of {p : Text → Prop} {kept new : Text} (hkept : p kept) (hnew : p new) :
    p (firstName kept new) := by
  rw [firstName]
  split
  · exact hnew
  · exact hkept

theorem mem_of_mem_addBindings {kept bs : List Binding} {b : Binding}
    (h : b ∈ addBindings kept bs) : b ∈ kept ∨ b ∈ bs := by
  induction bs generalizing kept with
  | nil => exact Or.inl h
  | cons c bs ih =>
      rw [addBindings] at h
      split at h
      · rcases ih h with hb | hb
        · exact Or.inl hb
        · exact Or.inr (List.mem_cons_of_mem c hb)
      · rcases ih h with hb | hb
        · rcases List.mem_append.1 hb with hb | hb
          · exact Or.inl hb
          · rw [List.mem_singleton.1 hb]
            exact Or.inr List.mem_cons_self
        · exact Or.inr (List.mem_cons_of_mem c hb)

theorem nodup_addBindings {kept : List Binding} (bs : List Binding)
    (h : (kept.map Binding.name).Nodup) : ((addBindings kept bs).map Binding.name).Nodup := by
  induction bs generalizing kept with
  | nil => exact h
  | cons b bs ih =>
      rw [addBindings]
      split
      · exact ih h
      · rename_i hnew
        rw [hasBinding_iff] at hnew
        refine ih ?_
        rw [List.map_append, List.map_singleton]
        exact (List.perm_append_singleton _ _).nodup_iff.2 (List.nodup_cons.2 ⟨hnew, h⟩)

/-- Bindings of distinct names are all added. -/
theorem addBindings_eq_append {kept bs : List Binding}
    (h : ((kept ++ bs).map Binding.name).Nodup) : addBindings kept bs = kept ++ bs := by
  induction bs generalizing kept with
  | nil => exact (List.append_nil kept).symm
  | cons b bs ih =>
      have hnew : ¬ hasBinding kept b.name = true := by
        intro hmem
        rw [hasBinding_iff] at hmem
        rw [List.map_append] at h
        exact (List.nodup_append.1 h).2.2 b.name hmem b.name List.mem_cons_self rfl
      rw [← List.singleton_append, ← List.append_assoc] at h
      rw [addBindings, if_neg hnew, ih h, List.append_assoc, List.singleton_append]

/-- A clause whose named bindings have distinct names is taken over as it is. -/
theorem joinClause_empty {c : Clause} (h : (c.named.map Binding.name).Nodup) :
    joinClause {} c = c := by
  show (⟨c.defaultName, c.namespaceName, addBindings [] c.named⟩ : Clause) = c
  have hnamed : addBindings [] c.named = [] ++ c.named := addBindings_eq_append h
  rw [hnamed]
  rfl

/-! ## Collecting statements -/

theorem sources_add (gs : List Statement) (s : Statement) :
    (add gs s).map Statement.source =
      if s.source ∈ gs.map Statement.source then gs.map Statement.source
      else gs.map Statement.source ++ [s.source] := by
  induction gs with
  | nil => rfl
  | cons g gs ih =>
      rw [add]
      by_cases hg : g.source = s.source
      · have hmem : s.source ∈ (g :: gs).map Statement.source := by
          rw [← hg]
          exact List.mem_cons_self
        rw [if_pos hg, if_pos hmem]
        rfl
      · have hmem : s.source ∈ (g :: gs).map Statement.source
            ↔ s.source ∈ gs.map Statement.source := by
          rw [List.map_cons, List.mem_cons]
          exact or_iff_right fun heq => hg heq.symm
        rw [if_neg hg, List.map_cons, ih]
        by_cases hs : s.source ∈ gs.map Statement.source
        · rw [if_pos hs, if_pos (hmem.2 hs)]
          rfl
        · rw [if_neg hs, if_neg fun h => hs (hmem.1 h)]
          rfl

theorem add_of_not_mem {gs : List Statement} {s : Statement}
    (h : s.source ∉ gs.map Statement.source) :
    add gs s = gs ++ [⟨s.source, joinClause {} s.clause⟩] := by
  induction gs with
  | nil => rfl
  | cons g gs ih =>
      rw [List.map_cons, List.mem_cons, not_or] at h
      rw [add, if_neg fun heq => h.1 heq.symm, ih h.2]
      rfl

/-- Whatever holds of no statements and is kept when a statement is added holds of the
    statements that are collected. -/
theorem groups_of_add {p : List Statement → Prop} {ds : List Declaration} (hnil : p [])
    (hadd : ∀ d ∈ ds, ∀ gs, p gs → p (add gs d.statement)) : p (groups ds) := by
  have hrun : ∀ gs, p gs → p (ds.foldl (fun gs d => add gs d.statement) gs) := by
    induction ds with
    | nil =>
        intro gs h
        exact h
    | cons d ds ih =>
        intro gs h
        refine ih (fun e he => hadd e (List.mem_cons_of_mem d he)) _ ?_
        exact hadd d List.mem_cons_self gs h
  exact hrun [] hnil

theorem nodup_sources_add {gs : List Statement} (s : Statement)
    (h : (gs.map Statement.source).Nodup) : ((add gs s).map Statement.source).Nodup := by
  rw [sources_add]
  split
  · exact h
  · rename_i hnew
    exact (List.perm_append_singleton _ _).nodup_iff.2 (List.nodup_cons.2 ⟨hnew, h⟩)

/-- There is one statement for each module. -/
theorem nodup_sources_groups (ds : List Declaration) :
    ((groups ds).map Statement.source).Nodup := by
  refine groups_of_add (p := fun gs => (gs.map Statement.source).Nodup) List.nodup_nil ?_
  intro d _ gs h
  exact nodup_sources_add d.statement h

/-- Statements of different modules are kept as they are. -/
theorem groups_eq_map {ds : List Declaration} (hsources : (ds.map Declaration.source).Nodup)
    (hnames : ∀ d ∈ ds, (d.clause.named.map Binding.name).Nodup) :
    groups ds = ds.map Declaration.statement := by
  -- the statements collected so far and those still to come are of different modules
  have hstep : ∀ (gs : List Statement),
      (gs.map Statement.source ++ ds.map Declaration.source).Nodup →
      ds.foldl (fun gs d => add gs d.statement) gs = gs ++ ds.map Declaration.statement := by
    clear hsources
    induction ds with
    | nil => exact fun gs _ => (List.append_nil gs).symm
    | cons d ds ih =>
        intro gs h
        have hnew : d.statement.source ∉ gs.map Statement.source := fun hmem =>
          (List.nodup_append.1 h).2.2 _ hmem _ List.mem_cons_self rfl
        have hclause : joinClause {} d.statement.clause = d.statement.clause :=
          joinClause_empty (hnames d List.mem_cons_self)
        have hadd : add gs d.statement = gs ++ [d.statement] := by
          rw [add_of_not_mem hnew, hclause]
        have hnodup : ((gs ++ [d.statement]).map Statement.source
            ++ ds.map Declaration.source).Nodup := by
          rw [List.map_append, List.append_assoc]
          exact h
        rw [List.foldl_cons, hadd, ih (fun e he => hnames e (List.mem_cons_of_mem d he)) _ hnodup,
          List.append_assoc]
        rfl
  exact hstep [] hsources

end Merge

/-! ## Settled statements -/

/-- The rules have nothing left to do. -/
structure Settled (r : Rules) (gs : List Statement) : Prop where
  sorted : r.sort = true → SortedOn Statement.source gs
  apart : r.merge = true → (gs.map Statement.source).Nodup
  named : r.merge = true → r.sort = true → ∀ g ∈ gs, SortedOn Binding.name g.clause.named

theorem Merge.sources_sorted_perm (gs : List Statement) :
    ((sorted gs).map Statement.source).Perm (gs.map Statement.source) := by
  rw [sorted, List.map_map]
  exact (sortOn_perm Statement.source gs).map Statement.source

/-- **The rules settle statements.** -/
theorem Rules.settled_statements (r : Rules) (ds : List Declaration) :
    Settled r (r.statements ds) := by
  rw [statements]
  cases hmerge : r.merge with
  | true =>
      rw [if_pos rfl, Merge.statements]
      have hgroups := Merge.nodup_sources_groups ds
      cases hsort : r.sort with
      | true =>
          rw [if_pos rfl]
          refine ⟨fun _ => ?_, fun _ => ?_, fun _ _ g hg => ?_⟩
          · exact (sortedOn_map Merge.sortNamed).2 (sortedOn_sortOn Statement.source _)
          · exact (Merge.sources_sorted_perm _).nodup_iff.2 hgroups
          · obtain ⟨s, -, rfl⟩ := List.mem_map.1 hg
            exact sortedOn_sortOn Binding.name _
      | false =>
          rw [if_neg Bool.false_ne_true]
          refine ⟨fun h => ?_, fun _ => hgroups, fun _ h => ?_⟩
          · rw [hsort] at h
            cases h
          · rw [hsort] at h
            cases h
  | false =>
      rw [if_neg Bool.false_ne_true, Flat.statements]
      refine ⟨fun hsort => ?_, fun h => ?_, fun h => ?_⟩
      · rw [hsort, if_pos rfl]
        exact (sortedOn_map Declaration.statement).2 (sortedOn_sortOn Declaration.source _)
      · rw [hmerge] at h
        cases h
      · rw [hmerge] at h
        cases h

namespace Settled

variable {r : Rules}

theorem sublist {gs gs' : List Statement} (h : Settled r gs) (hsub : gs'.Sublist gs) :
    Settled r gs' where
  sorted := fun hsort => (h.sorted hsort).sublist hsub
  apart := fun hmerge => (h.apart hmerge).sublist (hsub.map Statement.source)
  named := fun hmerge hsort g hg => h.named hmerge hsort g (hsub.subset hg)

/-- **The rules leave settled statements alone**, unless they drop copies. -/
theorem statements_eq {ds : List Declaration} (h : Settled r (ds.map Declaration.statement))
    (hnames : ∀ d ∈ ds, (d.clause.named.map Binding.name).Nodup)
    (hr : r.merge = true ∨ r.dedupe = false) :
    r.statements ds = ds.map Declaration.statement := by
  rw [Rules.statements]
  cases hmerge : r.merge with
  | true =>
      have hsources : (ds.map Declaration.source).Nodup := by
        have hapart := h.apart hmerge
        rw [List.map_map] at hapart
        exact hapart
      rw [if_pos rfl, Merge.statements, Merge.groups_eq_map hsources hnames]
      cases hsort : r.sort with
      | true =>
          rw [if_pos rfl, Merge.sorted, sortOn_eq_self (h.sorted hsort)]
          calc (ds.map Declaration.statement).map Merge.sortNamed
              = (ds.map Declaration.statement).map id := by
                refine List.map_congr_left ?_
                intro s hs
                rw [Merge.sortNamed, sortOn_eq_self (h.named hmerge hsort s hs)]
                rfl
            _ = ds.map Declaration.statement := List.map_id _
      | false => exact if_neg Bool.false_ne_true
  | false =>
      have hdedupe : r.dedupe = false := hr.resolve_left (by rw [hmerge]; exact Bool.false_ne_true)
      rw [if_neg Bool.false_ne_true, Flat.statements, hdedupe, if_neg Bool.false_ne_true]
      cases hsort : r.sort with
      | true =>
          have hsorted : SortedOn Declaration.source ds :=
            (sortedOn_map Declaration.statement).1 (h.sorted hsort)
          rw [if_pos rfl, sortOn_eq_self hsorted]
      | false => rw [if_neg Bool.false_ne_true]

end Settled

/-! ## What joining and sorting keep -/

/-- A property of clauses that joining and sorting keep. -/
structure Clause.Kept (p : Clause → Prop) : Prop where
  empty : p {}
  join {a b : Clause} : p a → p b → p (Merge.joinClause a b)
  sort {c : Clause} : p c → p { c with named := sortOn Binding.name c.named }

theorem Merge.forall_add {p : Statement → Prop} {gs : List Statement} {s : Statement}
    (hgs : ∀ g ∈ gs, p g) (hnew : p ⟨s.source, joinClause {} s.clause⟩)
    (hjoin : ∀ g ∈ gs, g.source = s.source → p ⟨g.source, joinClause g.clause s.clause⟩) :
    ∀ g ∈ add gs s, p g := by
  induction gs with
  | nil =>
      intro g hg
      rw [List.mem_singleton.1 hg]
      exact hnew
  | cons h gs ih =>
      have hrest := fun g hg => hgs g (List.mem_cons_of_mem h hg)
      intro g hg
      rw [add] at hg
      split at hg
      · rename_i hsource
        rcases List.mem_cons.1 hg with rfl | hg
        · exact hjoin h List.mem_cons_self hsource
        · exact hrest g hg
      · rcases List.mem_cons.1 hg with rfl | hg
        · exact hgs g List.mem_cons_self
        · exact ih hrest (fun g hg => hjoin g (List.mem_cons_of_mem h hg)) g hg

theorem Merge.forall_groups {p : Text → Prop} {q : Clause → Prop} (hq : Clause.Kept q)
    {ds : List Declaration} (h : ∀ d ∈ ds, p d.source ∧ q d.clause) :
    ∀ g ∈ groups ds, p g.source ∧ q g.clause := by
  refine groups_of_add (p := fun gs => ∀ g ∈ gs, p g.source ∧ q g.clause) (by simp) ?_
  intro d hd gs hgs
  obtain ⟨hsource, hclause⟩ := h d hd
  refine forall_add hgs ⟨hsource, hq.join hq.empty hclause⟩ ?_
  intro g hg _
  exact ⟨(hgs g hg).1, hq.join (hgs g hg).2 hclause⟩

theorem Flat.mem_of_mem_firstCopies {seen : List Text} {ds : List Declaration} {d : Declaration}
    (h : d ∈ firstCopies seen ds) : d ∈ ds := by
  induction ds generalizing seen with
  | nil => exact h
  | cons e ds ih =>
      rw [firstCopies] at h
      split at h
      · exact List.mem_cons_of_mem e (ih h)
      · rcases List.mem_cons.1 h with rfl | h
        · exact List.mem_cons_self
        · exact List.mem_cons_of_mem e (ih h)

/-- Kept apart, statements are those of declarations. -/
theorem Flat.exists_of_mem_statements {removeCopies sort : Bool} {ds : List Declaration}
    {g : Statement} (hg : g ∈ statements removeCopies sort ds) : ∃ d ∈ ds, d.statement = g := by
  obtain ⟨d, hd, rfl⟩ := List.mem_map.1 hg
  have hkept : d ∈ (if removeCopies = true then firstCopies [] ds else ds) := by
    split at hd
    · exact (sortOn_perm Declaration.source _).mem_iff.1 hd
    · exact hd
  split at hkept
  · exact ⟨d, mem_of_mem_firstCopies hkept, rfl⟩
  · exact ⟨d, hkept, rfl⟩

/-- **What holds of all declarations holds of the statements made of them.** -/
theorem Rules.forall_statements (r : Rules) {p : Text → Prop} {q : Clause → Prop}
    (hq : Clause.Kept q) {ds : List Declaration} (h : ∀ d ∈ ds, p d.source ∧ q d.clause) :
    ∀ g ∈ r.statements ds, p g.source ∧ q g.clause := by
  intro g hg
  rw [statements] at hg
  split at hg
  · rw [Merge.statements] at hg
    split at hg
    · obtain ⟨s, hs, rfl⟩ := List.mem_map.1 hg
      have hs := (sortOn_perm Statement.source _).mem_iff.1 hs
      obtain ⟨hsource, hclause⟩ := Merge.forall_groups hq h s hs
      exact ⟨hsource, hq.sort hclause⟩
    · exact Merge.forall_groups hq h g hg
  · obtain ⟨d, hd, rfl⟩ := Flat.exists_of_mem_statements hg
    exact h d hd

namespace Clause

theorem Kept.of_iff {p q : Clause → Prop} (hp : Kept p) (h : ∀ c, p c ↔ q c) : Kept q where
  empty := (h _).1 hp.empty
  join := fun ha hb => (h _).1 (hp.join ((h _).2 ha) ((h _).2 hb))
  sort := fun hc => (h _).1 (hp.sort ((h _).2 hc))

theorem Kept.and {p q : Clause → Prop} (hp : Kept p) (hq : Kept q) :
    Kept fun c => p c ∧ q c where
  empty := ⟨hp.empty, hq.empty⟩
  join := fun ha hb => ⟨hp.join ha.1 hb.1, hq.join ha.2 hb.2⟩
  sort := fun hc => ⟨hp.sort hc.1, hq.sort hc.2⟩

/-- What holds of each default name, of each namespace name and of each binding holds of
    those of the joined clause. -/
theorem kept_each {p q : Text → Prop} {r : Binding → Prop} (hnil : p []) (hnil' : q []) :
    Kept fun c => p c.defaultName ∧ q c.namespaceName ∧ ∀ b ∈ c.named, r b where
  empty := ⟨hnil, hnil', by simp⟩
  join := by
    rintro a b ⟨hdefault, hnamespace, hnamed⟩ ⟨hdefault', hnamespace', hnamed'⟩
    refine ⟨Merge.firstName_of hdefault hdefault', Merge.firstName_of hnamespace hnamespace', ?_⟩
    intro d hd
    rcases Merge.mem_of_mem_addBindings hd with hd | hd
    · exact hnamed d hd
    · exact hnamed' d hd
  sort := by
    rintro c ⟨hdefault, hnamespace, hnamed⟩
    refine ⟨hdefault, hnamespace, ?_⟩
    intro d hd
    exact hnamed d ((sortOn_perm Binding.name c.named).mem_iff.1 hd)

/-- Names stay names. -/
theorem kept_names {p : Text → Prop} (hnil : p []) : Kept fun c => ∀ n ∈ c.names, p n := by
  refine (kept_each (p := p) (q := p) (r := fun b => ∀ n ∈ b.names, p n) hnil hnil).of_iff ?_
  intro c
  simp only [names, List.mem_cons, List.mem_flatMap, forall_eq_or_imp]
  refine and_congr_right fun _ => and_congr_right fun _ => ⟨?_, ?_⟩
  · rintro hnamed n ⟨b, hb, hn⟩
    exact hnamed b hb n hn
  · intro hnamed b hb n hn
    exact hnamed n ⟨b, hb, hn⟩

/-- Clauses that can be printed part by part stay so. -/
theorem kept_spelled : Kept Spelled := by
  refine (kept_each (p := fun n => n = [] ∨ Part n) (q := fun n => n = [] ∨ Part n)
    (r := Binding.Spelled) (Or.inl rfl) (Or.inl rfl)).of_iff ?_
  intro c
  constructor
  · rintro ⟨hdefault, hnamespace, hnamed⟩
    exact ⟨hdefault, hnamespace, hnamed⟩
  · intro h
    exact ⟨h.defaultName, h.namespaceName, h.named⟩

/-- Names that are distinct stay distinct. -/
theorem kept_nodup : Kept fun c => (c.named.map Binding.name).Nodup where
  empty := List.nodup_nil
  join := fun ha _ => Merge.nodup_addBindings _ ha
  sort := fun hc => ((sortOn_perm Binding.name _).map Binding.name).nodup_iff.2 hc

/-- Printable clauses stay printable. -/
theorem kept_printable : Kept Printable := by
  refine ((kept_each (p := PlainName) (q := PlainName) (r := Binding.Printable) plainName_nil
    plainName_nil).and kept_nodup).of_iff ?_
  intro c
  constructor
  · rintro ⟨⟨hdefault, hnamespace, hnamed⟩, hnodup⟩
    exact ⟨hdefault, hnamespace, hnamed, hnodup⟩
  · intro h
    exact ⟨⟨h.defaultName, h.namespaceName, h.named⟩, h.nodup⟩

end Clause

end ImportBlock
