import Mathlib
import ImportBlock.Proofs.Joining
import ImportBlock.Proofs.Rewritten

/-! # The order of the import lines

    Joining keeps the first of each kind, so it depends on the order of the lines.  It
    does so only where two statements of one module contradict each other.  Without a
    contradiction (`Clause.Agrees`) a name that is kept is the same in every order, and
    sorting takes care of the order of bindings and modules: `optimize_perm`. -/

namespace ImportBlock

open Text

/-- Two clauses do not contradict each other. -/
structure Clause.Agrees (a b : Clause) : Prop where
  defaultName : a.defaultName ≠ [] → b.defaultName ≠ [] → a.defaultName = b.defaultName
  namespaceName : a.namespaceName ≠ [] → b.namespaceName ≠ [] → a.namespaceName = b.namespaceName
  named : ∀ x ∈ a.named, ∀ y ∈ b.named, x.name = y.name → x.localName = y.localName

instance (a b : Clause) : Decidable (a.Agrees b) :=
  decidable_of_iff
    ((a.defaultName ≠ [] → b.defaultName ≠ [] → a.defaultName = b.defaultName)
      ∧ (a.namespaceName ≠ [] → b.namespaceName ≠ [] → a.namespaceName = b.namespaceName)
      ∧ ∀ x ∈ a.named, ∀ y ∈ b.named, x.name = y.name → x.localName = y.localName)
    ⟨fun h => ⟨h.1, h.2.1, h.2.2⟩, fun h => ⟨h.defaultName, h.namespaceName, h.named⟩⟩

namespace Merge

/-! ## Defaults and namespaces -/

theorem firstName_right_comm {x y : Text} (h : x ≠ [] → y ≠ [] → x = y) (kept : Text) :
    firstName (firstName kept x) y = firstName (firstName kept y) x := by
  by_cases hkept : kept = []
  · by_cases hx : x = []
    · simp [firstName, hkept, hx]
    · by_cases hy : y = []
      · simp [firstName, hkept, hy]
      · rw [h hx hy]
  · simp [firstName, hkept]

/-- The first name that is there does not depend on the order, if there are no two. -/
theorem foldl_firstName_perm {ns ns' : List Text} (hperm : ns.Perm ns')
    (h : ∀ x ∈ ns, ∀ y ∈ ns, x ≠ [] → y ≠ [] → x = y) :
    ns.foldl firstName [] = ns'.foldl firstName [] := by
  refine hperm.foldl_eq' ?_ []
  intro x hx y hy kept
  exact firstName_right_comm (h x hx y hy) kept

/-! ## Named bindings -/

/-- No two bindings of one name differ. -/
def Consistent (bs : List Binding) : Prop := ∀ x ∈ bs, ∀ y ∈ bs, x.name = y.name → x = y

/-- Where no two bindings of one name differ, all of them are kept. -/
theorem mem_addBindings_iff {kept bs : List Binding} (h : Consistent (kept ++ bs)) {b : Binding} :
    b ∈ addBindings kept bs ↔ b ∈ kept ++ bs := by
  induction bs generalizing kept with
  | nil => simp [addBindings]
  | cons c bs ih =>
      rw [addBindings]
      split
      · -- a binding of this name is there, and it is the same
        rename_i hhas
        obtain ⟨x, hx, hname⟩ := List.mem_map.1 (hasBinding_iff.1 hhas)
        have hc : c ∈ kept := by
          have hsame := h x (List.mem_append_left _ hx) c
            (List.mem_append_right _ List.mem_cons_self) hname
          exact hsame ▸ hx
        have hsub : ∀ {y : Binding}, y ∈ kept ++ bs → y ∈ kept ++ c :: bs := by
          intro y hy
          rcases List.mem_append.1 hy with hy | hy
          · exact List.mem_append_left _ hy
          · exact List.mem_append_right _ (List.mem_cons_of_mem c hy)
        rw [ih fun y hy z hz => h y (hsub hy) z (hsub hz)]
        constructor
        · exact hsub
        · intro hb
          rcases List.mem_append.1 hb with hb | hb
          · exact List.mem_append_left _ hb
          · rcases List.mem_cons.1 hb with rfl | hb
            · exact List.mem_append_left _ hc
            · exact List.mem_append_right _ hb
      · have happend : kept ++ [c] ++ bs = kept ++ c :: bs := by simp
        rw [ih (by rw [happend]; exact h), happend]

/-- Sorted by name, the bindings that are kept do not depend on the order. -/
theorem sortOn_addBindings_perm {bs bs' : List Binding} (hperm : bs.Perm bs')
    (h : Consistent bs) :
    sortOn Binding.name (addBindings [] bs) = sortOn Binding.name (addBindings [] bs') := by
  have h' : Consistent bs' := fun x hx y hy =>
    h x (hperm.mem_iff.2 hx) y (hperm.mem_iff.2 hy)
  have hnodup : ((addBindings [] bs).map Binding.name).Nodup := nodup_addBindings bs List.nodup_nil
  have hnodup' : ((addBindings [] bs').map Binding.name).Nodup :=
    nodup_addBindings bs' List.nodup_nil
  refine sortOn_eq_of_perm ?_ hnodup
  refine (List.perm_ext_iff_of_nodup hnodup.of_map hnodup'.of_map).2 ?_
  intro b
  have hbs : b ∈ addBindings [] bs ↔ b ∈ bs := @mem_addBindings_iff [] bs h b
  have hbs' : b ∈ addBindings [] bs' ↔ b ∈ bs' := @mem_addBindings_iff [] bs' h' b
  rw [hbs, hbs']
  exact hperm.mem_iff

/-! ## Statements -/

/-- No two statements of one module contradict each other. -/
def NoConflict (ss : List Statement) : Prop :=
  ∀ a ∈ ss, ∀ b ∈ ss, a.source = b.source → a.clause.Agrees b.clause

theorem agrees_of_mem_clausesOf {ss : List Statement} (h : NoConflict ss) (source : Text) :
    ∀ a ∈ clausesOf ss source, ∀ b ∈ clausesOf ss source, a.Agrees b := by
  intro a ha b hb
  obtain ⟨s, hs, rfl⟩ := List.mem_map.1 ha
  obtain ⟨t, ht, rfl⟩ := List.mem_map.1 hb
  obtain ⟨hs, hsource⟩ := List.mem_filter.1 hs
  obtain ⟨ht, hsource'⟩ := List.mem_filter.1 ht
  exact h s hs t ht ((of_decide_eq_true hsource).trans (of_decide_eq_true hsource').symm)

/-- The statement of a module, with its bindings by name, does not depend on the order. -/
theorem sortNamed_joined_perm {ss ss' : List Statement} (hperm : ss.Perm ss')
    (h : NoConflict ss) (source : Text) :
    sortNamed ⟨source, joined ss source⟩ = sortNamed ⟨source, joined ss' source⟩ := by
  have hclauses : (clausesOf ss source).Perm (clausesOf ss' source) := (hperm.filter _).map _
  have hagree := agrees_of_mem_clausesOf h source
  have hdefault : ((clausesOf ss source).map Clause.defaultName).foldl firstName []
      = ((clausesOf ss' source).map Clause.defaultName).foldl firstName [] := by
    refine foldl_firstName_perm (hclauses.map _) ?_
    intro x hx y hy
    obtain ⟨a, ha, rfl⟩ := List.mem_map.1 hx
    obtain ⟨b, hb, rfl⟩ := List.mem_map.1 hy
    exact (hagree a ha b hb).defaultName
  have hnamespace : ((clausesOf ss source).map Clause.namespaceName).foldl firstName []
      = ((clausesOf ss' source).map Clause.namespaceName).foldl firstName [] := by
    refine foldl_firstName_perm (hclauses.map _) ?_
    intro x hx y hy
    obtain ⟨a, ha, rfl⟩ := List.mem_map.1 hx
    obtain ⟨b, hb, rfl⟩ := List.mem_map.1 hy
    exact (hagree a ha b hb).namespaceName
  have hnamed : Consistent ((clausesOf ss source).flatMap Clause.named) := by
    intro x hx y hy hname
    obtain ⟨a, ha, hx⟩ := List.mem_flatMap.1 hx
    obtain ⟨b, hb, hy⟩ := List.mem_flatMap.1 hy
    have hlocal := (hagree a ha b hb).named x hx y hy hname
    obtain ⟨name, localName⟩ := x
    obtain ⟨name', localName'⟩ := y
    exact Binding.mk.injEq .. ▸ ⟨hname, hlocal⟩
  rw [sortNamed, sortNamed, joined_eq, joined_eq, hdefault, hnamespace,
    sortOn_addBindings_perm (hclauses.flatMap_right Clause.named) hnamed]

/-- Ordering bindings and modules can be done in either order. -/
theorem sorted_eq (gs : List Statement) :
    sorted gs = sortOn Statement.source (gs.map sortNamed) :=
  (sortOn_map Statement.source sortNamed gs).symm

/-- **Joining and sorting do not depend on the order**, if there is no contradiction. -/
theorem sorted_groups_perm {ds ds' : List Declaration}
    (hperm : (ds.map Declaration.statement).Perm (ds'.map Declaration.statement))
    (h : NoConflict (ds.map Declaration.statement)) : sorted (groups ds) = sorted (groups ds') := by
  have hsources : (ds.map Declaration.source).Perm (ds'.map Declaration.source) := by
    have hmap := hperm.map Statement.source
    rw [List.map_map, List.map_map] at hmap
    exact hmap
  -- each module appears once, and in both lists the same modules appear
  have hfirst : (ds.map Declaration.source).eraseDups.Perm
      (ds'.map Declaration.source).eraseDups := by
    rw [← sources_groups, ← sources_groups]
    refine (List.perm_ext_iff_of_nodup (nodup_sources_groups ds) (nodup_sources_groups ds')).2 ?_
    intro source
    rw [sources_groups, sources_groups, List.mem_eraseDups, List.mem_eraseDups]
    exact hsources.mem_iff
  rw [sorted_eq, sorted_eq]
  refine sortOn_eq_of_perm ?_ ?_
  · rw [groups_eq, groups_eq, List.map_map, List.map_map]
    refine List.Perm.trans ?_ (hfirst.map _)
    refine List.Perm.of_eq (List.map_congr_left ?_)
    intro source _
    exact sortNamed_joined_perm hperm h source
  · rw [List.map_map]
    exact nodup_sources_groups ds

end Merge

/-! ## Texts -/

/-- **The order of the import lines does not matter** to rules that join, sort and drop
    what cannot be read: two texts with the same import lines in any order and the same
    body are put in order the same, if no two statements of one module differ in their
    defaults, in their namespaces or in the alias of a name. -/
theorem optimize_perm (r : Rules) (hsort : r.sort = true) (hmerge : r.merge = true)
    (hdrop : r.keepMalformed = false) (src src' : Text)
    (hlines : ((Block.ofText src).candidates.map Candidate.text).Perm
      ((Block.ofText src').candidates.map Candidate.text))
    (hbody : (Block.ofText src).body = (Block.ofText src').body)
    (hne : (Block.ofText src).declarations ≠ [])
    (hagree : ∀ d ∈ (Block.ofText src).declarations, ∀ e ∈ (Block.ofText src).declarations,
      d.source = e.source → d.clause.Agrees e.clause) :
    optimize r src = optimize r src' := by
  have hstatements : ((Block.ofText src).declarations.map Declaration.statement).Perm
      ((Block.ofText src').declarations.map Declaration.statement) := by
    rw [Block.map_statement_declarations, Block.map_statement_declarations]
    exact hlines.filterMap _
  have hne' : (Block.ofText src').declarations ≠ [] := by
    intro hnil
    rw [hnil] at hstatements
    exact hne (List.map_eq_nil_iff.1 hstatements.eq_nil)
  have hconflict : Merge.NoConflict
      ((Block.ofText src).declarations.map Declaration.statement) := by
    intro a ha b hb
    obtain ⟨d, hd, rfl⟩ := List.mem_map.1 ha
    obtain ⟨e, he, rfl⟩ := List.mem_map.1 hb
    exact hagree d hd e he
  have hwritten : ∀ b : Block, importLines r b
      = Statement.renderAll (Merge.sorted (Merge.groups b.declarations)) := by
    intro b
    rw [importLines, Rules.statements, Merge.statements, hmerge, hsort, hdrop]
    exact List.append_nil _
  refine optimize_congr hne hne' ?_ hbody
  rw [hwritten, hwritten, Merge.sorted_groups_perm hstatements hconflict]

/-- Two statements of one module that share a name, a namespace binding of another one,
    and a line that cannot be read. -/
def forwardFile : Text :=
  unlines
    [text "import \x7b b as c \x7d from 'm';", text "import a, \x7b d, b as c \x7d from 'm';",
      text "import oops", text "import * as n from 'k';", text "run();", []]

/-- The same lines in another order, with blank lines between them. -/
def backwardFile : Text :=
  unlines
    [text "import oops", text "import * as n from 'k';", [],
      text "import a, \x7b d, b as c \x7d from 'm';", [],
      text "  import \x7b b as c \x7d from 'm';", text "run();"]

theorem optimize_perm_backwardFile :
    forwardFile ≠ backwardFile
      ∧ optimize { sort := true, merge := true } forwardFile
        = optimize { sort := true, merge := true } backwardFile := by
  refine ⟨by decide, ?_⟩
  exact optimize_perm { sort := true, merge := true } rfl rfl rfl forwardFile backwardFile
    (by decide +kernel) (by decide +kernel) (by decide +kernel) (by decide +kernel)

end ImportBlock
