import Mathlib
import ImportBlock.Proofs.FirstWins
import ImportBlock.Proofs.Layout

/-! # Repeated lines

    Both ways to handle declarations make a repeated line redundant: one keeps the first of
    equal lines, and in the other the second copy finds everything it states already there
    (`FirstWins.joinClause_eq`), whatever was joined in between.

    On the side of the text, a line that is removed from the import block takes one import
    line with it and moves the later ones, `Block.alike_eraseIdx`.  Positions do not matter, so
    the text is put in order the same without it, `optimize_without_repetition`. -/

namespace ImportBlock

open Text

/-! ## Declarations -/

namespace Merge

/-- A name that was there does not come first again. -/
theorem firstName_firstPresent {names : List Text} {n : Text} (h : n ∈ names) :
    firstName (firstPresent names) n = firstPresent names := by
  by_cases hnone : firstPresent names = []
  · have hn : n = [] := by
      by_contra hn
      -- then the search finds a name that is there
      obtain ⟨m, hm⟩ : ∃ m, names.find? (fun n => n ≠ []) = some m :=
        Option.isSome_iff_exists.1 (List.find?_isSome.2 ⟨n, h, decide_eq_true hn⟩)
      have hpresent : firstPresent names = m := by rw [firstPresent, hm]; rfl
      have hne := List.find?_some hm
      rw [← hpresent, hnone] at hne
      simp at hne
    rw [hnone, hn]
    rfl
  · exact if_neg hnone

/-- Bindings whose names are all there add nothing. -/
theorem addBindings_of_all {kept bs : List Binding}
    (h : ∀ b ∈ bs, hasBinding kept b.name = true) : addBindings kept bs = kept := by
  induction bs with
  | nil => rfl
  | cons b bs ih =>
      rw [addBindings, if_pos (h b List.mem_cons_self)]
      exact ih fun c hc => h c (List.mem_cons_of_mem b hc)

/-- A declaration that was joined before adds nothing when it comes again. -/
theorem FirstWins.joinClause_eq {ds : List Declaration} {g : Statement} (h : FirstWins ds g)
    {d : Declaration} (hd : d ∈ ds) (hsource : d.source = g.source) :
    joinClause g.clause d.clause = g.clause := by
  have hmem : d ∈ declarationsOf ds g.source :=
    List.mem_filter.2 ⟨hd, decide_eq_true hsource⟩
  have hnamed : ∀ b ∈ d.clause.named, hasBinding g.clause.named b.name = true := by
    intro b hb
    have hall : b ∈ bindingsOf ds g.source := List.mem_flatMap.2 ⟨d, hmem, hb⟩
    -- some binding of this name is the first one
    obtain ⟨a, ha⟩ : ∃ a, (bindingsOf ds g.source).find? (fun c => c.name = b.name) = some a :=
      Option.isSome_iff_exists.1 (List.find?_isSome.2 ⟨b, hall, decide_eq_true rfl⟩)
    have hname : a.name = b.name := by simpa using List.find?_some ha
    have hkept : a ∈ g.clause.named := by
      rw [h.named, hname]
      exact ha
    exact hasBinding_iff.2 (List.mem_map.2 ⟨a, hkept, hname⟩)
  have hdefault : firstName g.clause.defaultName d.clause.defaultName = g.clause.defaultName := by
    rw [h.defaultName]
    exact firstName_firstPresent (List.mem_map.2 ⟨d, hmem, rfl⟩)
  have hnamespace :
      firstName g.clause.namespaceName d.clause.namespaceName = g.clause.namespaceName := by
    rw [h.namespaceName]
    exact firstName_firstPresent (List.mem_map.2 ⟨d, hmem, rfl⟩)
  rw [joinClause, hdefault, hnamespace, addBindings_of_all hnamed]

/-- A declaration that comes again changes nothing. -/
theorem groups_repeated {xs : List Declaration} {d : Declaration} (h : d ∈ xs)
    (ys : List Declaration) : groups (xs ++ d :: ys) = groups (xs ++ ys) := by
  have hmem : d.statement.source ∈ (groups xs).map Statement.source := by
    rw [sources_groups, List.mem_eraseDups]
    exact List.mem_map.2 ⟨d, h, rfl⟩
  have hadd : add (groups xs) d.statement = groups xs := by
    rw [add_of_mem (nodup_sources_groups xs) hmem]
    calc (groups xs).map _
        = (groups xs).map id := by
          refine List.map_congr_left ?_
          intro g hg
          split
          · rename_i hsource
            have hclause : joinClause g.clause d.statement.clause = g.clause :=
              (firstWins_of_mem_groups hg).joinClause_eq h hsource.symm
            rw [hclause]
            rfl
          · rfl
      _ = groups xs := List.map_id _
  rw [List.append_cons, groups_append, groups_concat, hadd, groups_append]

end Merge

/-- A line that was seen, before the list or in it, is dropped. -/
theorem Flat.firstCopies_repeated {seen : List Text} {xs : List Declaration} {d : Declaration}
    (h : d.text ∈ seen ∨ d ∈ xs) (ys : List Declaration) :
    firstCopies seen (xs ++ d :: ys) = firstCopies seen (xs ++ ys) := by
  induction xs generalizing seen with
  | nil =>
      rcases h with hseen | hnil
      · exact if_pos hseen
      · cases hnil
  | cons x xs ih =>
      rw [List.cons_append, List.cons_append, firstCopies, firstCopies]
      by_cases hx : x.text ∈ seen
      · rw [if_pos hx, if_pos hx]
        refine ih ?_
        rcases h with hseen | hmem
        · exact Or.inl hseen
        · rcases List.mem_cons.1 hmem with rfl | hmem
          · exact Or.inl hx
          · exact Or.inr hmem
      · rw [if_neg hx, if_neg hx]
        refine congrArg (x :: ·) (ih ?_)
        rcases h with hseen | hmem
        · exact Or.inl (List.mem_cons_of_mem x.text hseen)
        · rcases List.mem_cons.1 hmem with rfl | hmem
          · exact Or.inl List.mem_cons_self
          · exact Or.inr hmem

/-- **A repeated declaration is redundant** to rules that join or drop copies. -/
theorem Rules.statements_repeated {r : Rules} (hr : r.merge = true ∨ r.dedupe = true)
    {xs : List Declaration} {d : Declaration} (h : d ∈ xs) (ys : List Declaration) :
    r.statements (xs ++ d :: ys) = r.statements (xs ++ ys) := by
  rw [statements, statements]
  cases hmerge : r.merge with
  | true =>
      rw [if_pos rfl, if_pos rfl, Merge.statements, Merge.statements, Merge.groups_repeated h]
  | false =>
      have hdedupe : r.dedupe = true := hr.resolve_left (by rw [hmerge]; exact Bool.false_ne_true)
      rw [if_neg Bool.false_ne_true, if_neg Bool.false_ne_true, Flat.statements, Flat.statements,
        hdedupe, if_pos rfl, if_pos rfl, Flat.firstCopies_repeated (Or.inr h)]

/-! ## Lines -/

theorem Block.declarations_ne_nil {b : Block} {t : Text}
    (ht : t ∈ b.candidates.map Candidate.text) (hread : (Statement.read t).toOption.isSome) :
    b.declarations ≠ [] := by
  obtain ⟨s, hs⟩ := Option.isSome_iff_exists.1 hread
  have hmem : s ∈ b.declarations.map Declaration.statement := by
    rw [map_statement_declarations]
    exact List.mem_filterMap.2 ⟨t, ht, hs⟩
  intro hnil
  rw [hnil] at hmem
  cases hmem

/-- Import lines are written the same without a line that can be read and was there before. -/
theorem importLines_repeated {r : Rules} (hr : r.merge = true ∨ r.dedupe = true) {b b' : Block}
    {xs ys : List Text} {t : Text} (ht : t ∈ xs) (hread : (Statement.read t).toOption.isSome)
    (htexts : b.candidates.map Candidate.text = xs ++ t :: ys)
    (htexts' : b'.candidates.map Candidate.text = xs ++ ys) :
    importLines r b' = importLines r b := by
  obtain ⟨s, hs⟩ := Option.isSome_iff_exists.1 hread
  have hdeclaration : (Declaration.read t 0).toOption = some ⟨t, 0, s⟩ := by
    rw [Declaration.read]
    cases hcase : Statement.read t with
    | error e =>
        rw [hcase] at hs
        cases hs
    | ok s' =>
        rw [hcase] at hs
        cases hs
        rfl
  have hds : b.declarations.map Declaration.unplaced
      = xs.filterMap (fun l => (Declaration.read l 0).toOption)
        ++ ⟨t, 0, s⟩ :: ys.filterMap fun l => (Declaration.read l 0).toOption := by
    rw [Block.map_unplaced_declarations, htexts, List.filterMap_append,
      List.filterMap_cons, hdeclaration]
  have hds' : b'.declarations.map Declaration.unplaced
      = xs.filterMap (fun l => (Declaration.read l 0).toOption)
        ++ ys.filterMap fun l => (Declaration.read l 0).toOption := by
    rw [Block.map_unplaced_declarations, htexts', List.filterMap_append]
  have hfirst : (⟨t, 0, s⟩ : Declaration)
      ∈ xs.filterMap fun l => (Declaration.read l 0).toOption :=
    List.mem_filterMap.2 ⟨t, ht, hdeclaration⟩
  have hmalformed : b'.malformed = b.malformed := by
    rw [Block.malformed_eq_filter, Block.malformed_eq_filter, htexts, htexts', List.filter_append,
      List.filter_append, List.filter_cons_of_neg]
    rw [hs]
    exact Bool.false_ne_true
  rw [importLines, importLines, hmalformed, ← r.statements_unplaced, hds',
    ← r.statements_unplaced b.declarations, hds, Rules.statements_repeated hr hfirst]

/-- Without the line of an import line, a list of lines is cut into the same import lines but
    this one, at whatever positions, and the same body. -/
theorem Block.alike_eraseIdx {i j k : Nat} {ls : List Text} {c : Candidate}
    (h : (ofLines i ls).candidates[j]? = some c) :
    i ≤ c.index ∧ (ofLines k (ls.eraseIdx (c.index - i))).Alike
      { ofLines i ls with candidates := (ofLines i ls).candidates.eraseIdx j } := by
  induction ls generalizing i j k with
  | nil => cases h
  | cons l ls ih =>
      -- a line before the removed one stays
      have hlater : ∀ {m : Nat}, i + 1 ≤ m → (l :: ls).eraseIdx (m - i)
          = l :: ls.eraseIdx (m - (i + 1)) := by
        intro m hm
        obtain ⟨n, rfl⟩ := Nat.exists_eq_add_of_le hm
        have hn : i + 1 + n - i = n + 1 := by omega
        have hn' : i + 1 + n - (i + 1) = n := by omega
        rw [hn, hn', List.eraseIdx_cons_succ]
      rcases line_cases l with hblank | himport | hbody
      · rw [ofLines_of_blank hblank] at h ⊢
        obtain ⟨hindex, -⟩ := ih (k := k) h
        rw [hlater hindex, ofLines_of_blank hblank]
        exact ⟨by omega, (ih h).2⟩
      · rw [ofLines_of_import himport] at h ⊢
        cases j with
        | zero =>
            cases h
            rw [Nat.sub_self]
            exact ⟨Nat.le_refl i, alike_ofLines k (i + 1) ls⟩
        | succ j =>
            obtain ⟨hindex, halike⟩ := ih (k := k + 1) h
            rw [hlater hindex, ofLines_of_import himport]
            exact ⟨by omega, congrArg (trim l :: ·) halike.texts, halike.body⟩
      · rw [ofLines_body (hbody ls)] at h
        cases h

/-- **A repeated line is redundant.**  If the rules join statements or drop copies, and two
    lines of the block that can be read state the same in the same words, then the text
    without the line of the second one is put in order the same. -/
theorem optimize_without_repetition (r : Rules) (hr : r.merge = true ∨ r.dedupe = true)
    (src src' : Text) (i j : Nat) (hij : i < j) (c c' : Candidate)
    (hi : (Block.ofText src).candidates[i]? = some c)
    (hj : (Block.ofText src).candidates[j]? = some c') (htext : c.text = c'.text)
    (hread : (Declaration.read c'.text c'.index).toOption.isSome)
    (hlines : lines src' = (lines src).eraseIdx c'.index) :
    optimize r src' = optimize r src := by
  have hread' : (Statement.read c'.text).toOption.isSome := by
    rw [Declaration.read] at hread
    cases hcase : Statement.read c'.text with
    | error e =>
        rw [hcase] at hread
        exact hread
    | ok s => rfl
  obtain ⟨hlt, hget⟩ := List.getElem?_eq_some_iff.1 hj
  -- the import lines before and after the one that is removed
  have htexts : (Block.ofText src).candidates.map Candidate.text
      = ((Block.ofText src).candidates.take j).map Candidate.text
        ++ c'.text :: ((Block.ofText src).candidates.drop (j + 1)).map Candidate.text := by
    rw [← List.map_cons, ← hget, ← List.drop_eq_getElem_cons hlt, ← List.map_append,
      List.take_append_drop]
  obtain ⟨-, halike⟩ := Block.alike_eraseIdx (k := 0) hj
  rw [Nat.sub_zero, ← hlines] at halike
  have htexts' : (Block.ofText src').candidates.map Candidate.text
      = ((Block.ofText src).candidates.take j).map Candidate.text
        ++ ((Block.ofText src).candidates.drop (j + 1)).map Candidate.text := by
    rw [← List.map_append, ← List.eraseIdx_eq_take_drop_succ]
    exact halike.texts
  have hfirst : c'.text ∈ ((Block.ofText src).candidates.take j).map Candidate.text := by
    refine List.mem_map.2 ⟨c, ?_, htext⟩
    rw [← List.getElem?_take_of_lt hij] at hi
    exact List.mem_of_getElem? hi
  refine optimize_congr ?_ ?_ (importLines_repeated hr hfirst hread' htexts htexts') halike.body
  · refine Block.declarations_ne_nil ?_ hread'
    rw [htexts']
    exact List.mem_append_left _ hfirst
  · refine Block.declarations_ne_nil ?_ hread'
    rw [htexts]
    exact List.mem_append_left _ hfirst

/-- A line that comes twice. -/
def repeatedLine : Text := text "import a, \x7b b as c \x7d from 'm';"

/-- A file whose first statement comes again, spaced in another way, after a statement that
    contradicts it and a line that cannot be read. -/
def repeatedFile : Text :=
  unlines
    [repeatedLine, text "import x, \x7b b \x7d from 'm';",
      text "import oops", [], text "  " ++ repeatedLine ++ text " ",
      text "import d from 'k';", text "run();"]

/-- The file without the line of the second copy. -/
def unrepeatedFile : Text :=
  unlines
    [repeatedLine, text "import x, \x7b b \x7d from 'm';",
      text "import oops", [], text "import d from 'k';", text "run();"]

theorem optimize_without_repetition_repeatedFile :
    optimize { dedupe := true, keepMalformed := true } unrepeatedFile
        = optimize { dedupe := true, keepMalformed := true } repeatedFile
      ∧ optimize { sort := true, merge := true } unrepeatedFile
        = optimize { sort := true, merge := true } repeatedFile := by
  have hfirst : (Block.ofText repeatedFile).candidates[0]? = some ⟨0, repeatedLine⟩ := by
    decide +kernel
  have hagain : (Block.ofText repeatedFile).candidates[3]? = some ⟨4, repeatedLine⟩ := by
    decide +kernel
  have hread : (Declaration.read repeatedLine 4).toOption.isSome := by decide +kernel
  have hlines : lines unrepeatedFile = (lines repeatedFile).eraseIdx 4 := by decide +kernel
  exact ⟨optimize_without_repetition { dedupe := true, keepMalformed := true } (Or.inr rfl)
      repeatedFile unrepeatedFile 0 3 (by decide) _ _ hfirst hagain rfl hread hlines,
    optimize_without_repetition { sort := true, merge := true } (Or.inl rfl)
      repeatedFile unrepeatedFile 0 3 (by decide) _ _ hfirst hagain rfl hread hlines⟩

end ImportBlock
