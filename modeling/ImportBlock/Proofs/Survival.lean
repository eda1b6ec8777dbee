import Mathlib
import ImportBlock.Proofs.Grammar
import ImportBlock.Proofs.Rewritten

/-! # Which import statements survive

    In a file whose import lines are all in the grammar, a line is read unless one of
    its names is `from`.  When the rules neither join statements nor drop copies, the
    lines that are read are written again, in file order or in the stable order of
    their sources.  The others are gone, or come last if malformed lines are kept;
    only if no line at all is read is the file left alone. -/

namespace ImportBlock

open Text

/-! ## Names of the grammar -/

theorem ItemText.names_ident {b : Binding} {t : Text} (h : ItemText b t) :
    ∀ n ∈ b.names, n = [] ∨ Ident n := by
  intro n hn
  cases h with
  | name hname =>
      rcases List.mem_cons.1 hn with rfl | hn
      · exact Or.inr hname
      · exact Or.inl (List.mem_singleton.1 hn)
  | renamed hname _ _ hlocal =>
      rcases List.mem_cons.1 hn with rfl | hn
      · exact Or.inr hname
      · rw [List.mem_singleton.1 hn]
        exact Or.inr hlocal

/-- The names of a clause are identifiers or absent. -/
theorem ClauseText.names_ident {c : Clause} {t : Text} (h : ClauseText c t) :
    ∀ n ∈ c.names, n = [] ∨ Ident n := by
  have hlead : ∀ {d lead : Text}, LeadText d lead → d = [] ∨ Ident d := by
    intro d lead h
    cases h with
    | none => exact Or.inl rfl
    | default hd _ _ => exact Or.inr hd
  intro n hn
  cases h with
  | default hd =>
      rcases List.mem_cons.1 hn with rfl | hn
      · exact Or.inr hd
      · exact Or.inl (List.mem_singleton.1 hn)
  | star h _ _ hns =>
      rcases List.mem_cons.1 hn with rfl | hn
      · exact hlead h
      · rw [List.mem_singleton.1 hn]
        exact Or.inr hns
  | braces h hlist =>
      rcases List.mem_cons.1 hn with rfl | hn
      · exact hlead h
      · rcases List.mem_cons.1 hn with rfl | hn
        · exact Or.inl rfl
        · obtain ⟨b, hb, hn⟩ := List.mem_flatMap.1 hn
          obtain ⟨ts, -, rfl, hitems⟩ := hlist.listed
          obtain ⟨t, ht, rfl⟩ := List.mem_map.1 hb
          exact (hitems t ht).names_ident n hn

/-- A statement as the reader keeps it: with the first named binding of each name. -/
def Statement.meant (s : Statement) : Statement :=
  ⟨s.source, { s.clause with named := Binding.firstOfEachName s.clause.named }⟩

theorem Binding.firstOfEachName_ne_nil {bs : List Binding} (h : bs ≠ []) :
    firstOfEachName bs ≠ [] := by
  cases bs with
  | nil => exact absurd rfl h
  | cons b bs => exact List.cons_ne_nil _ _

theorem Statement.meant_binds {s : Statement} (h : s.clause.Binds) : s.meant.clause.Binds := by
  rcases h with h | h | h
  · exact Or.inl h
  · exact Or.inr (Or.inl h)
  · exact Or.inr (Or.inr (Binding.firstOfEachName_ne_nil h))

theorem LineText.unmarked {s : Statement} {line : Text} (h : LineText s line) :
    s.meant.clause.Unmarked := by
  cases h with
  | @mk c source _ _ _ _ _ _ hclause =>
      have hclean : ∀ n ∈ c.names, ∀ b ∈ clauseMarks, b ∉ n := by
        intro n hn b hb
        rcases hclause.names_ident n hn with rfl | hident
        · exact List.not_mem_nil
        · exact not_mem_of_not_mark hident.not_mark hb
      have hmarks : ∀ b ∈ [braceOpen, braceClose, star], b ∈ clauseMarks :=
        forall_mem_of_all (by decide)
      refine ⟨hclean _ List.mem_cons_self, fun d hd b hb => ?_⟩
      have hnames : ∀ n ∈ d.names, n ∈ c.names := by
        intro n hn
        have hd := Binding.mem_of_mem_firstOfEachName hd
        exact List.mem_cons_of_mem _ (List.mem_cons_of_mem _ (List.mem_flatMap.2 ⟨d, hd, hn⟩))
      exact ⟨hclean _ (hnames _ List.mem_cons_self) b (hmarks b hb),
        hclean _ (hnames _ (List.mem_cons_of_mem _ List.mem_cons_self)) b (hmarks b hb)⟩

/-! ## Lines that are read and lines that are not -/

/-- The lines none of whose names is `from`. -/
def readable (meaning : Candidate → Statement) (cs : List Candidate) : List Candidate :=
  cs.filter fun c => fromWord ∉ (meaning c).clause.names

/-- The lines with a name `from`. -/
def unreadable (meaning : Candidate → Statement) (cs : List Candidate) : List Candidate :=
  cs.filter fun c => fromWord ∈ (meaning c).clause.names

theorem length_readable_add_unreadable (meaning : Candidate → Statement) (cs : List Candidate) :
    (readable meaning cs).length + (unreadable meaning cs).length = cs.length := by
  induction cs with
  | nil => rfl
  | cons c cs ih =>
      rw [readable, unreadable] at ih ⊢
      rw [List.filter_cons, List.filter_cons, List.length_cons]
      by_cases hfrom : fromWord ∈ (meaning c).clause.names
      · rw [if_neg (by simpa using hfrom), if_pos (by simpa using hfrom), List.length_cons]
        omega
      · rw [if_pos (by simpa using hfrom), if_neg (by simpa using hfrom), List.length_cons]
        omega

section

variable {meaning : Candidate → Statement} {b : Block}
  (h : ∀ c ∈ b.candidates, LineText (meaning c) c.text)

include h

theorem Block.declarations_eq_map : b.declarations
    = (readable meaning b.candidates).map fun c => ⟨c.text, c.index, (meaning c).meant⟩ := by
  rw [declarations, readings]
  generalize b.candidates = cs at h
  induction cs with
  | nil => rfl
  | cons c cs ih =>
      have hc := h c List.mem_cons_self
      have hrest := ih fun e he => h e (List.mem_cons_of_mem c he)
      rw [List.map_cons, List.filterMap_cons, readable, List.filter_cons]
      by_cases hfrom : fromWord ∈ (meaning c).clause.names
      · obtain ⟨e, he⟩ := hc.read_from hfrom
        rw [if_neg (by simpa using hfrom), Declaration.read, he]
        exact hrest
      · rw [if_pos (by simpa using hfrom), Declaration.read, hc.read hfrom]
        exact congrArg (_ :: ·) hrest

theorem Block.malformed_eq_map :
    b.malformed = (unreadable meaning b.candidates).map Candidate.text := by
  rw [malformed_eq_filter, List.filter_map, unreadable]
  refine congrArg (List.map Candidate.text) (List.filter_congr fun c hc => ?_)
  show (Statement.read c.text).toOption.isNone = decide (fromWord ∈ (meaning c).clause.names)
  by_cases hfrom : fromWord ∈ (meaning c).clause.names
  · obtain ⟨e, he⟩ := (h c hc).read_from hfrom
    rw [he, decide_eq_true hfrom]
    rfl
  · rw [(h c hc).read hfrom, decide_eq_false hfrom]
    rfl

end

/-! ## What is written -/

/-- The readable lines in the order in which they are written. -/
def writingOrder (r : Rules) (meaning : Candidate → Statement) (cs : List Candidate) :
    List Candidate :=
  if r.sort then sortOn (fun c => (meaning c).source) (readable meaning cs)
  else readable meaning cs

theorem length_writingOrder (r : Rules) (meaning : Candidate → Statement) (cs : List Candidate) :
    (writingOrder r meaning cs).length = (readable meaning cs).length := by
  rw [writingOrder]
  split
  · exact (sortOn_perm _ _).length_eq
  · rfl

theorem writingOrder_eq_nil_iff {r : Rules} {meaning : Candidate → Statement}
    {cs : List Candidate} : writingOrder r meaning cs = [] ↔ readable meaning cs = [] := by
  rw [← List.length_eq_zero_iff, length_writingOrder, List.length_eq_zero_iff]

theorem mem_of_mem_writingOrder {r : Rules} {meaning : Candidate → Statement}
    {cs : List Candidate} {c : Candidate} (h : c ∈ writingOrder r meaning cs) :
    c ∈ cs ∧ fromWord ∉ (meaning c).clause.names := by
  have hmem : c ∈ readable meaning cs := by
    rw [writingOrder] at h
    split at h
    · exact (sortOn_perm _ _).mem_iff.1 h
    · exact h
  obtain ⟨hc, hfrom⟩ := List.mem_filter.1 hmem
  exact ⟨hc, of_decide_eq_true hfrom⟩

section

variable {r : Rules} {src : Text} {meaning : Candidate → Statement}
  (hmerge : r.merge = false) (hdedupe : r.dedupe = false)
  (h : ∀ c ∈ (Block.ofText src).candidates,
    LineText (meaning c) c.text ∧ (meaning c).clause.Binds)

include hmerge hdedupe h in
theorem statements_eq_map : r.statements (Block.ofText src).declarations
    = (writingOrder r meaning (Block.ofText src).candidates).map fun c => (meaning c).meant := by
  rw [Rules.statements, hmerge, if_neg Bool.false_ne_true, Flat.statements, hdedupe,
    if_neg Bool.false_ne_true, Block.declarations_eq_map fun c hc => (h c hc).1, writingOrder]
  cases r.sort with
  | true =>
      rw [if_pos rfl, if_pos rfl, sortOn_map, List.map_map]
      rfl
  | false =>
      rw [if_neg Bool.false_ne_true, if_neg Bool.false_ne_true, List.map_map]
      rfl

include h in
theorem unmarked_of_mem_declarations :
    ∀ d ∈ (Block.ofText src).declarations, d.clause.Unmarked := by
  intro d hd
  rw [Block.declarations_eq_map fun c hc => (h c hc).1] at hd
  obtain ⟨c, hc, rfl⟩ := List.mem_map.1 hd
  exact (h c (List.mem_filter.1 hc).1).1.unmarked

include hmerge hdedupe h in
/-- Every statement that is read has a line of its own. -/
theorem render?_of_mem_writingOrder {c : Candidate}
    (hc : c ∈ writingOrder r meaning (Block.ofText src).candidates) :
    (meaning c).meant.render?
      = some (Statement.renderLine (meaning c).meant.clause.render (meaning c).source) := by
  have hmem : (meaning c).meant ∈ r.statements (Block.ofText src).declarations := by
    rw [statements_eq_map hmerge hdedupe h]
    exact List.mem_map.2 ⟨c, hc, rfl⟩
  have hprint := printable_of_mem_statements (unmarked_of_mem_declarations h) _ hmem
  have hbinds := Statement.meant_binds (h c (mem_of_mem_writingOrder hc).1).2
  exact if_neg (hprint.clause.render_ne_nil hbinds)

/-- The line that is written for a readable line. -/
def writtenLine (meaning : Candidate → Statement) (c : Candidate) : Text :=
  Statement.renderLine (meaning c).meant.clause.render (meaning c).source

include hmerge hdedupe h in
theorem renderAll_statements :
    Statement.renderAll (r.statements (Block.ofText src).declarations)
      = (writingOrder r meaning (Block.ofText src).candidates).map (writtenLine meaning) := by
  rw [statements_eq_map hmerge hdedupe h, Statement.renderAll, List.filterMap_map]
  refine List.filterMap_eq_map_iff_forall_eq_some.2 ?_
  intro c hc
  exact render?_of_mem_writingOrder hmerge hdedupe h hc

include hmerge hdedupe h in
theorem written_statements :
    Statement.written (r.statements (Block.ofText src).declarations)
      = r.statements (Block.ofText src).declarations := by
  refine List.filter_eq_self.2 ?_
  intro g hg
  rw [statements_eq_map hmerge hdedupe h] at hg
  obtain ⟨c, hc, rfl⟩ := List.mem_map.1 hg
  rw [render?_of_mem_writingOrder hmerge hdedupe h hc]
  rfl

include h in
/-- Without a readable line the text is left alone. -/
theorem optimize_of_readable_eq_nil (hnone : readable meaning (Block.ofText src).candidates = []) :
    optimize r src = src := by
  refine if_pos ?_
  rw [Block.declarations_eq_map fun c hc => (h c hc).1, hnone]
  rfl

include h in
theorem declarations_ne_nil (hne : readable meaning (Block.ofText src).candidates ≠ []) :
    (Block.ofText src).declarations ≠ [] := by
  rw [Block.declarations_eq_map fun c hc => (h c hc).1, Ne, List.map_eq_nil_iff]
  exact hne

include hmerge hdedupe h in
/-- The readable statements of the rewritten text. -/
theorem sources_rewritten :
    (Block.ofText (optimize r src)).declarations.map Declaration.source
      = (writingOrder r meaning (Block.ofText src).candidates).map fun c => (meaning c).source := by
  -- without a readable line the text and so its declarations stay as they are
  by_cases hnone : readable meaning (Block.ofText src).candidates = []
  · rw [optimize_of_readable_eq_nil h hnone, writingOrder_eq_nil_iff.2 hnone,
      Block.declarations_eq_map fun c hc => (h c hc).1, hnone]
    rfl
  · have hprint := printable_of_mem_statements (r := r) (unmarked_of_mem_declarations h)
    have hstatements := statements_rewritten (declarations_ne_nil h hnone) hprint
    rw [written_statements hmerge hdedupe h, statements_eq_map hmerge hdedupe h] at hstatements
    have hsources := congrArg (List.map Statement.source) hstatements
    rw [List.map_map, List.map_map, List.map_map] at hsources
    exact hsources

include hmerge hdedupe h in
/-- The import lines of the rewritten text. -/
theorem candidates_rewritten (hne : readable meaning (Block.ofText src).candidates ≠ []) :
    (Block.ofText (optimize r src)).candidates.map Candidate.text
      = (writingOrder r meaning (Block.ofText src).candidates).map (writtenLine meaning)
        ++ if r.keepMalformed = true then
            (unreadable meaning (Block.ofText src).candidates).map Candidate.text
          else [] := by
  rw [Block.ofText_optimize r (declarations_ne_nil h hne), Block.map_text_numbered, importLines,
    renderAll_statements hmerge hdedupe h, Block.malformed_eq_map fun c hc => (h c hc).1]

include hmerge hdedupe h in
/-- When no import line is lost. -/
theorem length_candidates_rewritten_iff :
    (Block.ofText (optimize r src)).candidates.length = (Block.ofText src).candidates.length
      ↔ r.keepMalformed = true ∨ readable meaning (Block.ofText src).candidates = []
        ∨ unreadable meaning (Block.ofText src).candidates = [] := by
  by_cases hnone : readable meaning (Block.ofText src).candidates = []
  · rw [optimize_of_readable_eq_nil h hnone]
    exact iff_of_true rfl (Or.inr (Or.inl hnone))
  · have hlines := congrArg List.length (candidates_rewritten hmerge hdedupe h hnone)
    have hparts := length_readable_add_unreadable meaning (Block.ofText src).candidates
    rw [List.length_map, List.length_append, List.length_map, length_writingOrder] at hlines
    rw [hlines, ← hparts, ← List.length_eq_zero_iff (l := unreadable _ _)]
    cases r.keepMalformed with
    | true =>
        rw [if_pos rfl, List.length_map]
        exact iff_of_true rfl (Or.inl rfl)
    | false =>
        rw [if_neg Bool.false_ne_true, List.length_nil, Nat.add_left_cancel_iff]
        constructor
        · intro hzero
          exact Or.inr (Or.inr hzero.symm)
        · rintro (hkeep | hnil | hzero)
          · exact absurd hkeep Bool.false_ne_true
          · exact absurd hnil hnone
          · exact hzero.symm

end

/-- **Which statements survive.**  In a file of grammatical import lines, under rules
    that neither join nor drop copies, the statements of the rewritten text are those
    of the readable lines, in file order or stably sorted by source, each on its line;
    lines with a name `from` follow if malformed lines are kept and are gone otherwise.
    Without a readable line the text is left alone.  So there is one statement for each
    line exactly if no line has a name `from`, and a line is lost exactly if malformed
    lines are dropped and some lines have such a name but not all. -/
theorem readable_statements_survive (r : Rules) (src : Text) (meaning : Candidate → Statement)
    (hmerge : r.merge = false) (hdedupe : r.dedupe = false)
    (h : ∀ c ∈ (Block.ofText src).candidates,
      LineText (meaning c) c.text ∧ (meaning c).clause.Binds) :
    ∃ order : List Candidate,
      (r.sort = false → order = readable meaning (Block.ofText src).candidates)
      ∧ (r.sort = true → StablySorted (fun c => (meaning c).source)
          (readable meaning (Block.ofText src).candidates) order)
      ∧ (Block.ofText (optimize r src)).declarations.map Declaration.source
          = order.map (fun c => (meaning c).source)
      ∧ (order ≠ [] → (Block.ofText (optimize r src)).candidates.map Candidate.text
          = order.map (writtenLine meaning)
            ++ if r.keepMalformed = true then
                (unreadable meaning (Block.ofText src).candidates).map Candidate.text
              else [])
      ∧ (order = [] → optimize r src = src)
      ∧ ((Block.ofText (optimize r src)).declarations.length
            = (Block.ofText src).candidates.length
          ↔ ∀ c ∈ (Block.ofText src).candidates, fromWord ∉ (meaning c).clause.names)
      ∧ ((Block.ofText (optimize r src)).candidates.length
            = (Block.ofText src).candidates.length
          ↔ r.keepMalformed = true ∨ readable meaning (Block.ofText src).candidates = []
            ∨ unreadable meaning (Block.ofText src).candidates = []) := by
  have hsources := sources_rewritten hmerge hdedupe h
  refine ⟨writingOrder r meaning (Block.ofText src).candidates, fun hsort => ?_, fun hsort => ?_,
    hsources, fun hne => ?_, fun hnone => ?_, ?_, length_candidates_rewritten_iff hmerge hdedupe h⟩
  · rw [writingOrder, hsort]
    exact if_neg Bool.false_ne_true
  · rw [writingOrder, hsort]
    exact stablySorted_sortOn _ _
  · exact candidates_rewritten hmerge hdedupe h fun hnil => hne (writingOrder_eq_nil_iff.2 hnil)
  · exact optimize_of_readable_eq_nil h (writingOrder_eq_nil_iff.1 hnone)
  · have hcount := congrArg List.length hsources
    rw [List.length_map, List.length_map, length_writingOrder] at hcount
    rw [hcount, readable, List.length_filter_eq_length_iff]
    simp only [decide_eq_true_eq]

/-- A file that imports a name `from`. -/
def operatorFile : Text :=
  text "import \x7b from, of \x7d from 'rxjs';\nimport a from 'a';\n"

/-- What its two import lines mean. -/
def operatorMeaning (c : Candidate) : Statement :=
  if c.index = 0 then ⟨text "rxjs", { named := [⟨fromWord, []⟩, ⟨text "of", []⟩] }⟩
  else ⟨text "a", { defaultName := text "a" }⟩

theorem lineText_operatorFile : ∀ c ∈ (Block.ofText operatorFile).candidates,
    LineText (operatorMeaning c) c.text ∧ (operatorMeaning c).clause.Binds := by
  have hcandidates : (Block.ofText operatorFile).candidates
      = [⟨0, text "import \x7b from, of \x7d from 'rxjs';"⟩, ⟨1, text "import a from 'a';"⟩] := by
    decide +kernel
  have hlist : ListText [⟨fromWord, []⟩, ⟨text "of", []⟩] (text " from, of ") :=
    .more (.name ident_fromWord) blank_space blank_nil
      (.last (.name (by decide)) blank_space blank_space)
  have hsemicolon : TailText (text ";") := @TailText.semicolon [] [] blank_nil blank_nil
  intro c hc
  rw [hcandidates] at hc
  rcases List.mem_cons.1 hc with rfl | hc
  · refine ⟨?_, Or.inr (Or.inr (List.cons_ne_nil _ _))⟩
    exact @LineText.mk { named := [⟨fromWord, []⟩, ⟨text "of", []⟩] } _ [32] _ [32] [32] _ 39
      (.braces .none hlist) blank_space blank_space blank_space hsemicolon (by decide)
      (by decide) rfl (by decide) (forall_mem_of_all (by decide))
  · rw [List.mem_singleton.1 hc]
    refine ⟨?_, Or.inl (by decide)⟩
    exact @LineText.mk { defaultName := text "a" } _ [32] _ [32] [32] _ 39
      (.default (by decide)) blank_space blank_space blank_space hsemicolon (by decide)
      (by decide) rfl (by decide) (forall_mem_of_all (by decide))

/-- Of the two statements of the file one is lost. -/
theorem readable_statements_survive_operatorFile :
    (Block.ofText (optimize { sort := true } operatorFile)).declarations.length
        ≠ (Block.ofText operatorFile).candidates.length
      ∧ (Block.ofText (optimize { sort := true } operatorFile)).candidates.length
        ≠ (Block.ofText operatorFile).candidates.length := by
  obtain ⟨order, -, -, -, -, -, hstatements, hlines⟩ :=
    readable_statements_survive { sort := true } operatorFile operatorMeaning rfl rfl
      lineText_operatorFile
  constructor
  · intro heq
    have hfirst := hstatements.1 heq ⟨0, text "import \x7b from, of \x7d from 'rxjs';"⟩
    exact absurd (hfirst (by decide +kernel)) (by decide)
  · intro heq
    rcases hlines.1 heq with hkeep | hnone | hall
    · cases hkeep
    · exact absurd hnone (by decide +kernel)
    · exact absurd hall (by decide +kernel)

/-- A statement of the grammar that disappears. -/
theorem from_import_disappears :
    LineText ⟨text "rxjs", { named := [⟨fromWord, []⟩, ⟨text "of", []⟩] }⟩
        (text "import \x7b from, of \x7d from 'rxjs';")
      ∧ (Block.ofText operatorFile).candidates.map Candidate.text
        = [text "import \x7b from, of \x7d from 'rxjs';", text "import a from 'a';"]
      ∧ optimize {} operatorFile = text "import a from 'a';" := by
  refine ⟨?_, by decide +kernel, by decide +kernel⟩
  exact (lineText_operatorFile ⟨0, text "import \x7b from, of \x7d from 'rxjs';"⟩
    (by decide +kernel)).1

end ImportBlock
