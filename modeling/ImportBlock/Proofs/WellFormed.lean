import Mathlib
import ImportBlock.Proofs.Rewritten

/-! # Well-formed statements

    The reader cuts names out of any bytes, with braces that do not close, stray stars and
    commas in a row.  Whatever it accepts is well formed (`Statement.WellFormed`): there is a
    source, names are trimmed and distinct, and each kind of name is free of the marks that
    its cut was made at.

    The rules keep this, as joining and sorting only choose among names.  One thing is lost:
    beside a namespace binding the reader takes a plain default binding only
    (`Clause.PlainDefault`), but joining may bring the two together from different lines. -/

namespace ImportBlock

open Text

/-- A named binding of the data model. -/
structure Binding.WellFormed (b : Binding) : Prop where
  name_ne : b.name ≠ []
  name_trimmed : trim b.name = b.name
  localName_trimmed : trim b.localName = b.localName
  name_comma : comma ∉ b.name
  localName_comma : comma ∉ b.localName

/-- A clause of the data model. -/
structure Clause.WellFormed (c : Clause) : Prop where
  default_trimmed : trim c.defaultName = c.defaultName
  default_brace : braceOpen ∉ c.defaultName
  namespace_trimmed : trim c.namespaceName = c.namespaceName
  namespace_unmarked : ∀ b ∈ c.namespaceName, b ∉ clauseMarks
  named : ∀ b ∈ c.named, b.WellFormed
  nodup : (c.named.map Binding.name).Nodup

/-- A statement of the data model. -/
structure Statement.WellFormed (s : Statement) : Prop where
  source_ne : s.source ≠ []
  clause : s.clause.WellFormed

/-- Beside a namespace binding the default binding is a plain name. -/
def Clause.PlainDefault (c : Clause) : Prop :=
  c.namespaceName ≠ [] → ∀ b ∈ c.defaultName, b ∉ clauseMarks

instance (c : Clause) : Decidable c.PlainDefault :=
  inferInstanceAs (Decidable (c.namespaceName ≠ [] → ∀ b ∈ c.defaultName, b ∉ clauseMarks))

theorem trim_trim (s : Text) : trim (trim s) = trim s := trim_eq_self (trimmed_trim s)

theorem trim_nil : trim [] = [] := trim_eq_self trimmed_nil

/-! ## Bindings -/

namespace Binding

theorem wellFormed_read {item : Text} (htrim : Trimmed item) (hcomma : comma ∉ item)
    (hne : (read item).name ≠ []) : (read item).WellFormed := by
  rw [read] at hne ⊢
  cases hcut : cutWordFrom item asWord 1 with
  | none =>
      rw [hcut] at hne
      exact ⟨hne, trim_eq_self htrim, trim_nil, hcomma, List.not_mem_nil⟩
  | some parts =>
      obtain ⟨n, a⟩ := parts
      rw [hcut] at hne
      obtain ⟨heq, -⟩ := eq_of_cutWordFrom ident_asWord hcut
      rw [heq, List.mem_append, List.mem_append, not_or, not_or] at hcomma
      refine ⟨hne, trim_trim n, trim_trim a, ?_, ?_⟩
      · intro hmem
        exact hcomma.1.1 (mem_of_mem_trim hmem)
      · intro hmem
        exact hcomma.2 (mem_of_mem_trim hmem)

/-- Entries are cut at commas and trimmed, and those without a name are left out. -/
theorem wellFormed_readList (inner : Text) : ∀ b ∈ readList inner, b.WellFormed := by
  intro b hb
  obtain ⟨hmem, hne, -⟩ := mem_of_mem_distinct hb
  obtain ⟨item, hitem, rfl⟩ := List.mem_map.1 hmem
  obtain ⟨piece, hpiece, rfl⟩ := List.mem_map.1 (List.mem_filter.1 hitem).1
  refine wellFormed_read (trimmed_trim piece) ?_ hne
  intro hc
  exact (exists_eq_of_mem_split hpiece).1 (mem_of_mem_trim hc)

end Binding

/-! ## Clauses -/

namespace Clause

/-- The default binding before a star is cut out of the text before it, between the marks. -/
theorem of_readBeforeStar? {before d : Text} (h : readBeforeStar? before = some d) :
    trim d = d ∧ ∀ b ∈ d, b ∈ before ∧ b ∉ [braceOpen, braceClose, comma] := by
  rw [readBeforeStar?] at h
  dsimp only at h
  split at h
  · rw [← Option.some.inj h]
    exact ⟨trim_nil, by simp⟩
  · split at h
    · split at h
      · cases h
      · rename_i hmarks
        rw [← Option.some.inj h]
        refine ⟨trim_trim _, ?_⟩
        intro b hb
        refine ⟨?_, ?_⟩
        · exact mem_of_mem_trim ((List.dropLast_sublist _).subset (mem_of_mem_trim hb))
        · exact containsAny_eq_false_iff.1 (Bool.eq_false_iff.2 (not_or.1 hmarks).2) b hb
    · cases h

/-- Before a star there is no star, so the default binding holds no mark at all. -/
theorem default_of_cutStar? {clause : Text} {cut : StarCut} (h : cutStar? clause = some cut) :
    trim cut.defaultName = cut.defaultName ∧ ∀ b ∈ cut.defaultName, b ∉ clauseMarks := by
  obtain ⟨before, after, rest, hfirst, hdefault, -⟩ := exists_of_cutStar? h
  obtain ⟨htrim, hbytes⟩ := of_readBeforeStar? hdefault
  obtain ⟨-, hstar⟩ := eq_of_cutFirst_byte hfirst
  refine ⟨htrim, ?_⟩
  intro b hb hmark
  obtain ⟨hbefore, hother⟩ := hbytes b hb
  have hne : b ≠ star := by
    rintro rfl
    exact hstar hbefore
  simp only [clauseMarks, List.mem_cons, List.not_mem_nil, or_false, not_or] at hmark hother
  rcases hmark with hmark | hmark | hmark | hmark
  · exact hother.2.2 hmark
  · exact hother.1 hmark
  · exact hother.2.1 hmark
  · exact hne hmark

theorem namespace_trimmed_of_cutStar? {clause : Text} {cut : StarCut}
    (h : cutStar? clause = some cut) : trim cut.namespaceName = cut.namespaceName := by
  obtain ⟨before, after, rest, -, -, -, -, -, hcut⟩ := exists_of_cutStar? h
  rcases hcut with ⟨-, hname, -⟩ | ⟨l, r, -, hname, -⟩
  · rw [hname]
    exact trim_trim rest
  · rw [hname]
    exact trim_trim l

/-- The bindings after a namespace binding are those of a list, if there are any. -/
theorem named_of_readAfterStar? {named : Text} {bs : List Binding}
    (h : readAfterStar? named = some bs) : bs = [] ∨ ∃ inner, bs = Binding.readList inner := by
  rw [readAfterStar?] at h
  split at h
  · exact Or.inl (Option.some.inj h).symm
  · split at h
    · rename_i inner _
      exact Or.inr ⟨inner, (Option.some.inj h).symm⟩
    · split at h
      · cases h
      · exact Or.inr ⟨named, (Option.some.inj h).symm⟩

theorem wellFormed_of_readPlain? {clause : Text} {c : Clause} (htrim : Trimmed clause)
    (h : readPlain? clause = some c) : c.WellFormed ∧ c.namespaceName = [] := by
  -- without a namespace binding only the default binding differs from case to case
  have hplain : ∀ {d inner : Text}, trim d = d → braceOpen ∉ d →
      (⟨d, [], Binding.readList inner⟩ : Clause).WellFormed := by
    intro d inner hd hbrace
    exact ⟨hd, hbrace, trim_nil, by simp, Binding.wellFormed_readList inner,
      Binding.nodup_distinct [] _⟩
  rw [readPlain?] at h
  split at h
  · rw [← Option.some.inj h]
    exact ⟨hplain trim_nil List.not_mem_nil, rfl⟩
  · split at h
    · rename_i before rest hopen
      obtain ⟨⟨inner, tail⟩, -, hc⟩ := Option.map_eq_some_iff.1 h
      rw [← hc]
      refine ⟨hplain (trim_trim _) ?_, rfl⟩
      intro hmem
      obtain ⟨-, hbefore⟩ := eq_of_cutFirst_byte hopen
      exact hbefore (mem_of_mem_trim (mem_of_mem_dropEndWhile (mem_of_mem_trim hmem)))
    · rename_i hopen
      split at h
      · cases h
      · rw [← Option.some.inj h]
        exact ⟨⟨trim_eq_self htrim, cutFirst_byte_eq_none_iff.1 hopen, trim_nil, by simp, by simp,
          List.nodup_nil⟩, rfl⟩

/-- **Every clause that is read is well formed.** -/
theorem wellFormed_of_read? {clause : Text} {c : Clause} (htrim : Trimmed clause)
    (h : read? clause = some c) : c.WellFormed ∧ c.PlainDefault := by
  rw [read?] at h
  split at h
  · cases h
  · split at h
    · rename_i cut hstar
      obtain ⟨named, hnamed, hc⟩ := Option.map_eq_some_iff.1 h
      obtain ⟨hdefault, hmarks⟩ := default_of_cutStar? hstar
      have hbrace : braceOpen ∉ cut.defaultName := not_mem_of_not_mark hmarks (by decide)
      have hlist : (∀ b ∈ named, b.WellFormed) ∧ (named.map Binding.name).Nodup := by
        rcases named_of_readAfterStar? hnamed with rfl | ⟨inner, rfl⟩
        · exact ⟨by simp, List.nodup_nil⟩
        · exact ⟨Binding.wellFormed_readList inner, Binding.nodup_distinct [] _⟩
      rw [← hc]
      exact ⟨⟨hdefault, hbrace, namespace_trimmed_of_cutStar? hstar, unmarked_of_cutStar? hstar,
        hlist.1, hlist.2⟩, fun _ => hmarks⟩
    · obtain ⟨hformed, hnone⟩ := wellFormed_of_readPlain? htrim h
      exact ⟨hformed, fun hne => absurd hnone hne⟩

/-- Well-formed clauses stay so when they are joined and sorted. -/
theorem kept_wellFormed : Kept WellFormed := by
  refine ((kept_each (p := fun n => trim n = n ∧ braceOpen ∉ n)
    (q := fun n => trim n = n ∧ ∀ b ∈ n, b ∉ clauseMarks) (r := Binding.WellFormed)
    ⟨trim_nil, List.not_mem_nil⟩ ⟨trim_nil, by simp⟩).and kept_nodup).of_iff ?_
  intro c
  constructor
  · rintro ⟨⟨⟨hdefault, hbrace⟩, ⟨hnamespace, hmarks⟩, hnamed⟩, hnodup⟩
    exact ⟨hdefault, hbrace, hnamespace, hmarks, hnamed, hnodup⟩
  · intro h
    exact ⟨⟨⟨h.default_trimmed, h.default_brace⟩, ⟨h.namespace_trimmed, h.namespace_unmarked⟩,
      h.named⟩, h.nodup⟩

end Clause

/-! ## Statements -/

/-- A line that is read has a source, and its clause was read from a trimmed text. -/
theorem Statement.wellFormed_of_read {line : Text} {s : Statement} (h : read line = .ok s) :
    s.WellFormed ∧ s.clause.PlainDefault := by
  rw [read] at h
  split at h
  · cases h
  · dsimp only at h
    split at h
    · cases h
    · rename_i hne
      split at h
      · cases h
      · rename_i c hc
        injection h with hs
        subst hs
        obtain ⟨hformed, hplain⟩ := Clause.wellFormed_of_read? (trimmed_trim _) hc
        exact ⟨⟨hne, hformed⟩, hplain⟩

theorem Declaration.wellFormed_of_read {line : Text} {index : Int} {d : Declaration}
    (h : read line index = .ok d) : d.statement.WellFormed ∧ d.clause.PlainDefault :=
  Statement.wellFormed_of_read (of_read h).2

theorem Rules.wellFormed_statements (r : Rules) {ds : List Declaration}
    (h : ∀ d ∈ ds, d.statement.WellFormed) : ∀ g ∈ r.statements ds, g.WellFormed := by
  have hparts : ∀ d ∈ ds, d.source ≠ [] ∧ d.clause.WellFormed := by
    intro d hd
    exact ⟨(h d hd).source_ne, (h d hd).clause⟩
  intro g hg
  obtain ⟨hsource, hclause⟩ :=
    r.forall_statements (p := fun t => t ≠ []) Clause.kept_wellFormed hparts g hg
  exact ⟨hsource, hclause⟩

/-- **What is read is well formed, and what is made of it too.**  Every line that is read
    gives a well-formed statement, with a plain default binding beside a namespace binding.
    The statements that are made of such declarations, joined or kept apart, sorted or not,
    are well formed. -/
theorem well_formed_readings :
    (∀ (line : Text) (index : Int) (d : Declaration), Declaration.read line index = .ok d →
      d.statement.WellFormed ∧ d.clause.PlainDefault)
      ∧ ∀ ds : List Declaration,
        (∀ d ∈ ds, ∃ line index, Declaration.read line index = .ok d) →
        ∀ sort removeCopies : Bool,
          (∀ g ∈ Merge.statements sort ds, g.WellFormed)
          ∧ ∀ g ∈ Flat.statements removeCopies sort ds, g.WellFormed ∧ g.clause.PlainDefault := by
  refine ⟨fun line index d h => Declaration.wellFormed_of_read h, ?_⟩
  intro ds hread sort removeCopies
  have hds : ∀ d ∈ ds, d.statement.WellFormed ∧ d.clause.PlainDefault := by
    intro d hd
    obtain ⟨line, index, h⟩ := hread d hd
    exact Declaration.wellFormed_of_read h
  refine ⟨?_, ?_⟩
  · exact Rules.wellFormed_statements { merge := true, sort } fun d hd => (hds d hd).1
  · intro g hg
    obtain ⟨d, hd, rfl⟩ := Flat.exists_of_mem_statements hg
    exact hds d hd

/-- A default binding with a brace in it, a star and a brace inside a list, and a namespace
    binding on another line of the module. -/
def strayMarksFile : Text :=
  text "import a\x7d,, \x7b b as c, *d\x7de,, b \x7d x from 'm'\nimport x, * as n from 'm'"

/-- The joined statement is well formed; its default binding is not plain. -/
theorem well_formed_readings_strayMarksFile :
    ∃ g ∈ Merge.statements true (Block.ofText strayMarksFile).declarations,
      g.clause.defaultName = text "a\x7d" ∧ g.clause.namespaceName = text "n"
      ∧ g.WellFormed ∧ ¬ g.clause.PlainDefault := by
  have hread : ∀ d ∈ (Block.ofText strayMarksFile).declarations,
      ∃ line index, Declaration.read line index = .ok d := by
    intro d hd
    obtain ⟨c, -, hread⟩ := Block.exists_of_mem_declarations hd
    exact ⟨c.text, c.index, hread⟩
  obtain ⟨hjoined, -⟩ := well_formed_readings.2 _ hread true false
  have hmem : (⟨text "m", ⟨text "a\x7d", text "n", [⟨text "*d\x7de", []⟩, ⟨text "b", text "c"⟩]⟩⟩
      : Statement) ∈ Merge.statements true (Block.ofText strayMarksFile).declarations := by
    decide +kernel
  exact ⟨_, hmem, rfl, rfl, hjoined _ hmem, by decide +kernel⟩

end ImportBlock
