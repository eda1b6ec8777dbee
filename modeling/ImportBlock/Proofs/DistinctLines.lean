import Mathlib
import ImportBlock.Proofs.FirstCopies
import ImportBlock.Proofs.Layout
import ImportBlock.Proofs.Sources

/-! # Lines that are written twice

    Copies are recognized by the text of a line as it was found, and a line may be spelled
    in many ways that are all written the same: with other quotes, other spaces, or braces
    around a lone binding.  So dropping copies leaves one statement for each spelling
    (`Flat.written_perm`), and a line is written twice exactly if two spellings of it are
    there, `written_lines_distinct_iff`.

    A written line is taken apart in one way, `Statement.render?_inj`: two lines are the same
    if their module sources and their written clauses are. -/

namespace ImportBlock

open Text

/-! ## Written lines -/

/-- A written line determines the source and the written clause. -/
theorem Statement.render?_inj {g g' : Statement} {line : Text} (h : g.clause.Spelled)
    (h' : g'.clause.Spelled) (hline : g.render? = some line) (hline' : g'.render? = some line) :
    g.source = g'.source ∧ g.clause.render = g'.clause.render := by
  have hsource : g.source = g'.source := by
    have hstated := statedSource?_render h hline
    rw [statedSource?_render h' hline'] at hstated
    exact (Option.some.inj hstated).symm
  refine ⟨hsource, ?_⟩
  obtain ⟨hne, hparts⟩ := render?_eq_some_iff.1 hline
  obtain ⟨hne', hparts'⟩ := render?_eq_some_iff.1 hline'
  -- the clauses end at the same place, right before the first word `from`
  have hlength : g.clause.render.length = g'.clause.render.length := by
    have hindex := indexWord_renderLine g.source (h.part hne)
    rw [hparts, ← hparts', indexWord_renderLine g'.source (h'.part hne'),
      Option.some.injEq] at hindex
    simp only [List.length_append] at hindex
    omega
  rw [← hparts', renderLine_eq, renderLine_eq] at hparts
  simp only [List.append_assoc] at hparts
  exact (List.append_inj (List.append_cancel_left (List.append_cancel_left hparts)) hlength).1

/-- The line of a statement is there again if source and written clause are. -/
theorem Statement.render?_congr {g g' : Statement} (hsource : g.source = g'.source)
    (hclause : g.clause.render = g'.clause.render) : g.render? = g'.render? := by
  rw [render?, render?, hsource, hclause]

namespace Flat

/-- Without copies there is one line for each text that binds something. -/
theorem written_perm (sort : Bool) (ds : List Declaration) :
    (Statement.renderAll (statements true sort ds)).Perm
      ((firstOfEachText ds).filterMap fun d => d.statement.render?) := by
  have hkept : (if sort = true then sortOn Declaration.source (firstCopies [] ds)
      else firstCopies [] ds).Perm (firstOfEachText ds) := by
    rw [firstCopies_eq]
    split
    · exact sortOn_perm Declaration.source _
    · exact List.Perm.refl _
  rw [Statement.renderAll, statements, List.filterMap_map]
  exact hkept.filterMap _

/-- A text has a first declaration, and it states the same. -/
theorem exists_first {ds : List Declaration} (h : OneReading ds) {d : Declaration} (hd : d ∈ ds) :
    ∃ e ∈ firstOfEachText ds, e.text = d.text ∧ e.statement = d.statement := by
  have hmem : d.text ∈ (firstOfEachText ds).map Declaration.text := by
    rw [texts_firstOfEachText, List.mem_eraseDups]
    exact List.mem_map.2 ⟨d, hd, rfl⟩
  obtain ⟨e, he, htext⟩ := List.mem_map.1 hmem
  have he' : e ∈ ds := by
    rw [← firstCopies_eq] at he
    exact mem_of_mem_firstCopies he
  exact ⟨e, he, htext, h e he' d hd htext⟩

/-- Entries for which the same is found are the same if everything is found once. -/
theorem eq_of_nodup_filterMap {f : Declaration → Option Text} {ds : List Declaration}
    (h : (ds.filterMap f).Nodup) {d e : Declaration} (hd : d ∈ ds) (he : e ∈ ds) {line : Text}
    (hline : f d = some line) (hline' : f e = some line) : d = e := by
  induction ds with
  | nil => cases hd
  | cons c ds ih =>
      rw [List.filterMap_cons] at h
      cases hc : f c with
      | none =>
          have hne : ∀ {a : Declaration}, f a = some line → a ≠ c := by
            rintro a ha rfl
            rw [hc] at ha
            cases ha
          rw [hc] at h
          exact ih h ((List.mem_cons.1 hd).resolve_left (hne hline))
            ((List.mem_cons.1 he).resolve_left (hne hline'))
      | some x =>
          rw [hc] at h
          obtain ⟨hx, hrest⟩ := List.nodup_cons.1 h
          have hnew : ∀ a ∈ ds, f a ≠ some x := by
            intro a ha hfa
            exact hx (List.mem_filterMap.2 ⟨a, ha, hfa⟩)
          rcases List.mem_cons.1 hd with hdc | hdc
          · rcases List.mem_cons.1 he with hec | hec
            · rw [hdc, hec]
            · rw [hdc, hc] at hline
              exact absurd (hline'.trans hline.symm) (hnew e hec)
          · rcases List.mem_cons.1 he with hec | hec
            · rw [hec, hc] at hline'
              exact absurd (hline.trans hline'.symm) (hnew d hdc)
            · exact ih hrest hdc hec

/-- What is found for each text is found once exactly if no two texts give the same. -/
theorem nodup_filterMap_iff {f : Statement → Option Text} {ds : List Declaration}
    (h : OneReading ds) :
    ((firstOfEachText ds).filterMap fun d => f d.statement).Nodup
      ↔ ∀ d ∈ ds, ∀ e ∈ ds, ∀ line, f d.statement = some line → f e.statement = some line →
          d.text = e.text := by
  constructor
  · intro hnodup d hd e he line hline hline'
    obtain ⟨d', hd', htext, hstatement⟩ := exists_first h hd
    obtain ⟨e', he', htext', hstatement'⟩ := exists_first h he
    rw [← hstatement] at hline
    rw [← hstatement'] at hline'
    rw [← htext, ← htext', eq_of_nodup_filterMap hnodup hd' he' hline hline']
  · intro hlines
    have htexts : (firstOfEachText ds).Pairwise fun a b => a.text ≠ b.text :=
      List.pairwise_map.1 (nodup_texts_firstOfEachText ds)
    refine List.pairwise_filterMap.2 (htexts.imp_of_mem ?_)
    intro a b ha hb hne x hx y hy hxy
    rw [← firstCopies_eq] at ha hb
    rw [← hxy] at hy
    exact hne (hlines a (mem_of_mem_firstCopies ha) b (mem_of_mem_firstCopies hb) x hx hy)

/-! ## A further run -/

/-- Nothing is noted exactly if no text comes again. -/
theorem laterCopies_eq_nil_iff {seen : List Text} {ds : List Declaration} :
    laterCopies seen ds = [] ↔ (ds.map Declaration.text).Nodup ∧ ∀ d ∈ ds, d.text ∉ seen := by
  induction ds generalizing seen with
  | nil => simp [laterCopies]
  | cons d ds ih =>
      rw [laterCopies, List.map_cons, List.nodup_cons]
      split
      · rename_i hseen
        simp [hseen]
      · rename_i hseen
        rw [ih]
        constructor
        · rintro ⟨hnodup, hnew⟩
          refine ⟨⟨?_, hnodup⟩, ?_⟩
          · intro hmem
            obtain ⟨e, he, htext⟩ := List.mem_map.1 hmem
            exact hnew e he (htext ▸ List.mem_cons_self)
          · intro e he hmem
            rcases List.mem_cons.1 he with rfl | he
            · exact hseen hmem
            · exact hnew e he (List.mem_cons_of_mem d.text hmem)
        · rintro ⟨⟨hfirst, hnodup⟩, hnew⟩
          refine ⟨hnodup, ?_⟩
          intro e he hmem
          rcases List.mem_cons.1 hmem with htext | hmem
          · exact hfirst (List.mem_map.2 ⟨e, he, htext⟩)
          · exact hnew e (List.mem_cons_of_mem d he) hmem

theorem exists_of_mem_laterCopies {seen : List Text} {ds : List Declaration} {n : Note}
    (h : n ∈ laterCopies seen ds) : ∃ line source, n = .duplicate line source := by
  induction ds generalizing seen with
  | nil => cases h
  | cons d ds ih =>
      rw [laterCopies] at h
      split at h
      · rcases List.mem_cons.1 h with rfl | h
        · exact ⟨d.line, d.source, rfl⟩
        · exact ih h
      · exact ih h

end Flat

/-- No line of the text is taken for a copy of an earlier one. -/
def FindsNoCopy (r : Rules) (src : Text) : Prop :=
  ∀ line source, Note.duplicate line source ∉ notes r src

/-- Can the line be read? -/
def isReadable (line : Text) : Bool := (Statement.read line).toOption.isSome

theorem Block.texts_declarations (b : Block) :
    b.declarations.map Declaration.text
      = (b.candidates.map Candidate.text).filter isReadable := by
  have htexts : b.declarations.map Declaration.text
      = (b.declarations.map Declaration.unplaced).map Declaration.text := by
    rw [List.map_map]
    rfl
  rw [htexts, map_unplaced_declarations, List.map_filterMap, ← List.filterMap_eq_filter]
  refine List.filterMap_congr ?_
  intro l _
  rw [Declaration.read, Option.guard, isReadable]
  cases Statement.read l with
  | error e => rfl
  | ok s => rfl

/-- The notes about copies are those of the pass that drops them. -/
theorem duplicate_mem_notes_iff {r : Rules} (hdedupe : r.dedupe = true) (hmerge : r.merge = false)
    (src : Text) (line : Int) (source : Text) :
    Note.duplicate line source ∈ notes r src
      ↔ Note.duplicate line source ∈ Flat.laterCopies [] (Block.ofText src).declarations := by
  have hreadings : Note.duplicate line source ∉ (Block.ofText src).readings.map
      fun reading => Note.ofReading reading.1.index reading.2 := by
    intro hmem
    obtain ⟨⟨c, reading⟩, -, hnote⟩ := List.mem_map.1 hmem
    cases reading with
    | error e => cases hnote
    | ok d => cases hnote
  rw [notes]
  dsimp only
  split
  · rename_i hnone
    rw [hnone]
    exact iff_of_false hreadings List.not_mem_nil
  · have hdropped : Note.duplicate line source ∉
        (if (Block.ofText src).malformed = [] ∨ r.keepMalformed = true then []
          else [Note.dropped (Block.ofText src).malformed.length]) := by
      split
      · exact List.not_mem_nil
      · simp
    rw [List.mem_append, List.mem_append, or_iff_left hdropped, or_iff_right hreadings,
      Rules.statementNotes, hmerge, Flat.notes, hdedupe]
    rfl

/-- Copies are found exactly if two lines that can be read are the same. -/
theorem findsNoCopy_iff {r : Rules} (hdedupe : r.dedupe = true) (hmerge : r.merge = false)
    (src : Text) :
    FindsNoCopy r src ↔ ((Block.ofText src).declarations.map Declaration.text).Nodup := by
  have hnil : FindsNoCopy r src
      ↔ Flat.laterCopies [] (Block.ofText src).declarations = [] := by
    rw [List.eq_nil_iff_forall_not_mem]
    constructor
    · intro hnone n hn
      obtain ⟨line, source, rfl⟩ := Flat.exists_of_mem_laterCopies hn
      exact hnone line source ((duplicate_mem_notes_iff hdedupe hmerge src line source).2 hn)
    · intro hnone line source hmem
      exact hnone _ ((duplicate_mem_notes_iff hdedupe hmerge src line source).1 hmem)
  rw [hnil, Flat.laterCopies_eq_nil_iff]
  exact and_iff_left fun d _ => List.not_mem_nil

/-- The lines of the rewritten text that can be read are among those that were written for
    statements. -/
theorem texts_rewritten (r : Rules) (src : Text) :
    (Block.ofText (optimize r src)).declarations.map Declaration.text
      = (Statement.renderAll (r.statements (Block.ofText src).declarations)).filter
          isReadable := by
  by_cases hne : (Block.ofText src).declarations = []
  · -- the text was left alone
    have hsame : optimize r src = src := if_pos hne
    rw [hsame, hne, r.statements_nil]
    rfl
  · have hbad : (if r.keepMalformed = true then (Block.ofText src).malformed else []).filter
        isReadable = [] := by
      refine List.filter_eq_nil_iff.2 ?_
      intro l hl
      split at hl
      · rw [Block.malformed_eq_filter] at hl
        have hnone := (List.mem_filter.1 hl).2
        rw [Option.isNone_iff_eq_none] at hnone
        rw [isReadable, hnone]
        exact Bool.false_ne_true
      · cases hl
    rw [Block.texts_declarations, Block.ofText_optimize r hne, Block.map_text_numbered,
      importLines, List.filter_append, hbad, List.append_nil]

/-- **One line for each spelling.**  If the rules drop copies and do not join, there is one
    line for each text of the block that binds something.  The lines are distinct exactly if
    no two texts agree in their source and in the clause that is written for them.  A further
    run takes no line for a copy exactly if the written lines that can be read again are
    distinct, so it takes none if all of them are. -/
theorem written_lines_distinct_iff (r : Rules) (hdedupe : r.dedupe = true)
    (hmerge : r.merge = false) (src : Text) :
    ((Statement.renderAll (r.statements (Block.ofText src).declarations)).Perm
      ((Flat.firstOfEachText (Block.ofText src).declarations).filterMap
        fun d => d.statement.render?))
      ∧ ((Statement.renderAll (r.statements (Block.ofText src).declarations)).Nodup
        ↔ ∀ d ∈ (Block.ofText src).declarations, ∀ e ∈ (Block.ofText src).declarations,
          d.clause.render ≠ [] → d.source = e.source → d.clause.render = e.clause.render →
          d.text = e.text)
      ∧ (FindsNoCopy r (optimize r src)
        ↔ ((Statement.renderAll (r.statements (Block.ofText src).declarations)).filter
          isReadable).Nodup)
      ∧ ((Statement.renderAll (r.statements (Block.ofText src).declarations)).Nodup →
        FindsNoCopy r (optimize r src)) := by
  have hflat : r.statements (Block.ofText src).declarations
      = Flat.statements true r.sort (Block.ofText src).declarations := by
    rw [Rules.statements, hmerge, hdedupe]
    rfl
  have hcopy : FindsNoCopy r (optimize r src)
      ↔ ((Statement.renderAll (r.statements (Block.ofText src).declarations)).filter
        isReadable).Nodup := by
    rw [findsNoCopy_iff hdedupe hmerge, texts_rewritten]
  have hperm : (Statement.renderAll (r.statements (Block.ofText src).declarations)).Perm
      ((Flat.firstOfEachText (Block.ofText src).declarations).filterMap
        fun d => d.statement.render?) := by
    rw [hflat]
    exact Flat.written_perm r.sort _
  refine ⟨hperm, ?_, hcopy, fun hnodup => hcopy.2 (hnodup.filter _)⟩
  rw [hperm.nodup_iff, Flat.nodup_filterMap_iff (Block.oneReading_declarations _)]
  constructor
  · intro hlines d hd e he hne hsource hclause
    obtain ⟨line, hline⟩ := Option.isSome_iff_exists.1 (Statement.render?_isSome_iff.2 hne)
    exact hlines d hd e he line hline (Statement.render?_congr hsource hclause ▸ hline)
  · intro htexts d hd e he line hline hline'
    obtain ⟨hsource, hclause⟩ := Statement.render?_inj
      (Block.asRead_of_mem_declarations hd).clause.spelled
      (Block.asRead_of_mem_declarations he).clause.spelled hline hline'
    exact htexts d hd e he (Statement.render?_eq_some_iff.1 hline).1 hsource hclause

/-- A file with a copy of a line, a statement that binds nothing, and two statements of one
    module. -/
def settledFile : Text :=
  unlines
    [text "import a from \"a\"", text "import \x7b b, c \x7d from 'a';",
      text "import a from \"a\"", text "import \x7b\x7d from 'a'"]

theorem written_lines_distinct_settledFile :
    (Statement.renderAll (Rules.statements { dedupe := true }
        (Block.ofText settledFile).declarations)).Nodup
      ∧ FindsNoCopy { dedupe := true } (optimize { dedupe := true } settledFile) := by
  obtain ⟨-, hlines, -, hcopy⟩ :=
    written_lines_distinct_iff { dedupe := true } rfl rfl settledFile
  have hnodup := hlines.2 (by decide +kernel)
  exact ⟨hnodup, hcopy hnodup⟩

/-- One statement in two spellings. -/
def respelledFile : Text := text "import a from 'a';\nimport a from \"a\";\n"

/-- **Two spellings are written twice**, and a further run drops one of them. -/
theorem respelled_line_written_twice :
    ¬ (Statement.renderAll (Rules.statements { dedupe := true }
        (Block.ofText respelledFile).declarations)).Nodup
      ∧ optimize { dedupe := true } respelledFile
        = text "import a from 'a';\nimport a from 'a';"
      ∧ Note.duplicate 1 (text "a")
        ∈ notes { dedupe := true } (optimize { dedupe := true } respelledFile) := by
  refine ⟨?_, ?_, ?_⟩
  · decide +kernel
  · decide +kernel
  · decide +kernel

end ImportBlock
