import Mathlib
import ImportBlock.Proofs.Joining
import ImportBlock.Proofs.Rewritten

/-! # Module sources are read back

    Whatever the lines of a file hold, the names that are written come from cuts that
    leave words whole, so the first whole word `from` of a written line is the one that
    was written for it, and the source behind it is read back byte for byte.

    What the rules do to statements can therefore be read off the rewritten text:
    `sources_of_rewritten_text` says that joining leaves one statement for each module
    and in which order the modules stand. -/

namespace ImportBlock

open Text

/-! ## One line -/

/-- The module source that a line states behind its first whole word `from`. -/
def Statement.statedSource? (line : Text) : Option Text :=
  (indexWord line fromWord).map fun i => readSource (trim (line.drop (i + fromWord.length)))

theorem Statement.render?_isSome_iff {g : Statement} :
    g.render?.isSome = true ↔ g.clause.render ≠ [] := by
  rw [Option.isSome_iff_exists]
  constructor
  · rintro ⟨line, hline⟩
    exact (render?_eq_some_iff.1 hline).1
  · intro hne
    exact ⟨_, render?_eq_some_iff.2 ⟨hne, rfl⟩⟩

/-- A written line states the source it was written with. -/
theorem Statement.statedSource?_render {g : Statement} {line : Text} (h : g.clause.Spelled)
    (hline : g.render? = some line) : statedSource? line = some g.source := by
  obtain ⟨hne, rfl⟩ := render?_eq_some_iff.1 hline
  rw [statedSource?, indexWord_renderLine g.source (h.part hne), Option.map_some,
    readSource_renderLine]

/-! ## All lines -/

/-- The statements of a text are written part by part, whatever the text holds. -/
theorem spelled_of_mem_statements {r : Rules} {src : Text} {g : Statement}
    (hg : g ∈ r.statements (Block.ofText src).declarations) : g.clause.Spelled := by
  have hread : ∀ d ∈ (Block.ofText src).declarations, True ∧ d.clause.Spelled := by
    intro d hd
    exact ⟨trivial, (Block.asRead_of_mem_declarations hd).clause.spelled⟩
  exact (r.forall_statements (p := fun _ => True) Clause.kept_spelled hread g hg).2

/-- The sources of the statements that are written for a text, as the rewritten text
    states them. -/
def sourcesReadBack (r : Rules) (src : Text) : List Text :=
  (((Block.ofText (optimize r src)).candidates.map Candidate.text).take
      (Statement.renderAll (r.statements (Block.ofText src).declarations)).length).filterMap
    Statement.statedSource?

theorem Rules.statements_nil (r : Rules) : r.statements [] = [] := by
  obtain ⟨sort, dedupe, merge, keepMalformed⟩ := r
  cases merge with
  | true => cases sort <;> rfl
  | false => cases sort <;> cases dedupe <;> rfl

/-- **The sources that are read back are those that were written.** -/
theorem sourcesReadBack_eq (r : Rules) (src : Text) :
    sourcesReadBack r src
      = (Statement.written (r.statements (Block.ofText src).declarations)).map
          Statement.source := by
  have hstated : (Statement.renderAll (r.statements (Block.ofText src).declarations)).filterMap
      Statement.statedSource?
      = (Statement.written (r.statements (Block.ofText src).declarations)).map
          Statement.source := by
    refine Statement.filterMap_renderAll ?_
    intro g hg line hline
    exact Statement.statedSource?_render (spelled_of_mem_statements hg) hline
  rw [← hstated, sourcesReadBack]
  by_cases hne : (Block.ofText src).declarations = []
  · -- nothing was written
    rw [hne, r.statements_nil]
    rfl
  · -- the statements were written before the lines that could not be read
    rw [Block.ofText_optimize r hne, Block.map_text_numbered, importLines, List.take_left]

/-- Joined statements are written in order of first appearance, if the rules do not sort. -/
theorem sources_joined {r : Rules} (hmerge : r.merge = true) (hsort : r.sort = false)
    (ds : List Declaration) :
    (Statement.written (r.statements ds)).map Statement.source
      = (ds.map Declaration.source).eraseDups.filter fun source =>
          (Merge.joined (ds.map Declaration.statement) source).render ≠ [] := by
  have hgroups : r.statements ds = Merge.groups ds := by
    rw [Rules.statements, hmerge, Merge.statements, hsort]
    rfl
  rw [hgroups, Merge.groups_eq, Statement.written, List.filter_map, List.map_map]
  show List.map id _ = _
  rw [List.map_id]
  refine List.filter_congr ?_
  intro source _
  rw [Bool.eq_iff_iff, decide_eq_true_iff]
  exact Statement.render?_isSome_iff

/-- **Sources survive and joining leaves one statement for each module.**  In every line
    that is written for a statement, the first whole word `from` stands right behind
    `import`, the clause and their spaces, and the source is read back behind it.  The
    sources read back from the rewritten text are those of the written statements: they
    are distinct if the rules join, in ascending order if the rules sort, and in order
    of first appearance if the rules join and do not sort. -/
theorem sources_of_rewritten_text (r : Rules) (src : Text) :
    (∀ g ∈ r.statements (Block.ofText src).declarations, ∀ line, g.render? = some line →
      indexWord line fromWord = some (text "import " ++ g.clause.render ++ text " ").length
        ∧ readSource (trim (line.drop
            ((text "import " ++ g.clause.render ++ text " ").length + fromWord.length)))
          = g.source)
      ∧ sourcesReadBack r src
        = (Statement.written (r.statements (Block.ofText src).declarations)).map Statement.source
      ∧ (r.merge = true → (sourcesReadBack r src).Nodup)
      ∧ (r.sort = true → (sourcesReadBack r src).Pairwise (· ≤ ·))
      ∧ (r.merge = true → r.sort = true → (sourcesReadBack r src).Pairwise (· < ·))
      ∧ (r.merge = true → r.sort = false → sourcesReadBack r src
        = ((Block.ofText src).declarations.map Declaration.source).eraseDups.filter fun source =>
            (Merge.joined ((Block.ofText src).declarations.map Declaration.statement)
              source).render ≠ []) := by
  have hread := sourcesReadBack_eq r src
  -- the written statements are settled, as all statements are
  have hsettled : Settled r (Statement.written (r.statements (Block.ofText src).declarations)) :=
    (r.settled_statements _).sublist List.filter_sublist
  have hnodup : r.merge = true → (sourcesReadBack r src).Nodup := by
    intro hmerge
    rw [hread]
    exact hsettled.apart hmerge
  have hsorted : r.sort = true → (sourcesReadBack r src).Pairwise (· ≤ ·) := by
    intro hsort
    rw [hread]
    exact List.pairwise_map.2 (hsettled.sorted hsort)
  refine ⟨?_, hread, hnodup, hsorted, ?_, ?_⟩
  · intro g hg line hline
    obtain ⟨hne, rfl⟩ := Statement.render?_eq_some_iff.1 hline
    exact ⟨Statement.indexWord_renderLine g.source ((spelled_of_mem_statements hg).part hne),
      Statement.readSource_renderLine _ _⟩
  · intro hmerge hsort
    exact pairwise_lt_of_nodup (hsorted hsort) (hnodup hmerge)
  · intro hmerge hsort
    rw [hread]
    exact sources_joined hmerge hsort _

/-- A file with the word `from` inside longer words, a source with quotes and a semicolon
    that appears twice, a statement that binds nothing, and one that cannot be read. -/
def quotedFile : Text :=
  unlines
    [text "import fromage, \x7b xfrom as from_ \x7d from 'z'; // 'q'",
      text "import \x7b\x7d from 'e'", text "import oops", text "import b from 'a'",
      text "import c from \"z'; // 'q\""]

theorem sources_of_rewritten_text_quotedFile :
    sourcesReadBack { merge := true, keepMalformed := true } quotedFile
        = [text "z'; // 'q", text "a"]
      ∧ (sourcesReadBack { sort := true, merge := true } quotedFile).Pairwise (· < ·) := by
  obtain ⟨-, -, -, -, -, hfirst⟩ :=
    sources_of_rewritten_text { merge := true, keepMalformed := true } quotedFile
  obtain ⟨-, -, -, -, hstrict, -⟩ :=
    sources_of_rewritten_text { sort := true, merge := true } quotedFile
  refine ⟨?_, hstrict rfl rfl⟩
  rw [hfirst rfl rfl]
  decide +kernel

end ImportBlock
