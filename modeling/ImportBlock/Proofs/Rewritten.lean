import Mathlib
import ImportBlock.Proofs.Settled
import ImportBlock.Proofs.Statement.Origin

/-! # The import block of a rewritten text

    What is written for a text is cut again where it was put together: its import
    lines are those that were written, its body the old body (`Block.ofText_optimize`).
    Lines written for printable statements are read back, and lines that could not be
    read before can not be read now (`statements_rewritten`, `malformed_rewritten`). -/

namespace ImportBlock

open Text

/-- A declaration keeps the line that it was read from. -/
theorem Declaration.of_read {line : Text} {index : Int} {d : Declaration}
    (h : read line index = .ok d) : d.text = line ∧ Statement.read line = .ok d.statement := by
  rw [read] at h
  cases hs : Statement.read line with
  | error e =>
      rw [hs] at h
      cases h
  | ok s =>
      rw [hs] at h
      cases h
      exact ⟨rfl, rfl⟩

namespace Block

/-! ## Readings -/

/-- The statements of a block are what can be read of its lines. -/
theorem map_statement_declarations (b : Block) :
    b.declarations.map Declaration.statement
      = (b.candidates.map Candidate.text).filterMap fun l => (Statement.read l).toOption := by
  rw [declarations, readings]
  induction b.candidates with
  | nil => rfl
  | cons c cs ih =>
      rw [List.map_cons, List.map_cons, List.filterMap_cons, List.filterMap_cons,
        show Declaration.read c.text c.index
          = (Statement.read c.text).map fun s => ⟨c.text, c.index, s⟩ from rfl]
      cases Statement.read c.text with
      | error e => exact ih
      | ok s => exact congrArg (s :: ·) ih

/-- The other lines are malformed. -/
theorem malformed_eq_filter (b : Block) :
    b.malformed = (b.candidates.map Candidate.text).filter
      fun l => (Statement.read l).toOption.isNone := by
  rw [malformed, readings]
  induction b.candidates with
  | nil => rfl
  | cons c cs ih =>
      rw [List.map_cons, List.map_cons, List.filterMap_cons, List.filter_cons,
        show Declaration.read c.text c.index
          = (Statement.read c.text).map fun s => ⟨c.text, c.index, s⟩ from rfl]
      cases Statement.read c.text with
      | error e => exact congrArg (c.text :: ·) ih
      | ok s => exact ih

/-- A declaration of a block is the reading of one of its import lines. -/
theorem exists_of_mem_declarations {b : Block} {d : Declaration} (h : d ∈ b.declarations) :
    ∃ c ∈ b.candidates, Declaration.read c.text c.index = .ok d := by
  obtain ⟨⟨c, reading⟩, hreading, hd⟩ := List.mem_filterMap.1 h
  obtain ⟨c', hc', heq⟩ := List.mem_map.1 hreading
  obtain ⟨rfl, rfl⟩ := Prod.mk.inj heq
  refine ⟨c', hc', ?_⟩
  dsimp only at hd
  cases hread : Declaration.read c'.text c'.index with
  | error e =>
      rw [hread] at hd
      cases hd
  | ok d' =>
      rw [hread] at hd
      rw [Option.some.inj hd]

theorem asRead_of_mem_declarations {src : Text} {d : Declaration}
    (h : d ∈ (ofText src).declarations) : d.statement.AsRead := by
  obtain ⟨c, hc, hread⟩ := exists_of_mem_declarations h
  obtain ⟨-, hs⟩ := Declaration.of_read hread
  exact Statement.asRead_of_read (importLine_of_mem hc) hs

theorem importLine_of_mem_malformed {src l : Text} (h : l ∈ (ofText src).malformed) :
    ImportLine l := by
  rw [malformed_eq_filter] at h
  obtain ⟨c, hc, rfl⟩ := List.mem_map.1 (List.mem_filter.1 h).1
  exact importLine_of_mem hc

/-! ## The block of the rewritten text -/

/-- What is written before the body are import lines. -/
theorem importLine_of_mem_importLines {r : Rules} {src l : Text}
    (h : l ∈ importLines r (ofText src)) : ImportLine l := by
  -- no line feed was read, so none is written
  have hread : ∀ d ∈ (ofText src).declarations,
      newline ∉ d.source ∧ ∀ n ∈ d.clause.names, newline ∉ n := by
    intro d hd
    have hasRead := asRead_of_mem_declarations hd
    exact ⟨hasRead.source_oneLine, hasRead.clause.oneLine⟩
  have hkept : Clause.Kept fun c => ∀ n ∈ c.names, newline ∉ n :=
    Clause.kept_names List.not_mem_nil
  rcases List.mem_append.1 h with h | h
  · obtain ⟨g, hg, hline⟩ := List.mem_filterMap.1 h
    obtain ⟨hsource, hnames⟩ := r.forall_statements (p := fun t => newline ∉ t) hkept hread g hg
    exact Statement.importLine_of_render? hline hsource hnames
  · split at h
    · exact importLine_of_mem_malformed h
    · cases h

theorem optimize_eq_assemble (r : Rules) {src : Text} (hne : (ofText src).declarations ≠ []) :
    optimize r src = assemble (importLines r (ofText src)) (ofText src).body := if_neg hne

/-- **The rewritten text is cut where it was put together.** -/
theorem ofText_optimize (r : Rules) {src : Text} (h : (ofText src).declarations ≠ []) :
    ofText (optimize r src) =
      { candidates := numbered 0 (importLines r (ofText src))
        body := (dropFinalEmpty (ofText src).body).map (chopEnd carriageReturn) } := by
  rw [optimize_eq_assemble r h]
  exact ofText_assemble (fun l hl => importLine_of_mem_importLines hl) (bodyStart_ofText src)
    fun l hl => newline_not_mem_body hl

/-- **The block boundary survives the rewrite.**  The import lines of the rewritten text
    are the lines that were written, counted from 0, and its body is the old body as its
    lines are counted.  Nothing else stands in the text: its lines are the written ones,
    a blank line if there are import lines and a body, and the body. -/
theorem rewritten_block (r : Rules) (src : Text) (hne : (ofText src).declarations ≠ []) :
    (ofText (optimize r src)).candidates.map Candidate.text = importLines r (ofText src)
      ∧ (ofText (optimize r src)).candidates.map Candidate.index
        = List.range (importLines r (ofText src)).length
      ∧ (ofText (optimize r src)).body
        = (dropFinalEmpty (ofText src).body).map (chopEnd carriageReturn)
      ∧ lines (optimize r src) = importLines r (ofText src)
        ++ (gap (importLines r (ofText src)) (ofText src).body
        ++ (ofText (optimize r src)).body) := by
  have himports : ∀ l ∈ importLines r (ofText src), ImportLine l := by
    intro l hl
    exact importLine_of_mem_importLines hl
  rw [ofText_optimize r hne]
  refine ⟨map_text_numbered 0 _, ?_, rfl, ?_⟩
  · rw [List.range_eq_range']
    exact map_index_numbered 0 _
  · rw [optimize_eq_assemble r hne]
    exact lines_assemble himports fun l hl => newline_not_mem_body hl

/-- A file with a no-break space before an import line, a line that cannot be read, two
    carriage returns at the end of a body line and an import line in the body. -/
def strayFile : Text :=
  text "\u00a0import b from 'b'\r\nimport oops\n\nrun();\r\r\n\timport late from 'l';\n\n"

theorem rewritten_block_strayFile :
    (ofText strayFile).body = [text "run();\r", text "\timport late from 'l';", []]
      ∧ (ofText (optimize { keepMalformed := true } strayFile)).candidates.map Candidate.text
        = [text "import b from 'b';", text "import oops"]
      ∧ (ofText (optimize { keepMalformed := true } strayFile)).candidates.map Candidate.index
        = [0, 1]
      ∧ (ofText (optimize { keepMalformed := true } strayFile)).body
        = [text "run();", text "\timport late from 'l';"] := by
  obtain ⟨htexts, hindices, hbody, -⟩ :=
    rewritten_block { keepMalformed := true } strayFile (by decide +kernel)
  have hwritten : importLines { keepMalformed := true } (ofText strayFile)
      = [text "import b from 'b';", text "import oops"] := by decide +kernel
  have hold : (ofText strayFile).body
      = [text "run();\r", text "\timport late from 'l';", []] := by decide +kernel
  rw [hwritten] at htexts hindices
  rw [hold] at hbody
  exact ⟨hold, htexts, hindices, hbody⟩

end Block

/-- Texts for which the same lines are written before the same body become the same. -/
theorem optimize_congr {r : Rules} {src src' : Text} (hne : (Block.ofText src).declarations ≠ [])
    (hne' : (Block.ofText src').declarations ≠ [])
    (hlines : importLines r (Block.ofText src) = importLines r (Block.ofText src'))
    (hbody : (Block.ofText src).body = (Block.ofText src').body) :
    optimize r src = optimize r src' := by
  rw [Block.optimize_eq_assemble r hne, Block.optimize_eq_assemble r hne', hlines, hbody]

/-! ## Reading it back -/

/-- The statements that have a line. -/
def Statement.written (gs : List Statement) : List Statement :=
  gs.filter fun g => g.render?.isSome

/-- A statement that is read back from its line. -/
structure Statement.Printable (s : Statement) : Prop where
  source_ne : s.source ≠ []
  clause : s.clause.Printable

/-- The names of a clause hold none of the marks that would give it another shape. -/
def Clause.Unmarked (c : Clause) : Prop :=
  (∀ b ∈ [comma, braceOpen, braceClose, star], b ∉ c.defaultName)
    ∧ ∀ d ∈ c.named, ∀ b ∈ [braceOpen, braceClose, star], b ∉ d.name ∧ b ∉ d.localName

instance (c : Clause) : Decidable c.Unmarked :=
  decidable_of_iff
    (([comma, braceOpen, braceClose, star].all fun b => b ∉ c.defaultName) = true
      ∧ ∀ d ∈ c.named, ([braceOpen, braceClose, star].all
          fun b => b ∉ d.name ∧ b ∉ d.localName) = true)
    (by simp only [Clause.Unmarked, List.all_eq_true, decide_eq_true_eq])

theorem Clause.AsRead.printable_of_unmarked {c : Clause} (h : c.AsRead) (hmarks : c.Unmarked) :
    c.Printable :=
  h.printable (fun b hb hmark => hmarks.1 b hmark hb) hmarks.2

/-- Statements that are made of unmarked clauses can be printed and read back. -/
theorem printable_of_mem_statements {r : Rules} {src : Text}
    (hclauses : ∀ d ∈ (Block.ofText src).declarations, d.clause.Unmarked) :
    ∀ g ∈ r.statements (Block.ofText src).declarations, g.Printable := by
  have hds : ∀ d ∈ (Block.ofText src).declarations, d.source ≠ [] ∧ d.clause.Printable := by
    intro d hd
    have hread := Block.asRead_of_mem_declarations hd
    exact ⟨hread.source_ne, hread.clause.printable_of_unmarked (hclauses d hd)⟩
  intro g hg
  obtain ⟨hsource, hclause⟩ :=
    r.forall_statements (p := fun t => t ≠ []) Clause.kept_printable hds g hg
  exact ⟨hsource, hclause⟩

/-- What is found in each written line is found in all of them. -/
theorem Statement.filterMap_renderAll {α : Type} {find? : Text → Option α} {f : Statement → α}
    {gs : List Statement} (h : ∀ g ∈ gs, ∀ line, g.render? = some line → find? line = some (f g)) :
    (renderAll gs).filterMap find? = (written gs).map f := by
  induction gs with
  | nil => rfl
  | cons g gs ih =>
      have hrest := ih fun g' hg' => h g' (List.mem_cons_of_mem g hg')
      rw [renderAll, List.filterMap_cons, written, List.filter_cons]
      cases hline : g.render? with
      | none => exact hrest
      | some line =>
          rw [List.filterMap_cons, h g List.mem_cons_self line hline]
          exact congrArg (f g :: ·) hrest

/-- Lines of printable statements are read back, up to the case of a lone binding. -/
theorem Statement.filterMap_read_renderAll {gs : List Statement} (h : ∀ g ∈ gs, g.Printable) :
    (renderAll gs).filterMap (fun l => (read l).toOption) = (written gs).map reread := by
  refine filterMap_renderAll ?_
  intro g hg line hline
  rw [read_render (h g hg).clause (h g hg).source_ne hline]
  rfl

theorem Statement.filter_renderAll {gs : List Statement} (h : ∀ g ∈ gs, g.Printable) :
    (renderAll gs).filter (fun l => (read l).toOption.isNone) = [] := by
  refine List.filter_eq_nil_iff.2 ?_
  intro l hl
  obtain ⟨g, hg, hline⟩ := List.mem_filterMap.1 hl
  rw [read_render (h g hg).clause (h g hg).source_ne hline]
  exact Bool.false_ne_true

/-- What is read back has the same lines. -/
theorem Statement.renderAll_reread (gs : List Statement) :
    renderAll ((written gs).map reread) = renderAll gs := by
  induction gs with
  | nil => rfl
  | cons g gs ih =>
      rw [renderAll, renderAll, written, List.filter_cons, List.filterMap_cons]
      cases hline : g.render? with
      | none => exact ih
      | some line =>
          show ((g.reread :: (written gs).map reread).filterMap render?) = _
          rw [List.filterMap_cons, reread_render? hline]
          exact congrArg (line :: ·) ih

section

variable {r : Rules} {src : Text} (hne : (Block.ofText src).declarations ≠ [])
  (h : ∀ g ∈ r.statements (Block.ofText src).declarations, g.Printable)

include hne h

/-- The statements of the rewritten text are those that were written. -/
theorem statements_rewritten :
    (Block.ofText (optimize r src)).declarations.map Declaration.statement
      = (Statement.written (r.statements (Block.ofText src).declarations)).map
          Statement.reread := by
  rw [Block.map_statement_declarations, Block.ofText_optimize r hne, Block.map_text_numbered,
    importLines, List.filterMap_append, Statement.filterMap_read_renderAll h]
  -- nothing is read from the lines that were kept as they are
  have hbad : (if r.keepMalformed = true then (Block.ofText src).malformed else []).filterMap
      (fun l => (Statement.read l).toOption) = [] := by
    split
    · refine List.filterMap_eq_nil_iff.2 ?_
      intro l hl
      rw [Block.malformed_eq_filter] at hl
      exact Option.isNone_iff_eq_none.1 (List.mem_filter.1 hl).2
    · rfl
  rw [hbad, List.append_nil]

/-- The malformed lines of the rewritten text are those that were kept. -/
theorem malformed_rewritten :
    (Block.ofText (optimize r src)).malformed
      = if r.keepMalformed = true then (Block.ofText src).malformed else [] := by
  rw [Block.malformed_eq_filter, Block.ofText_optimize r hne, Block.map_text_numbered,
    importLines, List.filter_append, Statement.filter_renderAll h, List.nil_append]
  refine List.filter_eq_self.2 ?_
  intro l hl
  split at hl
  · rw [Block.malformed_eq_filter] at hl
    exact (List.mem_filter.1 hl).2
  · cases hl

end

end ImportBlock
