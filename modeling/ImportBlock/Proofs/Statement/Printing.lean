import Mathlib
import ImportBlock.Proofs.Clause.Printing

/-! # Printed statements are read back

    A line is cut at its first whole word `from`.  `Statement.read_spaced` says what
    is read from a line whose parts are known, with any white space between them; a
    printed line is the case of single spaces.

    For clauses whose names are identifiers, the line of a statement is read back as
    the statement, except that a lone named binding without a namespace comes back as
    a default binding that is printed the same. -/

namespace ImportBlock

open Text

theorem import_noFrom : ¬ HasWordFrom fromWord 0 importWord :=
  (cutWordFrom_eq_none ident_fromWord.1).1 (by decide)

/-! ## Module sources -/

theorem readSource_quoted {l source r : Text} {q q' : UInt8} (hl : ∀ c ∈ l, isQuote c = false)
    (hq : isQuote q = true) (hq' : isQuote q' = true) (hr : ∀ c ∈ r, isQuote c = false) :
    readSource (l ++ q :: (source ++ q' :: r)) = source := by
  rw [readSource, cutFirst_append hl hq, Option.bind_some]
  dsimp only
  rw [cutLast_append hq' hr]

/-- What holds of both quotes holds of a quote. -/
theorem of_isQuote {p : UInt8 → Prop} (hsingle : p 39) (hdouble : p 34) {q : UInt8}
    (hq : isQuote q = true) : p q := by
  rw [isQuote, Bool.or_eq_true] at hq
  rcases hq with hq | hq
  · rw [eq_of_beq hq]
    exact hsingle
  · rw [eq_of_beq hq]
    exact hdouble

theorem isSpaceByte_of_isQuote {q : UInt8} (h : isQuote q = true) : isSpaceByte q = false :=
  of_isQuote (p := fun q => isSpaceByte q = false) (by decide) (by decide) h

theorem isIdent_of_isQuote {q : UInt8} (h : isQuote q = true) : isIdent q = false :=
  of_isQuote (p := fun q => isIdent q = false) (by decide) (by decide) h

/-- The source is found between its quotes, with any white space around them. -/
theorem readSource_trim {w source tail w' : Text} {q q' : UInt8} (hw : Blank w)
    (hq : isQuote q = true) (hq' : isQuote q' = true) (htail : ∀ c ∈ tail, isQuote c = false)
    (hend : ∀ c ∈ tail.getLast?, isSpaceByte c = false) (hw' : Blank w') :
    readSource (trim (w ++ q :: (source ++ q' :: tail) ++ w')) = source := by
  have htrimmed : Trimmed (q :: (source ++ q' :: tail)) := by
    refine ⟨startsBare_cons _ (isSpaceByte_of_isQuote hq), endsBare_of_last fun c hc => ?_⟩
    -- the text ends with the closing quote, or with what stands behind it
    rw [List.getLast?_cons, List.getLast?_append, List.getLast?_cons] at hc
    cases hlast : tail.getLast? with
    | none =>
        rw [hlast, Option.getD_none, Option.some_or, Option.getD_some, Option.mem_some] at hc
        rw [← hc]
        exact isSpaceByte_of_isQuote hq'
    | some d =>
        rw [hlast, Option.getD_some, Option.some_or, Option.getD_some, Option.mem_some] at hc
        rw [← hc]
        exact hend d hlast
  rw [trim_spaced hw htrimmed hw']
  refine readSource_quoted (l := []) ?_ hq hq' htail
  intro c hc
  cases hc

namespace Statement

/-! ## Lines -/

/-- **Reading a line in parts**: the text before the first whole word `from` is the
    clause, the text between the quotes behind it is the source. -/
theorem read_spaced {w₀ clause w₁ w₂ source tail w₃ : Text} {q q' : UInt8}
    (hw₀ : Blank w₀) (hclause : Trimmed clause) (hw₁ : Blank w₁)
    (hend : endsIdent (importWord ++ (w₀ ++ clause ++ w₁)) = false)
    (hfirst : ¬ HasWordFrom fromWord 0 (importWord ++ (w₀ ++ clause ++ w₁)))
    (hstart : startsIdent (w₂ ++ q :: (source ++ q' :: tail) ++ w₃) = false)
    (hw₂ : Blank w₂) (hq : isQuote q = true) (hq' : isQuote q' = true)
    (htail : ∀ c ∈ tail, isQuote c = false)
    (hlast : ∀ c ∈ tail.getLast?, isSpaceByte c = false) (hw₃ : Blank w₃) (hne : source ≠ []) :
    read (importWord ++ (w₀ ++ clause ++ w₁) ++ fromWord
        ++ (w₂ ++ q :: (source ++ q' :: tail) ++ w₃))
      = (Clause.read? clause).elim (.error (.unrecognizedClause clause))
          fun c => .ok ⟨source, c⟩ := by
  rw [read, cutWordFrom_eq_some ident_fromWord (Nat.zero_le _) hend hstart hfirst]
  dsimp only
  rw [List.drop_left, trim_spaced hw₀ hclause hw₁,
    readSource_trim hw₂ hq hq' htail hlast hw₃, if_neg hne]
  cases Clause.read? clause with
  | none => rfl
  | some c => rfl

/-- The parts of a printed line. -/
theorem renderLine_eq (clause source : Text) :
    renderLine clause source = importWord ++ ([32] ++ clause ++ [32]) ++ fromWord
      ++ ([32] ++ 39 :: (source ++ 39 :: [semicolon]) ++ []) := by
  rw [renderLine, show ImportBlock.text "import " = importWord ++ [32] from rfl,
    show ImportBlock.text " from '" = [32] ++ fromWord ++ [32, 39] from rfl,
    show ImportBlock.text "';" = [39, semicolon] from rfl]
  simp only [List.append_assoc, List.cons_append, List.nil_append, List.append_nil]

/-- No identifier runs into the word `from` of a printed line. -/
theorem endsIdent_beforeFrom (clause : Text) :
    endsIdent (importWord ++ ([32] ++ clause ++ [32])) = false := by
  rw [← List.append_assoc, endsIdent_concat]
  rfl

/-- Before the word `from` of a printed line there is no other one. -/
theorem noFrom_beforeFrom {clause : Text} (hclause : Part clause) :
    ¬ HasWordFrom fromWord 0 (importWord ++ ([32] ++ clause ++ [32])) := by
  have hspace : ¬ HasWordFrom fromWord 0 [32] := blank_space.noFrom
  have hopening : ¬ HasWordFrom fromWord 0 (importWord ++ [32]) :=
    not_hasWordFrom_append ident_fromWord (blank_space.parted_right _) import_noFrom hspace
  rw [← List.append_assoc, ← List.append_assoc]
  refine not_hasWordFrom_append ident_fromWord (blank_space.parted_right _) ?_ hspace
  exact not_hasWordFrom_append ident_fromWord (Or.inl (endsIdent_concat importWord 32)) hopening
    hclause.noFrom

/-- A printed line is cut where it was put together. -/
theorem read_renderLine {clause source : Text} (hclause : Part clause) (hne : source ≠ []) :
    read (renderLine clause source)
      = (Clause.read? clause).elim (.error (.unrecognizedClause clause))
          fun c => .ok ⟨source, c⟩ := by
  rw [renderLine_eq]
  exact read_spaced blank_space hclause.trimmed blank_space (endsIdent_beforeFrom clause)
    (noFrom_beforeFrom hclause) rfl blank_space rfl rfl
    (forall_mem_of_all (by decide)) (forall_mem_of_option_all (by decide)) blank_nil hne

/-- The first whole word `from` of a printed line stands behind its clause. -/
theorem indexWord_renderLine {clause : Text} (source : Text) (hclause : Part clause) :
    indexWord (renderLine clause source) fromWord
      = some (ImportBlock.text "import " ++ clause ++ [32]).length := by
  have hbefore : importWord ++ ([32] ++ clause ++ [32])
      = ImportBlock.text "import " ++ clause ++ [32] := by
    rw [show ImportBlock.text "import " = importWord ++ [32] from rfl]
    simp only [List.append_assoc]
  rw [renderLine_eq, ← hbefore]
  exact indexWordFrom_append ident_fromWord (Nat.zero_le _) (endsIdent_beforeFrom clause) rfl
    (noFrom_beforeFrom hclause)

/-- What is read behind that word is the printed source, whatever its bytes. -/
theorem readSource_renderLine (clause source : Text) :
    readSource (trim ((renderLine clause source).drop
      ((ImportBlock.text "import " ++ clause ++ [32]).length + fromWord.length))) = source := by
  have hline : renderLine clause source = (ImportBlock.text "import " ++ clause ++ [32] ++ fromWord)
      ++ ([32] ++ 39 :: (source ++ 39 :: [semicolon]) ++ []) := by
    rw [renderLine_eq, show ImportBlock.text "import " = importWord ++ [32] from rfl]
    simp only [List.append_assoc]
  rw [hline, ← List.length_append, List.drop_left]
  exact readSource_trim blank_space rfl rfl (forall_mem_of_all (by decide))
    (forall_mem_of_option_all (by decide)) blank_nil

/-- A statement that binds something has a line. -/
theorem render?_eq_some_iff {s : Statement} {line : Text} :
    s.render? = some line ↔ s.clause.render ≠ [] ∧ renderLine s.clause.render s.source = line := by
  rw [render?]
  by_cases hne : s.clause.render = []
  · simp [hne]
  · simp [hne]

/-- The statement that is read back from the line of a statement. -/
def reread (s : Statement) : Statement := ⟨s.source, s.clause.reread⟩

/-- **A printed statement is read back.** -/
theorem read_render {s : Statement} (hclause : s.clause.Printable) (hsource : s.source ≠ [])
    {line : Text} (h : s.render? = some line) : read line = .ok s.reread := by
  obtain ⟨hne, rfl⟩ := render?_eq_some_iff.1 h
  rw [read_renderLine (hclause.spelled.part hne) hsource, hclause.read?_render hne]
  rfl

/-- What is read back is printed the same. -/
theorem reread_render? {s : Statement} {line : Text} (h : s.render? = some line) :
    s.reread.render? = some line := by
  obtain ⟨hne, hline⟩ := render?_eq_some_iff.1 h
  have hsame : s.reread.clause.render = s.clause.render := Clause.reread_render hne
  refine render?_eq_some_iff.2 ⟨?_, ?_⟩
  · rw [hsame]
    exact hne
  · rw [hsame]
    exact hline

end Statement

/-! ## Statements whose names are identifiers -/

/-- An identifier that can be imported: any but the word `from`. -/
def Importable (t : Text) : Prop := Ident t ∧ t ≠ fromWord

theorem Importable.plainName {t : Text} (h : Importable t) : PlainName t := h.1.plainName h.2

theorem plainName_of_importable {t : Text} (h : t = [] ∨ Importable t) : PlainName t := by
  rcases h with rfl | h
  · exact plainName_nil
  · exact h.plainName

/-- A clause whose names are identifiers, no two named bindings sharing one. -/
structure Clause.Identified (c : Clause) : Prop where
  defaultName : c.defaultName = [] ∨ Importable c.defaultName
  namespaceName : c.namespaceName = [] ∨ Importable c.namespaceName
  names : ∀ b ∈ c.named, Importable b.name
  localNames : ∀ b ∈ c.named, b.localName = [] ∨ Importable b.localName
  nodup : (c.named.map Binding.name).Nodup

/-- The clause binds something. -/
def Clause.Binds (c : Clause) : Prop :=
  c.defaultName ≠ [] ∨ c.namespaceName ≠ [] ∨ c.named ≠ []

theorem Clause.Identified.printable {c : Clause} (h : c.Identified) : c.Printable where
  defaultName := plainName_of_importable h.defaultName
  namespaceName := plainName_of_importable h.namespaceName
  named := fun b hb => by
    have hname := h.names b hb
    refine ⟨hname.1.1, hname.plainName, plainName_of_importable (h.localNames b hb), ?_⟩
    -- an identifier holds a word at its start only
    intro hword
    exact absurd (eq_of_hasWordFrom_ident hname.1 hword).1 (by decide)
  nodup := h.nodup

theorem Clause.Printable.render_ne_nil {c : Clause} (h : c.Printable) (hbinds : c.Binds) :
    c.render ≠ [] := by
  refine (Part.join ?_ h.spelled.parts).ne_nil
  rw [Clause.parts, Ne, List.append_eq_nil_iff, List.append_eq_nil_iff]
  rintro ⟨⟨hd, hn⟩, hnamed⟩
  rcases hbinds with hne | hne | hne
  · rw [if_neg hne] at hd
    cases hd
  · rw [if_neg hne] at hn
    cases hn
  · rcases Clause.renderNamed_cases c.named with ⟨hnil, -⟩ | ⟨t, ht⟩
    · exact hne hnil
    · rw [ht] at hnamed
      cases hnamed

/-- **The reader undoes the printer.**  The line of a statement whose names are
    identifiers is read as a declaration of that line, at any position and from any
    source.  Its clause is the printed one, unless this is a lone named binding
    without a namespace: then it is one default binding, printed the same. -/
theorem read_printed_statement (g : Statement) (k : Int) (hsource : g.source ≠ [])
    (hnames : g.clause.Identified) (hbinds : g.clause.Binds) :
    ∃ line d, Statement.renderAll [g] = [line] ∧ Declaration.read line k = .ok d
      ∧ d.text = line ∧ d.line = k ∧ d.source = g.source
      ∧ (g.clause.namespaceName ≠ [] ∨ g.clause.named.length ≠ 1 → d.clause = g.clause)
      ∧ (g.clause.namespaceName = [] ∧ g.clause.named.length = 1 →
          d.clause = { defaultName := g.clause.render, namespaceName := [], named := [] }
            ∧ Statement.renderAll [d.statement] = [line]) := by
  have hprint := hnames.printable
  obtain ⟨line, hrender⟩ : ∃ line, g.render? = some line :=
    ⟨_, if_neg (hprint.render_ne_nil hbinds)⟩
  have hread := Statement.read_render hprint hsource hrender
  refine ⟨line, ⟨line, k, g.reread⟩, ?_, ?_, rfl, rfl, rfl, ?_, ?_⟩
  · rw [Statement.renderAll, List.filterMap_cons, hrender]
    rfl
  · rw [Declaration.read, hread]
    rfl
  · intro hne
    show g.clause.reread = g.clause
    rw [Clause.reread, if_neg fun hboth => hne.elim (· hboth.1) (· hboth.2)]
  · intro hlone
    refine ⟨?_, ?_⟩
    · show g.clause.reread = _
      rw [Clause.reread, if_pos hlone]
    · rw [Statement.renderAll, List.filterMap_cons, Statement.reread_render? hrender]
      rfl

/-- A source with quotes, a semicolon and the word `from` in it, and the word `as` in
    the place of a name, of an alias and of a default binding. -/
theorem read_printed_statement_as :
    ∃ line d, Statement.renderAll
        [⟨text "a' from 'b;", { defaultName := asWord, named := [⟨asWord, asWord⟩] }⟩] = [line]
      ∧ Declaration.read line 4 = .ok d
      ∧ d.text = line ∧ d.line = 4 ∧ d.source = text "a' from 'b;"
      ∧ d.clause = { defaultName := text "as, as as as" } := by
  have hident : Importable asWord := ⟨ident_asWord, by decide⟩
  obtain ⟨line, d, hline, hread, htext, hk, hsource, -, hlone⟩ :=
    read_printed_statement
      ⟨text "a' from 'b;", { defaultName := asWord, named := [⟨asWord, asWord⟩] }⟩ 4
      (by decide)
      ⟨Or.inr hident, Or.inl rfl, fun b hb => by rw [List.mem_singleton.1 hb]; exact hident,
        fun b hb => by rw [List.mem_singleton.1 hb]; exact Or.inr hident, by decide⟩
      (Or.inl (by decide))
  exact ⟨line, d, hline, hread, htext, hk, hsource, (hlone ⟨rfl, rfl⟩).1⟩

end ImportBlock
