import Mathlib
import ImportBlock.Proofs.FirstWins
import ImportBlock.Proofs.Rewritten

/-! # What the trace accounts for

    While a text is put in order each decision is noted, by loops that carry along what they
    have met: the clauses joined so far, the lines seen so far.  Here the records of these
    notes are said from the declarations alone.

    * `map_record_readings`: each import line has one record, in order.
    * `saying_conflictNotes`: a name that is discarded is one that differs from the first name
      of its kind in all declarations of the module, earlier and later ones, since the first
      name there is has been met when another one is discarded (`firstOf_append_cons`).
    * `laterCopies_eq`: a copy is a declaration whose text stands before it.

    `trace_accounts_for_lines` puts this together.  The notes come in three parts, about
    reading, about joining or copies, and about lines left out, and no two kinds of notes have
    the same message. -/

namespace ImportBlock

open Text

/-- The log records of putting a text in order. -/
def trace (r : Rules) (src : Text) : List Record := (notes r src).map Note.record

/-- The records with one of some messages. -/
def Record.saying (messages : List String) (rs : List Record) : List Record :=
  rs.filter fun x => x.message ∈ messages.map text

/-- A record about import lines, which only a log of the lowest level shows. -/
def Record.detail (message : String) (fields : List (String × Record.Value)) : Record :=
  ⟨.optimizer, .debug, text message, fields⟩

/-- The messages about reading an import line. -/
def readingMessages : List String := ["parsed import line", "rejecting import line"]

/-- The record of an import line: what was read, or why it was rejected. -/
def Candidate.record (c : Candidate) : Record :=
  match Statement.read c.text with
  | .ok s =>
      .detail "parsed import line"
        [("line", .int (c.index + 1)), ("source", .text s.source),
          ("default", .text s.clause.defaultName), ("namespace", .text s.clause.namespaceName),
          ("named", .int s.clause.named.length)]
  | .error reason =>
      .detail "rejecting import line"
        ([("line", .int (c.index + 1)), ("reason", .text reason.reason)] ++ reason.details)

/-! ## Records by message -/

section

variable {messages : List String} {rs : List Record}

theorem saying_append (messages : List String) (rs rs' : List Record) :
    Record.saying messages (rs ++ rs') = Record.saying messages rs ++ Record.saying messages rs' :=
  List.filter_append rs rs'

theorem saying_eq_self (h : ∀ x ∈ rs, x.message ∈ messages.map text) :
    Record.saying messages rs = rs :=
  List.filter_eq_self.2 fun x hx => decide_eq_true (h x hx)

/-- Records with other messages do not say it. -/
theorem saying_eq_nil (others : List String) (h : ∀ x ∈ rs, x.message ∈ others.map text)
    (hother : ∀ m ∈ others.map text, m ∉ messages.map text) : Record.saying messages rs = [] :=
  List.filter_eq_nil_iff.2 fun x hx hsaid => hother _ (h x hx) (of_decide_eq_true hsaid)

end

/-! ## Lines and their numbers -/

theorem length_dropFinalEmpty_split_le (src : Text) :
    (dropFinalEmpty (split newline src)).length ≤ src.length := by
  induction src with
  | nil => exact Nat.le_refl 0
  | cons b src ih =>
      rw [split]
      split
      · rw [dropFinalEmpty_cons _ (split_ne_nil newline src), List.length_cons, List.length_cons]
        omega
      · cases hsplit : split newline src with
        | nil => exact absurd hsplit (split_ne_nil newline src)
        | cons piece rest =>
            rw [hsplit] at ih
            by_cases hrest : rest = []
            · subst hrest
              rw [dropFinalEmpty_singleton (List.cons_ne_nil b piece), List.length_cons,
                List.length_cons]
              simp
            · rw [dropFinalEmpty_cons _ hrest, List.length_cons] at ih
              dsimp only
              rw [dropFinalEmpty_cons _ hrest, List.length_cons, List.length_cons]
              omega

/-- A text has no more lines than bytes. -/
theorem length_lines_le (src : Text) : (lines src).length ≤ src.length := by
  rw [lines, List.length_map]
  exact length_dropFinalEmpty_split_le src

theorem Block.index_lt_of_mem_ofLines {i : Nat} {ls : List Text} {c : Candidate}
    (h : c ∈ (ofLines i ls).candidates) : c.index < i + ls.length := by
  induction ls generalizing i with
  | nil => cases h
  | cons l ls ih =>
      rw [List.length_cons]
      rw [ofLines] at h
      split at h
      · have hlt := ih h
        omega
      · split at h
        · rcases List.mem_cons.1 h with rfl | h
          · dsimp only
            omega
          · have hlt := ih h
            omega
        · cases h

theorem Block.index_lt_of_mem {src : Text} {c : Candidate} (h : c ∈ (ofText src).candidates) :
    c.index < src.length := by
  have hlt := index_lt_of_mem_ofLines h
  have hle := length_lines_le src
  omega

theorem Declaration.line_of_read {line : Text} {index : Int} {d : Declaration}
    (h : read line index = .ok d) : d.line = index := by
  rw [read] at h
  cases hs : Statement.read line with
  | error e =>
      rw [hs] at h
      cases h
  | ok s =>
      rw [hs] at h
      cases h
      rfl

/-- Lines are counted from 1 in every text that 64 bits can count the bytes of. -/
theorem Note.lineNumber_eq {n : Nat} (h : n + 1 < 2 ^ 63) : lineNumber n = n + 1 := by
  have hpow : Nat.pow 2 64 = 18446744073709551616 := by decide
  rw [lineNumber, hpow]
  exact Int.bmod_eq_of_le_mul_two (by omega) (by omega)

section

variable {r : Rules} {src : Text}

theorem lineNumber_of_mem (hsize : src.length < 2 ^ 63) {c : Candidate}
    (h : c ∈ (Block.ofText src).candidates) : Note.lineNumber c.index = c.index + 1 := by
  have hlt := Block.index_lt_of_mem h
  exact Note.lineNumber_eq (by omega)

theorem lineNumber_of_mem_declarations (hsize : src.length < 2 ^ 63) {d : Declaration}
    (h : d ∈ (Block.ofText src).declarations) : Note.lineNumber d.line = d.line + 1 := by
  obtain ⟨c, hc, hread⟩ := Block.exists_of_mem_declarations h
  rw [Declaration.line_of_read hread]
  exact lineNumber_of_mem hsize hc

/-! ## Reading -/

/-- **Each import line has one record**, in order. -/
theorem map_record_readings (hsize : src.length < 2 ^ 63) :
    ((Block.ofText src).readings.map fun (c, reading) => Note.ofReading c.index reading).map
        Note.record
      = (Block.ofText src).candidates.map Candidate.record := by
  rw [Block.readings, List.map_map, List.map_map]
  refine List.map_congr_left ?_
  intro c hc
  rw [Function.comp_apply, Function.comp_apply, Candidate.record, Declaration.read]
  cases Statement.read c.text with
  | error reason =>
      show Note.record (.rejected c.index reason) = _
      rw [Note.record, Note.fields, lineNumber_of_mem hsize hc]
      rfl
  | ok s =>
      show Note.record (.parsed ⟨c.text, c.index, s⟩) = _
      rw [Note.record, Note.fields]
      dsimp only
      rw [lineNumber_of_mem hsize hc]
      rfl

end

/-! ## Joining -/

namespace Merge

/-- The first name of a kind that the declarations of a module have; the empty text if they have
    none. -/
def firstOf (kind : Clause → Text) (ds : List Declaration) (source : Text) : Text :=
  firstPresent ((declarationsOf ds source).map fun d => kind d.clause)

/-- The record of a declaration whose name of a kind is discarded: it is there and differs from
    the first one of its module, which is kept. -/
def conflictRecord? (message : String) (kind : Clause → Text) (ds : List Declaration)
    (d : Declaration) : Option Record :=
  if kind d.clause ≠ [] ∧ kind d.clause ≠ firstOf kind ds d.source then
    some (.detail message
      [("source", .text d.source), ("kept", .text (firstOf kind ds d.source)),
        ("discarded", .text (kind d.clause))])
  else none

theorem firstPresent_append_cons (names rest : List Text) {name : Text} (hname : name ≠ []) :
    firstPresent (names ++ name :: rest)
      = if firstPresent names = [] then name else firstPresent names := by
  induction names with
  | nil => simp [firstPresent, hname]
  | cons n names ih =>
      by_cases hn : n = []
      · simpa [firstPresent, hn] using ih
      · simp [firstPresent, hn]

/-- The first name of a module is met before it, or is that of the declaration itself. -/
theorem firstOf_append_cons {kind : Clause → Text} {d : Declaration} (hname : kind d.clause ≠ [])
    (done rest : List Declaration) :
    firstOf kind (done ++ d :: rest) d.source
      = if firstOf kind done d.source = [] then kind d.clause else firstOf kind done d.source := by
  rw [firstOf, declarationsOf, List.filter_append, List.filter_cons_of_pos (by simp),
    List.map_append, List.map_cons]
  exact firstPresent_append_cons _ _ hname

theorem clauseOf_groups (ds : List Declaration) (source : Text) :
    clauseOf (groups ds) source = joined (ds.map Declaration.statement) source := by
  rw [clauseOf, groups_eq, List.find?_map]
  cases hfind : (ds.map Declaration.source).eraseDups.find?
      ((fun g : Statement => g.source == source) ∘ fun source =>
        ⟨source, joined (ds.map Declaration.statement) source⟩) with
  | some x =>
      have hx : x = source := by simpa using List.find?_some hfind
      rw [hx]
      rfl
  | none =>
      -- a module that has not appeared has an empty clause
      have hnot : source ∉ (ds.map Declaration.statement).map Statement.source := by
        intro hmem
        rw [List.map_map] at hmem
        exact List.find?_eq_none.1 hfind source (List.mem_eraseDups.2 hmem) (by simp)
      rw [joined_of_not_mem hnot]
      rfl

/-- A further name loses if another one is kept. -/
def Loses (kept new : Text) : Prop := kept ≠ [] ∧ new ≠ [] ∧ kept ≠ new

instance (kept new : Text) : Decidable (Loses kept new) :=
  inferInstanceAs (Decidable (kept ≠ [] ∧ new ≠ [] ∧ kept ≠ new))

theorem conflicts_eq (kept : Clause) (d : Declaration) :
    conflicts kept d
      = (if Loses kept.defaultName d.clause.defaultName then
          [.defaultConflict d.source kept.defaultName d.clause.defaultName] else [])
        ++ (if Loses kept.namespaceName d.clause.namespaceName then
          [.namespaceConflict d.source kept.namespaceName d.clause.namespaceName] else []) := by
  have hloses : ∀ old new : Text,
      (!old.isEmpty && !new.isEmpty && old != new) = true ↔ Loses old new := by
    intro old new
    simp [Loses, and_assoc]
  rw [conflicts]
  dsimp only
  rw [if_congr (hloses _ _) rfl rfl, if_congr (hloses _ _) rfl rfl]

/-- The conflicts of one kind are told with one message. -/
structure Tells (message : String) (kind : Clause → Text) : Prop where
  /-- What was collected holds the first name of each module. -/
  kept (ds : List Declaration) (source : Text) :
    kind (clauseOf (groups ds) source) = firstOf kind ds source
  /-- A name that loses is told with the one that is kept. -/
  told (kept : Clause) (d : Declaration) :
    Record.saying [message] ((conflicts kept d).map Note.record)
      = if Loses (kind kept) (kind d.clause) then
          [.detail message
            [("source", .text d.source), ("kept", .text (kind kept)),
              ("discarded", .text (kind d.clause))]]
        else []

/-- A note that may be made is told by its own message. -/
theorem saying_if_self {c : Prop} [Decidable c] {message : String} {n : Note}
    (hn : n.message = text message) :
    Record.saying [message] ((if c then [n] else []).map Note.record)
      = if c then [n.record] else [] := by
  split
  · exact saying_eq_self (by simp [Note.record, hn])
  · rfl

/-- A note that may be made is not told by another message. -/
theorem saying_if_other {c : Prop} [Decidable c] {message : String} {n : Note} (other : String)
    (hn : n.message = text other) (hother : text other ≠ text message) :
    Record.saying [message] ((if c then [n] else []).map Note.record) = [] := by
  split
  · exact saying_eq_nil [other] (by simp [Note.record, hn]) (by simpa using hother)
  · rfl

theorem tells_defaultName : Tells "discarding conflicting default import" Clause.defaultName where
  kept ds source := by
    rw [clauseOf_groups]
    exact (firstWins_joined ds source).defaultName
  told kept d := by
    rw [conflicts_eq, List.map_append, saying_append, saying_if_self rfl,
      saying_if_other "discarding conflicting namespace import" rfl (by decide),
      List.append_nil]
    rfl

theorem tells_namespaceName :
    Tells "discarding conflicting namespace import" Clause.namespaceName where
  kept ds source := by
    rw [clauseOf_groups]
    exact (firstWins_joined ds source).namespaceName
  told kept d := by
    rw [conflicts_eq, List.map_append, saying_append,
      saying_if_other "discarding conflicting default import" rfl (by decide),
      saying_if_self rfl, List.nil_append]
    rfl

/-- **A name is discarded if it is not the first of its kind** in the module.  The declarations
    `done` have been joined, and `rest` is still to come. -/
theorem saying_conflictNotes {message : String} {kind : Clause → Text} (h : Tells message kind)
    (done rest : List Declaration) :
    Record.saying [message] ((conflictNotes (groups done) rest).map Note.record)
      = rest.filterMap (conflictRecord? message kind (done ++ rest)) := by
  induction rest generalizing done with
  | nil => rfl
  | cons d rest ih =>
      have hnext := ih (done ++ [d])
      rw [groups_concat, List.append_assoc, List.singleton_append] at hnext
      rw [conflictNotes, List.map_append, saying_append, hnext, h.told, h.kept,
        List.filterMap_cons, conflictRecord?]
      by_cases hname : kind d.clause = []
      · simp [Loses, hname]
      · rw [firstOf_append_cons hname]
        by_cases hkept : firstOf kind done d.source = []
        · -- the declaration has the first name itself
          simp [Loses, hkept]
        · by_cases hsame : firstOf kind done d.source = kind d.clause
          · simp [Loses, hname, hsame]
          · simp [Loses, hname, hkept, hsame, Ne.symm hsame]

/-- The messages about joining. -/
def messages : List String :=
  ["discarding conflicting default import", "discarding conflicting namespace import",
    "merged imports"]

theorem message_of_mem_conflictNotes {gs : List Statement} {ds : List Declaration} {n : Note}
    (h : n ∈ conflictNotes gs ds) : n.message ∈ messages.map text := by
  induction ds generalizing gs with
  | nil => cases h
  | cons d ds ih =>
      rw [conflictNotes, conflicts_eq] at h
      rcases List.mem_append.1 h with h | h
      · rcases List.mem_append.1 h with h | h
        · split at h
          · rw [List.mem_singleton.1 h]
            exact List.mem_cons_self
          · cases h
        · split at h
          · rw [List.mem_singleton.1 h]
            exact List.mem_cons_of_mem _ List.mem_cons_self
          · cases h
      · exact ih h

theorem message_of_mem_notes {ds : List Declaration} {n : Note} (h : n ∈ notes ds) :
    n.message ∈ messages.map text := by
  rcases List.mem_append.1 h with h | h
  · exact message_of_mem_conflictNotes h
  · rw [List.mem_singleton.1 h]
    exact List.mem_cons_of_mem _ (List.mem_cons_of_mem _ List.mem_cons_self)

end Merge

/-! ## Copies -/

namespace Flat

/-- The declarations whose text stands before them. -/
def copies (ds : List Declaration) : List Declaration :=
  ds.zipIdx.filterMap fun (d, i) =>
    if d.text ∈ (ds.take i).map Declaration.text then some d else none

/-- The note about a copy. -/
def copyNote (d : Declaration) : Note := .duplicate d.line d.source

/-- The memory of the pass holds the texts of the declarations `done`; `rest` is still to come. -/
theorem laterCopies_append (done rest : List Declaration) {seen : List Text}
    (hseen : ∀ t, t ∈ seen ↔ t ∈ done.map Declaration.text) :
    laterCopies seen rest
      = ((rest.zipIdx done.length).filterMap fun (d, i) =>
          if d.text ∈ ((done ++ rest).take i).map Declaration.text then some d else none).map
        copyNote := by
  induction rest generalizing done seen with
  | nil => rfl
  | cons d rest ih =>
      -- what is remembered after this declaration, whether its text is new or not
      have hnext : ∀ {seen' : List Text}, (∀ t, t ∈ seen' ↔ t = d.text ∨ t ∈ seen) →
          laterCopies seen' rest
            = ((rest.zipIdx (done.length + 1)).filterMap fun (e, i) =>
                if e.text ∈ ((done ++ d :: rest).take i).map Declaration.text then some e
                else none).map copyNote := by
        intro seen' hseen'
        have hdone : ∀ t, t ∈ seen' ↔ t ∈ (done ++ [d]).map Declaration.text := by
          intro t
          rw [hseen', hseen, List.map_append, List.mem_append, List.map_singleton,
            List.mem_singleton, or_comm]
        have hrest := ih (done ++ [d]) hdone
        rw [List.append_assoc, List.singleton_append, List.length_append] at hrest
        exact hrest
      rw [laterCopies, List.zipIdx_cons, List.filterMap_cons]
      dsimp only
      rw [List.take_left]
      by_cases hcopy : d.text ∈ seen
      · have hsame : ∀ t, t ∈ seen ↔ t = d.text ∨ t ∈ seen := by
          intro t
          constructor
          · exact Or.inr
          · rintro (rfl | h)
            · exact hcopy
            · exact h
        rw [if_pos hcopy, if_pos ((hseen d.text).1 hcopy), hnext hsame]
        rfl
      · rw [if_neg hcopy, if_neg (mt (hseen d.text).2 hcopy), hnext fun t => List.mem_cons]

/-- **A copy is a declaration whose text stands before it.** -/
theorem laterCopies_eq (ds : List Declaration) : laterCopies [] ds = (copies ds).map copyNote :=
  laterCopies_append [] ds fun _ => Iff.rfl

theorem message_of_mem_notes {dedupe : Bool} {ds : List Declaration} {n : Note}
    (h : n ∈ notes dedupe ds) : n.message ∈ ["removing duplicate import"].map text := by
  rw [notes] at h
  split at h
  · rw [laterCopies_eq] at h
    obtain ⟨d, -, rfl⟩ := List.mem_map.1 h
    exact List.mem_cons_self
  · cases h

theorem mem_of_mem_copies {ds : List Declaration} {d : Declaration} (h : d ∈ copies ds) :
    d ∈ ds := by
  obtain ⟨⟨e, i⟩, hmem, hd⟩ := List.mem_filterMap.1 h
  dsimp only at hd
  split at hd
  · cases hd
    exact List.mem_of_getElem? (List.mem_zipIdx_iff_getElem?.1 hmem)
  · cases hd

end Flat

/-! ## The parts of the trace -/

/-- The messages about declarations that become statements. -/
def statementMessages : List String := Merge.messages ++ ["removing duplicate import"]

/-- The record of a copy that is left out. -/
def Declaration.copyRecord (d : Declaration) : Record :=
  .detail "removing duplicate import" [("line", .int (d.line + 1)), ("source", .text d.source)]

/-- The records about declarations that become statements. -/
def Rules.statementRecords (r : Rules) (b : Block) : List Record :=
  if b.declarations = [] then [] else (r.statementNotes b.declarations).map Note.record

/-- The record about malformed lines that are left out.  If no line can be read nothing is left
    out, since the text stays as it is. -/
def Rules.droppedRecords (r : Rules) (b : Block) : List Record :=
  if r.keepMalformed = false ∧ b.declarations ≠ [] ∧ b.malformed ≠ [] then
    [.detail "dropping malformed import lines" [("count", .int b.malformed.length)]]
  else []

section

variable {r : Rules} {src : Text} {b : Block} {x : Record}

theorem message_of_mem_candidates (h : x ∈ b.candidates.map Candidate.record) :
    x.message ∈ readingMessages.map text := by
  obtain ⟨c, -, rfl⟩ := List.mem_map.1 h
  rw [Candidate.record]
  split
  · exact List.mem_cons_self
  · exact List.mem_cons_of_mem _ List.mem_cons_self

theorem message_of_mem_statementRecords (h : x ∈ r.statementRecords b) :
    x.message ∈ statementMessages.map text := by
  rw [Rules.statementRecords] at h
  split at h
  · cases h
  · obtain ⟨n, hn, rfl⟩ := List.mem_map.1 h
    show n.message ∈ statementMessages.map text
    rw [statementMessages, List.map_append]
    rw [Rules.statementNotes] at hn
    split at hn
    · exact List.mem_append_left _ (Merge.message_of_mem_notes hn)
    · exact List.mem_append_right _ (Flat.message_of_mem_notes hn)

theorem message_of_mem_droppedRecords (h : x ∈ r.droppedRecords b) :
    x.message ∈ ["dropping malformed import lines"].map text := by
  rw [Rules.droppedRecords] at h
  split at h
  · rw [List.mem_singleton.1 h]
    exact List.mem_cons_self
  · cases h

/-- **The trace in its three parts.** -/
theorem trace_eq (hsize : src.length < 2 ^ 63) :
    trace r src = (Block.ofText src).candidates.map Candidate.record
      ++ r.statementRecords (Block.ofText src) ++ r.droppedRecords (Block.ofText src) := by
  rw [trace, notes, Rules.statementRecords, Rules.droppedRecords]
  dsimp only
  rw [← map_record_readings hsize]
  by_cases hnone : (Block.ofText src).declarations = []
  · simp [hnone]
  · rw [if_neg hnone, if_neg hnone, List.map_append, List.map_append]
    congr 1
    by_cases hmalformed : (Block.ofText src).malformed = []
    · simp [hmalformed]
    · cases r.keepMalformed with
      | false =>
          rw [if_neg (by simp [hmalformed]), if_pos ⟨rfl, hnone, hmalformed⟩]
          rfl
      | true => simp

theorem saying_trace_reading (hsize : src.length < 2 ^ 63) :
    Record.saying readingMessages (trace r src)
      = (Block.ofText src).candidates.map Candidate.record := by
  rw [trace_eq hsize, saying_append, saying_append,
    saying_eq_self fun _ => message_of_mem_candidates,
    saying_eq_nil statementMessages (fun _ => message_of_mem_statementRecords) (by decide),
    saying_eq_nil ["dropping malformed import lines"] (fun _ => message_of_mem_droppedRecords)
      (by decide), List.append_nil, List.append_nil]

theorem saying_trace_dropped (hsize : src.length < 2 ^ 63) :
    Record.saying ["dropping malformed import lines"] (trace r src)
      = r.droppedRecords (Block.ofText src) := by
  rw [trace_eq hsize, saying_append, saying_append,
    saying_eq_nil readingMessages (fun _ => message_of_mem_candidates) (by decide),
    saying_eq_nil statementMessages (fun _ => message_of_mem_statementRecords) (by decide),
    saying_eq_self fun _ => message_of_mem_droppedRecords, List.append_nil, List.nil_append]

theorem saying_trace_statement (hsize : src.length < 2 ^ 63) {message : String}
    (hreading : ∀ m ∈ readingMessages.map text, m ∉ [message].map text)
    (hdropped : ∀ m ∈ ["dropping malformed import lines"].map text, m ∉ [message].map text) :
    Record.saying [message] (trace r src)
      = Record.saying [message] (r.statementRecords (Block.ofText src)) := by
  rw [trace_eq hsize, saying_append, saying_append,
    saying_eq_nil readingMessages (fun _ => message_of_mem_candidates) hreading,
    saying_eq_nil ["dropping malformed import lines"] (fun _ => message_of_mem_droppedRecords)
      hdropped, List.append_nil, List.nil_append]

/-! ## What becomes of the declarations -/

theorem saying_conflicts {message : String} {kind : Clause → Text} (h : Merge.Tells message kind)
    (hother : ∀ m ∈ ["merged imports", "removing duplicate import"].map text,
      m ∉ [message].map text) :
    Record.saying [message] (r.statementRecords b)
      = if r.merge = true then
          b.declarations.filterMap (Merge.conflictRecord? message kind b.declarations)
        else [] := by
  rw [Rules.statementRecords, Rules.statementNotes]
  by_cases hnone : b.declarations = []
  · simp [hnone, Record.saying]
  · rw [if_neg hnone]
    cases r.merge with
    | true =>
        have hmerged : Record.saying [message] ([Note.merged b.declarations.length
            (Merge.groups b.declarations).length].map Note.record) = [] := by
          refine saying_eq_nil ["merged imports", "removing duplicate import"] ?_ hother
          intro x hx
          rw [List.mem_singleton.1 hx]
          exact List.mem_cons_self
        rw [if_pos rfl, if_pos rfl, Merge.notes, List.map_append, saying_append, hmerged,
          List.append_nil]
        exact Merge.saying_conflictNotes h [] b.declarations
    | false =>
        rw [if_neg Bool.false_ne_true, if_neg Bool.false_ne_true]
        refine saying_eq_nil ["merged imports", "removing duplicate import"] ?_ hother
        intro x hx
        obtain ⟨n, hn, rfl⟩ := List.mem_map.1 hx
        exact List.mem_cons_of_mem _ (Flat.message_of_mem_notes hn)

theorem saying_copies (hlines : ∀ d ∈ b.declarations, Note.lineNumber d.line = d.line + 1) :
    Record.saying ["removing duplicate import"] (r.statementRecords b)
      = if r.merge = false ∧ r.dedupe = true then
          (Flat.copies b.declarations).map Declaration.copyRecord
        else [] := by
  rw [Rules.statementRecords, Rules.statementNotes]
  by_cases hnone : b.declarations = []
  · simp [hnone, Record.saying, Flat.copies]
  · rw [if_neg hnone]
    cases r.merge with
    | true =>
        rw [if_pos rfl, if_neg fun h => Bool.noConfusion h.1]
        refine saying_eq_nil Merge.messages ?_ (by decide)
        intro x hx
        obtain ⟨n, hn, rfl⟩ := List.mem_map.1 hx
        exact Merge.message_of_mem_notes hn
    | false =>
        rw [if_neg Bool.false_ne_true, Flat.notes]
        cases r.dedupe with
        | false => rfl
        | true =>
            rw [if_pos rfl, if_pos ⟨rfl, rfl⟩, Flat.laterCopies_eq, List.map_map]
            refine (saying_eq_self ?_).trans (List.map_congr_left ?_)
            · intro x hx
              obtain ⟨d, -, rfl⟩ := List.mem_map.1 hx
              exact List.mem_cons_self
            · intro d hd
              show Note.record (.duplicate d.line d.source) = _
              rw [Note.record, Note.fields, hlines d (Flat.mem_of_mem_copies hd)]
              rfl

end

/-- **The trace accounts for every line.**  Let the bytes of a text be counted by 64 bits.  Then
    the records of putting it in order tell

    * of each import line, in order, what was read or why it was rejected;
    * how many lines were left out as malformed, exactly if some were rejected, some were read and
      malformed lines are not kept;
    * when statements are joined, of each declaration in order whose default or namespace name is
      not the first one of its module, which name was kept and which one discarded;
    * when they are not joined and copies are left out, of each declaration in order whose text
      stands before it. -/
theorem trace_accounts_for_lines (r : Rules) (src : Text) (hsize : src.length < 2 ^ 63) :
    Record.saying ["parsed import line", "rejecting import line"] (trace r src)
        = (Block.ofText src).candidates.map Candidate.record
      ∧ Record.saying ["dropping malformed import lines"] (trace r src)
        = (if r.keepMalformed = false ∧ (Block.ofText src).declarations ≠ []
              ∧ (Block.ofText src).malformed ≠ [] then
            [.detail "dropping malformed import lines"
              [("count", .int (Block.ofText src).malformed.length)]]
          else [])
      ∧ Record.saying ["discarding conflicting default import"] (trace r src)
        = (if r.merge = true then
            (Block.ofText src).declarations.filterMap
              (Merge.conflictRecord? "discarding conflicting default import" Clause.defaultName
                (Block.ofText src).declarations)
          else [])
      ∧ Record.saying ["discarding conflicting namespace import"] (trace r src)
        = (if r.merge = true then
            (Block.ofText src).declarations.filterMap
              (Merge.conflictRecord? "discarding conflicting namespace import" Clause.namespaceName
                (Block.ofText src).declarations)
          else [])
      ∧ Record.saying ["removing duplicate import"] (trace r src)
        = (if r.merge = false ∧ r.dedupe = true then
            (Flat.copies (Block.ofText src).declarations).map Declaration.copyRecord
          else []) := by
  refine ⟨saying_trace_reading hsize, saying_trace_dropped hsize, ?_, ?_, ?_⟩
  · rw [saying_trace_statement hsize (by decide) (by decide)]
    exact saying_conflicts Merge.tells_defaultName (by decide)
  · rw [saying_trace_statement hsize (by decide) (by decide)]
    exact saying_conflicts Merge.tells_namespaceName (by decide)
  · rw [saying_trace_statement hsize (by decide) (by decide)]
    exact saying_copies fun d => lineNumber_of_mem_declarations hsize

/-- A file with a line that cannot be read, a second default name and a line that comes again. -/
def contestedFile : Text :=
  unlines
    [text "import a, { x } from 'm';", text "import broken", text "import b from 'm';", [],
      text "import a, { x } from 'm';", text "run();"]

theorem trace_accounts_for_lines_contestedFile :
    contestedFile.length < 2 ^ 63
      ∧ Record.saying ["discarding conflicting default import"]
          (trace { merge := true } contestedFile)
        = [.detail "discarding conflicting default import"
            [("source", .text (text "m")), ("kept", .text (text "a")),
              ("discarded", .text (text "b"))]]
      ∧ Record.saying ["removing duplicate import"] (trace { dedupe := true } contestedFile)
        = [.detail "removing duplicate import" [("line", .int 5), ("source", .text (text "m"))]]
      ∧ Record.saying ["dropping malformed import lines"]
          (trace { dedupe := true } contestedFile)
        = [.detail "dropping malformed import lines" [("count", .int 1)]] := by
  have hsize : contestedFile.length < 2 ^ 63 := by decide +kernel
  obtain ⟨-, -, hdefault, -, -⟩ := trace_accounts_for_lines { merge := true } contestedFile hsize
  obtain ⟨-, hdropped, -, -, hcopies⟩ :=
    trace_accounts_for_lines { dedupe := true } contestedFile hsize
  rw [hdefault, hcopies, hdropped]
  decide +kernel

end ImportBlock
