import Mathlib
import ImportBlock.Proofs.Diff.Patch
import ImportBlock.Proofs.Diff.Search

/-! # A line diff reproduces both texts

    The lines of a diff that are not inserted should be the lines of the text before, and those
    that are not deleted the lines of the text after.  A diff is made from a script over symbols
    for whole lines, and each of its runs is turned into lines on its own: the run is spelled, a
    final line feed is taken away and the rest is split.

    A run of whole lines survives this, `split_flatten_of_whole`, wherever the text may have been
    cut: only the last line of a text may lack its line feed, and it is the last line of its run
    too.  A run without lines does not: it comes out as one empty line.  So with every library
    that does what it is relied on for (`Library.Faithful`) a diff reproduces both texts exactly
    if its script has no empty run, `line_diff_reproduces_iff`.  The standard library is
    faithful, `faithful_standard`. -/

namespace ImportBlock.Diff

open Text

/-! ## Whole lines -/

/-- The lines of a text: the empty text has none, and any other has what stands between its
    line feeds, once a final one is taken away. -/
def textLines (s : Text) : List Text :=
  if s = [] then [] else split newline (chopEnd newline s)

/-- Whole lines of a text: each ends with its only line feed, but the last one may have none. -/
inductive Whole : List Text → Prop where
  | nil : Whole []
  | last {t : Text} (hne : t ≠ []) (ht : newline ∉ t) : Whole [t]
  | line {t : Text} {ls : List Text} (ht : newline ∉ t) (hls : Whole ls) :
      Whole ((t ++ [newline]) :: ls)

theorem whole_fullLines (s : Text) : Whole (fullLines s) := by
  induction s with
  | nil => exact .nil
  | cons b s ih =>
      rw [fullLines]
      split
      · rename_i hb
        rw [hb]
        exact .line List.not_mem_nil ih
      · rename_i hb
        have hother : ∀ {t : Text}, newline ∉ t → newline ∉ b :: t := by
          intro t ht
          exact List.not_mem_cons_of_ne_of_not_mem (Ne.symm hb) ht
        -- the byte joins the first of the lines that follow
        cases hls : fullLines s with
        | nil => exact .last (List.cons_ne_nil _ _) (hother List.not_mem_nil)
        | cons l ls =>
            rw [hls] at ih
            cases ih with
            | last hne ht => exact .last (List.cons_ne_nil _ _) (hother ht)
            | line ht hrest => exact .line (hother ht) hrest

theorem flatten_fullLines (s : Text) : (fullLines s).flatten = s := by
  induction s with
  | nil => rfl
  | cons b s ih =>
      rw [fullLines]
      split
      · rw [List.flatten_cons, ih]
        rfl
      · cases hls : fullLines s with
        | nil =>
            rw [hls] at ih
            rw [← ih]
            rfl
        | cons l ls =>
            rw [hls] at ih
            rw [← ih]
            rfl

theorem Whole.of_append {xs ys : List Text} (h : Whole (xs ++ ys)) : Whole xs ∧ Whole ys := by
  induction xs with
  | nil => exact ⟨.nil, h⟩
  | cons x xs ih =>
      rw [List.cons_append] at h
      generalize hls : xs ++ ys = ls at h ih
      cases h with
      | last hne ht =>
          obtain ⟨rfl, rfl⟩ := List.append_eq_nil_iff.1 hls
          exact ⟨.last hne ht, .nil⟩
      | line ht hrest => exact ⟨.line ht (ih hrest).1, (ih hrest).2⟩

theorem chopEnd_append {b : UInt8} {s t : Text} (ht : t ≠ []) :
    chopEnd b (s ++ t) = s ++ chopEnd b t := by
  rw [chopEnd, chopEnd, List.getLast?_append, List.getLast?_eq_some_getLast ht, Option.some_or]
  split
  · rw [List.dropLast_append_of_ne_nil ht]
  · rfl

theorem chopEnd_concat (b : UInt8) (s : Text) : chopEnd b (s ++ [b]) = s := by
  rw [chopEnd_append (List.cons_ne_nil _ _)]
  show s ++ (if some b = some b then [] else [b]) = s
  rw [if_pos rfl, List.append_nil]

theorem chopEnd_of_not_mem {b : UInt8} {s : Text} (h : b ∉ s) : chopEnd b s = s := by
  refine chopEnd_eq_self ?_
  intro hlast
  exact h (List.mem_of_getLast? hlast)

theorem Whole.flatten_ne_nil {ls : List Text} (h : Whole ls) (hne : ls ≠ []) :
    ls.flatten ≠ [] := by
  cases h with
  | nil => exact absurd rfl hne
  | last ht _ => simpa using ht
  | line _ _ => simp

/-- **Whole lines that are joined and split again** are these lines without their line feeds. -/
theorem split_flatten_of_whole {ls : List Text} (h : Whole ls) (hne : ls ≠ []) :
    split newline (chopEnd newline ls.flatten) = ls.map (chopEnd newline) := by
  induction h with
  | nil => exact absurd rfl hne
  | last _ ht =>
      rw [List.flatten_singleton, List.map_singleton, chopEnd_of_not_mem ht, split_eq_singleton ht]
  | @line t ls ht hls ih =>
      rw [List.map_cons, chopEnd_concat, List.flatten_cons]
      by_cases hrest : ls = []
      · rw [hrest, List.flatten_nil, List.append_nil, chopEnd_concat, split_eq_singleton ht]
        rfl
      · rw [chopEnd_append (hls.flatten_ne_nil hrest), List.append_assoc, List.singleton_append,
          split_append_cons _ ht, ih hrest]

theorem textLines_eq (s : Text) : textLines s = (fullLines s).map (chopEnd newline) := by
  rw [textLines]
  split
  · rename_i hs
    rw [hs]
    rfl
  · rename_i hs
    have hne : fullLines s ≠ [] := by
      intro hnil
      have hflat := flatten_fullLines s
      rw [hnil] at hflat
      exact hs hflat.symm
    rw [← split_flatten_of_whole (whole_fullLines s) hne, flatten_fullLines]

/-! ## One side of a script -/

/-- The items of a script without those of one operation: without the insertions this is the
    sequence before, without the deletions the sequence after. -/
def Script.without {α : Type} (skip : Op) (s : Script α) : List α :=
  s.flatMap fun e => if e.op = skip then [] else e.items

theorem Script.exists_without_eq {α : Type} {skip : Op} {s : Script α} {e : Edit α} (h : e ∈ s)
    (hop : e.op ≠ skip) : ∃ xs ys, s.without skip = xs ++ (e.items ++ ys) := by
  obtain ⟨l, r, rfl⟩ := List.append_of_mem h
  refine ⟨Script.without skip l, Script.without skip r, ?_⟩
  rw [without, List.flatMap_append, List.flatMap_cons, if_neg hop]
  rfl

/-- A run of lines as one text. -/
def Edit.join (e : Edit Text) : Edit UInt8 := ⟨e.op, e.items.flatten⟩

/-- The texts that a run is turned into: one at least. -/
def Edit.texts (e : Edit Text) : List Text := split newline (chopEnd newline e.items.flatten)

theorem Edit.texts_of_whole {e : Edit Text} (h : Whole e.items) (hne : e.items ≠ []) :
    e.texts = e.items.map (chopEnd newline) := split_flatten_of_whole h hne

/-- The lines of a diff without those of one operation. -/
theorem texts_without (skip : Op) (s : Script Text) :
    ((s.flatMap fun e => e.join.lines).filter fun l => l.op ≠ skip).map Line.text
      = s.flatMap fun e => if e.op = skip then [] else e.texts := by
  rw [List.filter_flatMap, List.map_flatMap]
  refine List.flatMap_congr fun e _ => ?_
  rw [Edit.lines, Edit.join, List.filter_map, List.map_map]
  by_cases hop : e.op = skip
  · simp [hop, Function.comp_def]
  · simp [hop, Function.comp_def, Edit.texts]

theorem texts_without_of_ne_nil {skip : Op} {s : Script Text}
    (hwhole : ∀ e ∈ s, e.op ≠ skip → Whole e.items)
    (hne : ∀ e ∈ s, e.op ≠ skip → e.items ≠ []) :
    (s.flatMap fun e => if e.op = skip then [] else e.texts)
      = (s.without skip).map (chopEnd newline) := by
  rw [Script.without, List.map_flatMap]
  refine List.flatMap_congr fun e he => ?_
  by_cases hop : e.op = skip
  · rw [if_pos hop, if_pos hop]
    rfl
  · rw [if_neg hop, if_neg hop]
    exact Edit.texts_of_whole (hwhole e he hop) (hne e he hop)

/-- Every run gives as many texts as it has items, and an empty one gives one too many. -/
theorem length_without_le {skip : Op} {s : Script Text}
    (hwhole : ∀ e ∈ s, e.op ≠ skip → Whole e.items) :
    (s.without skip).length ≤ (s.flatMap fun e => if e.op = skip then [] else e.texts).length
      ∧ ((s.without skip).length
            = (s.flatMap fun e => if e.op = skip then [] else e.texts).length →
          ∀ e ∈ s, e.op ≠ skip → e.items ≠ []) := by
  induction s with
  | nil => exact ⟨Nat.le_refl _, fun _ e he => nomatch he⟩
  | cons e s ih =>
      obtain ⟨hle, heq⟩ := ih fun e' he' => hwhole e' (List.mem_cons_of_mem e he')
      have hcons : Script.without skip (e :: s)
          = (if e.op = skip then [] else e.items) ++ Script.without skip s := rfl
      rw [hcons, List.flatMap_cons, List.length_append, List.length_append]
      by_cases hop : e.op = skip
      · rw [if_pos hop, if_pos hop]
        refine ⟨by simpa using hle, ?_⟩
        intro hsame e' he' hop'
        rcases List.mem_cons.1 he' with rfl | he'
        · exact absurd hop hop'
        · exact heq (by simpa using hsame) e' he' hop'
      · rw [if_neg hop, if_neg hop]
        by_cases hitems : e.items = []
        · have htexts : e.texts.length = 1 := by rw [Edit.texts, hitems]; rfl
          rw [hitems, List.length_nil, htexts]
          refine ⟨by omega, ?_⟩
          intro hsame
          omega
        · have htexts : e.texts.length = e.items.length := by
            rw [Edit.texts_of_whole (hwhole e List.mem_cons_self hop) hitems, List.length_map]
          rw [htexts]
          refine ⟨by omega, ?_⟩
          intro hsame e' he' hop'
          rcases List.mem_cons.1 he' with rfl | he'
          · exact hitems
          · exact heq (by omega) e' he' hop'

/-- **One side of a diff** is right exactly if no run on that side is empty. -/
theorem texts_without_iff (skip : Op) {s : Script Text} {src : Text}
    (h : s.without skip = fullLines src) :
    ((s.flatMap fun e => e.join.lines).filter fun l => l.op ≠ skip).map Line.text = textLines src
      ↔ ∀ e ∈ s, e.op ≠ skip → e.items ≠ [] := by
  -- a run is a stretch of the lines of the text
  have hwhole : ∀ e ∈ s, e.op ≠ skip → Whole e.items := by
    intro e he hop
    obtain ⟨xs, ys, hsplit⟩ := Script.exists_without_eq he hop
    have hall := whole_fullLines src
    rw [← h, hsplit] at hall
    exact hall.of_append.2.of_append.1
  rw [texts_without, textLines_eq, ← h]
  constructor
  · intro hsame
    refine (length_without_le hwhole).2 ?_
    rw [hsame, List.length_map]
  · intro hne
    exact texts_without_of_ne_nil hwhole hne

/-! ## What the library is relied on for -/

/-- The script that a library finds for the lines of two texts. -/
def Library.script (lib : Library) (before after : Text) : Script Nat :=
  lib.compare (lib.encode before after).1 (lib.encode before after).2.1

/-- What a library is relied on for: its symbols stand for whole lines and are spelled back, and
    its scripts lead from the first sequence of symbols to the second. -/
structure Library.Faithful (lib : Library) : Prop where
  lines : ∀ before after, ∃ line : Nat → Text,
    (lib.encode before after).1.map line = fullLines before
      ∧ (lib.encode before after).2.1.map line = fullLines after
      ∧ ∀ s : Script Nat,
        (∀ e ∈ s, ∀ i ∈ e.items,
          i ∈ (lib.encode before after).1 ∨ i ∈ (lib.encode before after).2.1) →
        lib.decode s (lib.encode before after).2.2
          = s.map fun e => ⟨e.op, e.items.flatMap line⟩
  turns : ∀ a b, Script.Turns (lib.compare a b) a b

/-- A script has no items but those that it starts from or ends in. -/
theorem Script.Turns.mem_items {α : Type} {s : Script α} {a b : List α} (h : s.Turns a b)
    {e : Edit α} (he : e ∈ s) {x : α} (hx : x ∈ e.items) : x ∈ a ∨ x ∈ b := by
  by_cases hop : e.op = .insert
  · refine Or.inr ?_
    rw [← h.after]
    refine List.mem_flatMap.2 ⟨e, he, ?_⟩
    rw [if_neg (by rw [hop]; exact Op.noConfusion)]
    exact hx
  · refine Or.inl ?_
    rw [← h.before]
    refine List.mem_flatMap.2 ⟨e, he, ?_⟩
    rw [if_neg hop]
    exact hx

/-- A script over symbols as the script over the lines that they stand for. -/
def Script.inLines (line : Nat → Text) (s : Script Nat) : Script Text :=
  s.map fun e => ⟨e.op, e.items.map line⟩

theorem Script.without_inLines (skip : Op) (line : Nat → Text) (s : Script Nat) :
    (s.inLines line).without skip = (s.without skip).map line := by
  rw [without, without, inLines, List.flatMap_map, List.map_flatMap]
  refine List.flatMap_congr fun e _ => ?_
  rw [apply_ite (List.map line)]
  rfl

/-- A faithful library makes the diff from a script over the lines of the two texts. -/
theorem Library.Faithful.exists_lineDiff_eq {lib : Library} (h : lib.Faithful)
    (before after : Text) :
    ∃ line : Nat → Text,
      (Script.inLines line (lib.script before after)).without .insert = fullLines before
        ∧ (Script.inLines line (lib.script before after)).without .delete = fullLines after
        ∧ lineDiff lib before after
          = (Script.inLines line (lib.script before after)).flatMap fun e => e.join.lines := by
  obtain ⟨line, hbefore, hafter, hdecode⟩ := h.lines before after
  have hturns := h.turns (lib.encode before after).1 (lib.encode before after).2.1
  refine ⟨line, ?_, ?_, ?_⟩
  · rw [Script.without_inLines, ← hbefore]
    exact congrArg (List.map line) hturns.before
  · rw [Script.without_inLines, ← hafter]
    exact congrArg (List.map line) hturns.after
  · show (lib.decode (lib.script before after) (lib.encode before after).2.2).flatMap Edit.lines = _
    rw [hdecode (lib.script before after) fun e he i hi => hturns.mem_items he hi,
      Script.inLines, List.flatMap_map, List.flatMap_map]
    rfl

/-! ## The line diff -/

/-- **A line diff reproduces both texts**, provided that the library finds a script without empty
    runs, and only then: the texts of the lines that are not inserted are the lines of the text
    before, and those of the lines that are not deleted are the lines of the text after. -/
theorem line_diff_reproduces_iff (lib : Library) (hlib : lib.Faithful) (before after : Text) :
    (∀ e ∈ lib.script before after, e.items ≠ [])
      ↔ oldTexts (lineDiff lib before after) = textLines before
        ∧ newTexts (lineDiff lib before after) = textLines after := by
  obtain ⟨line, hbefore, hafter, hdiff⟩ := hlib.exists_lineDiff_eq before after
  have hruns : (∀ e ∈ Script.inLines line (lib.script before after), e.items ≠ [])
      ↔ ∀ e ∈ lib.script before after, e.items ≠ [] := by
    simp [Script.inLines]
  rw [← hruns, hdiff, oldTexts, newTexts, texts_without_iff .insert hbefore,
    texts_without_iff .delete hafter]
  constructor
  · intro h
    exact ⟨fun e he _ => h e he, fun e he _ => h e he⟩
  · rintro ⟨hkeep, hcome⟩ e he
    by_cases hop : e.op = .insert
    · refine hcome e he ?_
      rw [hop]
      exact Op.noConfusion
    · exact hkeep e he hop

/-! ## The standard library -/

theorem tableLine_of_grown {table table' : List Text} (h : table <+: table') {i : Nat}
    (hi : i < table.length) : tableLine table' i = tableLine table i := by
  obtain ⟨rest, rfl⟩ := h
  rw [tableLine, tableLine, List.getD_append _ _ _ _ hi]

/-- The table grows at its end, and its numbers stand for the lines. -/
theorem numberLines_spec (table ls : List Text) :
    table <+: (numberLines table ls).2
      ∧ (∀ i ∈ (numberLines table ls).1, i < (numberLines table ls).2.length)
      ∧ (numberLines table ls).1.map (tableLine (numberLines table ls).2) = ls := by
  induction ls generalizing table with
  | nil => exact ⟨List.prefix_refl table, fun i hi => absurd hi List.not_mem_nil, rfl⟩
  | cons line ls ih =>
      -- the line has its number in the table that the others are numbered with
      obtain ⟨next, hnext, hgrown, hnumber, hline⟩ : ∃ next : List Text,
          (if table.idxOf line < table.length then table else table ++ [line]) = next
            ∧ table <+: next ∧ table.idxOf line < next.length
            ∧ tableLine next (table.idxOf line) = line := by
        by_cases hmem : line ∈ table
        · have hlt := List.idxOf_lt_length_iff.2 hmem
          refine ⟨table, if_pos hlt, List.prefix_refl table, hlt, ?_⟩
          rw [tableLine, List.getD_eq_getElem _ _ hlt]
          exact List.getElem_idxOf hlt
        · have hlast : table.idxOf line = table.length := List.idxOf_eq_length_iff.2 hmem
          refine ⟨table ++ [line], ?_, List.prefix_append _ _, ?_, ?_⟩
          · rw [hlast, if_neg (Nat.lt_irrefl _)]
          · simp [hlast]
          · simp [tableLine, hlast]
      obtain ⟨hgrows, hbound, hmap⟩ := ih next
      rw [numberLines, hnext]
      refine ⟨hgrown.trans hgrows, ?_, ?_⟩
      · intro i hi
        rcases List.mem_cons.1 hi with rfl | hi
        · exact hnumber.trans_le hgrows.length_le
        · exact hbound i hi
      · show tableLine (numberLines next ls).2 (table.idxOf line) :: _ = _
        rw [tableLine_of_grown hgrows hnumber, hline, hmap]

/-- **The standard library is faithful.** -/
theorem faithful_standard : Library.standard.Faithful where
  turns := search_turns
  lines := by
    intro before after
    obtain ⟨-, hbound, hbefore⟩ := numberLines_spec [] (fullLines before)
    obtain ⟨hgrows, -, hafter⟩ :=
      numberLines_spec (numberLines [] (fullLines before)).2 (fullLines after)
    refine ⟨tableLine (Library.standard.encode before after).2.2, ?_, hafter, fun s _ => rfl⟩
    rw [← hbefore]
    exact List.map_congr_left fun i hi => tableLine_of_grown hgrows (hbound i hi)

/-- A text with empty lines that ends without a line feed. -/
def gappedText : Text := text "a\n\n\nb\nc"

/-- The same text with one line moved, one gone and a line feed at the end. -/
def movedText : Text := text "\nb\na\n\nc\n"

theorem line_diff_reproduces_gappedText :
    (∀ e ∈ Library.standard.script gappedText movedText, e.items ≠ [])
      ∧ oldTexts (lineDiff .standard gappedText movedText)
        = [text "a", [], [], text "b", text "c"]
      ∧ newTexts (lineDiff .standard gappedText movedText)
        = [[], text "b", text "a", [], text "c"] := by
  have hruns : ∀ e ∈ Library.standard.script gappedText movedText, e.items ≠ [] := by
    decide +kernel
  obtain ⟨hold, hnew⟩ :=
    (line_diff_reproduces_iff .standard faithful_standard gappedText movedText).1 hruns
  refine ⟨hruns, ?_, ?_⟩
  · rw [hold]
    decide +kernel
  · rw [hnew]
    decide +kernel

/-- Two long shared runs that overlap in one of the texts: the search settles for one of them
    and leaves an empty deletion behind, which is shown as a deleted empty line. -/
example :
    let before := text "b\na\na\na\nb\na\na\n"
    let after := text "a\nb\nb\nb\na\na\na\na\nb\n"
    (⟨.delete, []⟩ : Edit Nat) ∈ Library.standard.script before after
      ∧ (oldTexts (lineDiff .standard before after)).length = (textLines before).length + 1 := by
  decide +kernel

end ImportBlock.Diff
