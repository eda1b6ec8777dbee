import Mathlib
import ImportBlock.Optimize
import ImportBlock.Proofs.Checked.Loops
import ImportBlock.Proofs.Checked.Reading
import ImportBlock.Proofs.Settled

/-! # A run with checked accesses

    A text is put in order here by lists that are cut at positions, groups that are found
    through an index of their places, and sorts in place.  `optimize_in_range` says that
    this gives what the library gives for every text and all rules, so that no access is out
    of range and no search runs out of rounds.

    The places in the index are right because groups keep their places and their modules:
    `Grouping.Indexed` is what each step of the joining keeps. -/

namespace ImportBlock

open Text

namespace Checked

/-! ## The import block -/

/-- Drops the last piece if it is empty. -/
def dropFinalEmpty (pieces : List Text) : Except Fault (List Text) := do
  let last ← entry pieces (pieces.length - 1)
  if last = [] then slice pieces 0 (pieces.length - 1) else pure pieces

/-- The lines of a text. -/
def lines (src : Text) : Except Fault (List Text) :=
  if src = [] then pure []
  else do
    let pieces ← dropFinalEmpty (split newline src)
    changeEach (fun l => pure (chopEnd carriageReturn l)) pieces

/-- Cuts a list of lines; `rest` stands in it from position `i` on. -/
def blockFrom (all : List Text) : Nat → List Text → Except Fault Block
  | _, [] => pure {}
  | i, line :: rest => do
      let trimmed := trim line
      if trimmed = [] then blockFrom all (i + 1) rest
      else if ← hasWordAt trimmed 0 importWord then
        let b ← blockFrom all (i + 1) rest
        pure { b with candidates := ⟨i, trimmed⟩ :: b.candidates }
      else
        let body ← slice all i all.length
        pure { body }

/-- Cuts a text. -/
def block (src : Text) : Except Fault Block := do
  let all ← lines src
  blockFrom all 0 all

theorem dropFinalEmpty_eq {pieces : List Text} (h : pieces ≠ []) :
    dropFinalEmpty pieces = .ok (Text.dropFinalEmpty pieces) := by
  cases pieces using List.reverseRecOn with
  | nil => exact absurd rfl h
  | append_singleton pieces last =>
      have hlast : ((pieces ++ [last]).length : Int) - 1 = pieces.length := by simp
      rw [dropFinalEmpty, hlast, entry_append, ok_bind, slice_append_left, Text.dropFinalEmpty,
        List.getLast?_concat, List.dropLast_concat]
      by_cases hempty : last = []
      · rw [if_pos hempty, if_pos (congrArg some hempty)]
      · rw [if_neg hempty, if_neg fun heq => hempty (Option.some.inj heq)]
        rfl

/-- A text that is not empty has a last piece. -/
theorem lines_eq (src : Text) : lines src = .ok (Text.lines src) := by
  rw [lines]
  by_cases hsrc : src = []
  · rw [if_pos hsrc, hsrc]
    rfl
  · rw [if_neg hsrc, dropFinalEmpty_eq (split_ne_nil newline src), ok_bind]
    exact changeEach_eq (fun _ => rfl) _

/-- The body is what is left of the lines. -/
theorem blockFrom_eq (above ls : List Text) :
    blockFrom (above ++ ls) above.length ls = .ok (Block.ofLines above.length ls) := by
  induction ls generalizing above with
  | nil => rfl
  | cons line rest ih =>
      have hnext : above ++ line :: rest = above ++ [line] ++ rest := by simp
      have hrest : blockFrom (above ++ line :: rest) (above.length + 1) rest
          = .ok (Block.ofLines (above.length + 1) rest) := by
        have h := ih (above ++ [line])
        rw [← hnext, List.length_append] at h
        exact h
      have himport : isImportLine (trim line) = startsWord importWord (trim line) :=
        Bool.and_true _
      rw [blockFrom, Block.ofLines]
      dsimp only
      rw [hrest, hasWordAt_start, slice_append_right, himport, ok_bind]
      split
      · rfl
      · cases startsWord importWord (trim line) with
        | true => rfl
        | false => rfl

theorem block_eq (src : Text) : block src = .ok (Block.ofText src) := by
  rw [block, lines_eq, ok_bind]
  exact blockFrom_eq [] (Text.lines src)

/-! ## Joining through an index -/

/-- Groups with the place of the group of each module. -/
structure Grouping where
  groups : List Statement := []
  index : List (Text × Nat) := []

namespace Grouping

/-- The place of the group of a module, which is added if there is none. -/
def place (m : Grouping) (source : Text) : Nat × Grouping :=
  match m.index.lookup source with
  | some i => (i, m)
  | none =>
      (m.groups.length, ⟨m.groups ++ [⟨source, {}⟩], (source, m.groups.length) :: m.index⟩)

/-- Joins a statement into the group of its module. -/
def add (m : Grouping) (s : Statement) : Except Fault Grouping := do
  let (i, m) := m.place s.source
  let groups ← changeAt (fun g => pure ⟨g.source, Merge.joinClause g.clause s.clause⟩) m.groups i
  pure { m with groups }

/-- The index gives the place of each module. -/
def Indexed (m : Grouping) : Prop :=
  ∀ source, m.index.lookup source = (m.groups.map Statement.source).idxOf? source

end Grouping

/-- An entry that is new is found behind the others. -/
theorem idxOf?_append {xs : List Text} {x : Text} (hx : x ∉ xs) (ys : List Text) :
    (xs ++ x :: ys).idxOf? x = some xs.length := by
  refine findIdx?_append ?_ (beq_self_eq_true x)
  intro y hy
  refine beq_eq_false_iff_ne.2 ?_
  rintro rfl
  exact hx hy

/-- A further entry does not change the place of another one. -/
theorem idxOf?_concat_of_ne (xs : List Text) {x y : Text} (h : y ≠ x) :
    (xs ++ [x]).idxOf? y = xs.idxOf? y := by
  have hnone : [x].findIdx? (· == y) = none := by simpa using h.symm
  show (xs ++ [x]).findIdx? (· == y) = xs.findIdx? (· == y)
  rw [List.findIdx?_append, hnone, Option.map_none, Option.or_none]

/-- The group of a module is the first one of it. -/
theorem exists_add_of_mem {gs : List Statement} {s : Statement}
    (hmem : s.source ∈ gs.map Statement.source) :
    ∃ xs g ys, gs = xs ++ g :: ys ∧ g.source = s.source ∧ s.source ∉ xs.map Statement.source
      ∧ Merge.add gs s = xs ++ ⟨g.source, Merge.joinClause g.clause s.clause⟩ :: ys := by
  induction gs with
  | nil => cases hmem
  | cons g gs ih =>
      rw [Merge.add]
      by_cases hg : g.source = s.source
      · rw [if_pos hg]
        exact ⟨[], g, gs, rfl, hg, List.not_mem_nil, rfl⟩
      · have hrest : s.source ∈ gs.map Statement.source := by
          rcases List.mem_cons.1 hmem with heq | hmem
          · exact absurd heq.symm hg
          · exact hmem
        obtain ⟨xs, g', ys, hgs, hg', hxs, hadd⟩ := ih hrest
        have hnot : s.source ∉ (g :: xs).map Statement.source := by
          rw [List.map_cons, List.mem_cons, not_or]
          exact ⟨fun heq => hg heq.symm, hxs⟩
        rw [if_neg hg, hadd, hgs]
        exact ⟨g :: xs, g', ys, rfl, hg', hnot, rfl⟩

/-- **One step**: a place that is looked up or added is in range, and the index stays right. -/
theorem Grouping.add_eq {m : Grouping} (h : m.Indexed) (s : Statement) :
    ∃ m', m.add s = .ok m' ∧ m'.groups = Merge.add m.groups s ∧ m'.Indexed := by
  rw [add, place, h]
  have hsources := Merge.sources_add m.groups s
  by_cases hmem : s.source ∈ m.groups.map Statement.source
  · rw [if_pos hmem] at hsources
    obtain ⟨xs, g, ys, hgroups, hg, hxs, hadd⟩ := exists_add_of_mem hmem
    have hplace : (m.groups.map Statement.source).idxOf? s.source = some xs.length := by
      rw [hgroups, List.map_append, List.map_cons, hg, idxOf?_append hxs, List.length_map]
    refine ⟨{ m with groups := Merge.add m.groups s }, ?_, rfl, ?_⟩
    · rw [hplace, hadd]
      dsimp only
      rw [hgroups, changeAt_append]
      rfl
    · intro source
      rw [hsources]
      exact h source
  · rw [if_neg hmem] at hsources
    have hplace : (m.groups.map Statement.source).idxOf? s.source = none :=
      List.idxOf?_eq_none_iff.2 hmem
    refine ⟨⟨Merge.add m.groups s, (s.source, m.groups.length) :: m.index⟩, ?_, rfl, ?_⟩
    · rw [hplace, Merge.add_of_not_mem hmem]
      dsimp only
      rw [changeAt_append]
      rfl
    · intro source
      rw [hsources, List.lookup_cons]
      by_cases hs : source = s.source
      · rw [hs, beq_self_eq_true, idxOf?_append hmem, List.length_map]
      · rw [beq_eq_false_iff_ne.2 hs, idxOf?_concat_of_ne _ hs]
        exact h source

/-- All steps. -/
theorem Grouping.foldlM_add_eq {m : Grouping} (h : m.Indexed) (ds : List Declaration) :
    ∃ m', ds.foldlM (fun m d => m.add d.statement) m = .ok m'
      ∧ m'.groups = ds.foldl (fun gs d => Merge.add gs d.statement) m.groups := by
  induction ds generalizing m with
  | nil => exact ⟨m, rfl, rfl⟩
  | cons d ds ih =>
      obtain ⟨m₁, hadd, hgroups, hindexed⟩ := add_eq h d.statement
      obtain ⟨m', hrun, hall⟩ := ih hindexed
      refine ⟨m', ?_, ?_⟩
      · rw [List.foldlM_cons, hadd, ok_bind, hrun]
      · rw [hall, hgroups]
        rfl

/-! ## Statements -/

/-- Orders the named bindings of a statement by name. -/
def sortNamed (s : Statement) : Except Fault Statement := do
  let named ← sortInPlace Binding.name s.clause.named
  pure { s with clause := { s.clause with named } }

/-- Joins the declarations of each module into one statement. -/
def joinedStatements (sort : Bool) (ds : List Declaration) : Except Fault (List Statement) := do
  let m ← ds.foldlM (fun m d => m.add d.statement) ({} : Grouping)
  if sort then changeEach sortNamed (← sortInPlace Statement.source m.groups)
  else pure m.groups

/-- One statement for each declaration, or for each distinct line. -/
def flatStatements (removeCopies sort : Bool) (ds : List Declaration) :
    Except Fault (List Statement) := do
  let kept := if removeCopies then Flat.firstCopies [] ds else ds
  let kept ← if sort then sortInPlace Declaration.source kept else pure kept
  pure (kept.map Declaration.statement)

/-- The statements that the declarations become under the rules. -/
def statements (r : Rules) (ds : List Declaration) : Except Fault (List Statement) :=
  if r.merge then joinedStatements r.sort ds else flatStatements r.dedupe r.sort ds

theorem sortNamed_eq (s : Statement) : sortNamed s = .ok (Merge.sortNamed s) := by
  rw [sortNamed, sortInPlace_eq]
  rfl

theorem joinedStatements_eq (sort : Bool) (ds : List Declaration) :
    joinedStatements sort ds = .ok (Merge.statements sort ds) := by
  have hempty : Grouping.Indexed {} := by
    intro source
    rfl
  obtain ⟨m, hrun, hgroups⟩ := Grouping.foldlM_add_eq hempty ds
  rw [joinedStatements, hrun, ok_bind, hgroups, sortInPlace_eq, ok_bind,
    changeEach_eq sortNamed_eq]
  cases sort with
  | true => rfl
  | false => rfl

theorem flatStatements_eq (removeCopies sort : Bool) (ds : List Declaration) :
    flatStatements removeCopies sort ds = .ok (Flat.statements removeCopies sort ds) := by
  rw [flatStatements]
  dsimp only
  rw [sortInPlace_eq]
  cases sort with
  | true => rfl
  | false => rfl

theorem statements_eq (r : Rules) (ds : List Declaration) :
    statements r ds = .ok (r.statements ds) := by
  rw [statements, Rules.statements, joinedStatements_eq, flatStatements_eq]
  split
  · rfl
  · rfl

/-! ## Lines -/

/-- The written form of the named bindings: a lone binding stands without braces. -/
def renderNamed (bs : List Binding) : Except Fault (List Text) :=
  let named := bs.map Binding.render
  if named.length = 0 then pure []
  else if named.length = 1 then do return [← entry named 0]
  else pure [text "\x7b " ++ join (text ", ") named ++ text " \x7d"]

/-- The line of a statement; a statement that binds nothing has none. -/
def render (s : Statement) : Except Fault (Option Text) := do
  let named ← renderNamed s.clause.named
  let clause := join (text ", ")
    ((if s.clause.defaultName = [] then [] else [s.clause.defaultName])
      ++ (if s.clause.namespaceName = [] then [] else [text "* as " ++ s.clause.namespaceName])
      ++ named)
  pure (if clause = [] then none else some (Statement.renderLine clause s.source))

/-- Reads an import line. -/
def readCandidate (c : Candidate) :
    Except Fault (Candidate × Except Rejection Declaration) := do
  let reading ← readStatement c.text
  pure (c, reading.map fun s => ⟨c.text, c.index, s⟩)

/-- Puts the import block of a text in order. -/
def optimize (r : Rules) (src : Text) : Except Fault Text := do
  let b ← block src
  let readings ← b.candidates.mapM readCandidate
  let declarations := readings.filterMap fun (_, reading) => reading.toOption
  if declarations = [] then pure src
  else
    let lines ← (← statements r declarations).mapM render
    let malformed := readings.filterMap fun (c, reading) =>
      match reading with
      | .ok _ => none
      | .error _ => some c.text
    pure (assemble (lines.filterMap id ++ (if r.keepMalformed then malformed else [])) b.body)

theorem renderNamed_eq (bs : List Binding) : renderNamed bs = .ok (Clause.renderNamed bs) := by
  rw [renderNamed]
  match bs with
  | [] => rfl
  | [_] => rfl
  | _ :: _ :: _ => rfl

theorem render_eq (s : Statement) : render s = .ok s.render? := by
  rw [render, renderNamed_eq]
  rfl

theorem readCandidate_eq {c : Candidate} (h : isImportLine c.text = true) :
    readCandidate c = .ok (c, Declaration.read c.text c.index) := by
  rw [readCandidate, readStatement_eq h]
  rfl

theorem optimize_eq (r : Rules) (src : Text) :
    optimize r src = .ok (ImportBlock.optimize r src) := by
  have hreadings : (Block.ofText src).candidates.mapM readCandidate
      = .ok (Block.ofText src).readings := by
    refine mapM_ok ?_
    intro c hc
    exact readCandidate_eq (Block.importLine_of_mem hc).starts
  rw [optimize, block_eq, ok_bind, hreadings, ok_bind, ImportBlock.optimize]
  dsimp only
  by_cases hnone : (Block.ofText src).declarations = []
  · rw [if_pos hnone]
    exact if_pos hnone
  · rw [if_neg hnone]
    refine (if_neg hnone).trans ?_
    rw [statements_eq, ok_bind, mapM_ok fun s _ => render_eq s, ok_bind]
    rw [List.filterMap_map]
    rfl

/-- **No access is out of range and every search ends.**  For every text and all rules the
    run with checked accesses gives what the library gives.  In each import line the first
    word `from` is not there or stands behind `import`, and a search for a word with a byte
    in it ends with the place of the word, in any text and from any offset. -/
theorem optimize_in_range (r : Rules) (src : Text) :
    optimize r src = .ok (ImportBlock.optimize r src)
      ∧ (∀ c ∈ (Block.ofText src).candidates,
        ∃ p, indexWord c.text fromWord = .ok p ∧ (p = -1 ∨ (importWord.length : Int) ≤ p))
      ∧ ∀ (s word : Text) (offset : Nat), word ≠ [] →
        indexWordFrom s word offset = .ok (position (Text.indexWordFrom s word offset)) := by
  refine ⟨optimize_eq r src, ?_, ?_⟩
  · intro c hc
    refine ⟨_, indexWordFrom_eq c.text ident_fromWord.1 0, ?_⟩
    cases hindex : Text.indexWordFrom c.text fromWord 0 with
    | none => exact Or.inl rfl
    | some i =>
        have hle := importWord_le_of_indexWord (Block.importLine_of_mem hc).starts hindex
        exact Or.inr (Int.ofNat_le.2 hle)
  · intro s word offset hword
    exact indexWordFrom_eq s hword offset

/-- Lines with nothing before and after `from`, with a brace that is closed before it is
    opened, with a star and nothing else, and with one quote. -/
def cutShortFile : Text :=
  unlines [text "import from", text "import \x7d a \x7b from 'a'", text "import *from;",
    text "import \x7b as as as \x7d from 'a"]

/-- One line is read, the others are kept.  In the first one `from` stands right behind
    `import`, and a search finds the second `from` of a text where the first is part of a
    longer word. -/
theorem optimize_in_range_cutShortFile :
    optimize { sort := true, merge := true, keepMalformed := true } cutShortFile
        = .ok (unlines [text "import as as as from 'a';", text "import from",
          text "import \x7d a \x7b from 'a'", text "import *from;"])
      ∧ (∃ p, indexWord (text "import from") fromWord = .ok p
        ∧ (p = -1 ∨ (importWord.length : Int) ≤ p))
      ∧ indexWordFrom (text "xfrom from") fromWord 1 = .ok 6 := by
  obtain ⟨hrun, hfrom, hsearch⟩ :=
    optimize_in_range { sort := true, merge := true, keepMalformed := true } cutShortFile
  refine ⟨hrun.trans (congrArg Except.ok ?_), hfrom ⟨0, text "import from"⟩ ?_,
    (hsearch (text "xfrom from") fromWord 1 (by decide)).trans (congrArg Except.ok ?_)⟩
  · decide +kernel
  · decide +kernel
  · decide +kernel

end Checked

end ImportBlock
