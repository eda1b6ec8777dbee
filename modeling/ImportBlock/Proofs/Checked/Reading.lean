import Mathlib
import ImportBlock.Proofs.Checked.Text
import ImportBlock.Proofs.Statement.Origin

/-! # Import lines read by position

    Clauses and statements are read here with checked positions: at the first star, the
    first comma, the outermost braces, the first word `as` or `from` and the quotes.  Each
    reader is followed by the lemma that it gives what the cuts give, so no check fails.

    Only one of them needs to know where its text comes from: a line is cut behind its first
    word, so `readStatement_eq` asks that this word is `import`. -/

namespace ImportBlock

open Text

namespace Checked

/-! ## Module sources -/

/-- The text up to a semicolon. -/
def upToSemicolon (bare : Text) : Except Fault Text :=
  let semi := firstPosition (· == semicolon) bare
  if 0 ≤ semi then trim <$> slice bare 0 semi else pure bare

/-- The module source in the text after `from`. -/
def readSource (region : Text) : Except Fault Text :=
  let start := firstPosition isQuote region
  let stop := lastPosition isQuote region
  if 0 ≤ start ∧ 0 ≤ stop ∧ start < stop then slice region (start + 1) stop
  else upToSemicolon (dropEndWhile isSourceEdge (region.dropWhile isSourceEdge))

theorem upToSemicolon_eq (bare : Text) :
    upToSemicolon bare
      = .ok (match cutFirst (· == semicolon) bare with
        | some (source, _) => trim source
        | none => bare) := by
  rw [upToSemicolon]
  cases hcut : cutFirst (· == semicolon) bare with
  | none =>
      rw [firstPosition_of_none hcut]
      rfl
  | some parts =>
      dsimp only
      rw [if_pos (firstPosition_nonneg hcut), slice_before_cut hcut]
      rfl

/-- The quotes are two, or the first is the last one and there is no text between. -/
theorem readSource_eq (region : Text) :
    readSource region = .ok (ImportBlock.readSource region) := by
  rw [readSource, ImportBlock.readSource]
  dsimp only
  cases hfirst : cutFirst isQuote region with
  | none =>
      rw [firstPosition_of_none hfirst, if_neg (by omega)]
      exact upToSemicolon_eq _
  | some parts =>
      obtain ⟨l, rest⟩ := parts
      cases hlast : cutLast isQuote rest with
      | none =>
          obtain ⟨q, hq, hregion, -⟩ := eq_of_cutFirst hfirst
          have hstop : lastPosition isQuote region = l.length := by
            rw [hregion]
            exact lastPosition_append hq (cutLast_eq_none hlast)
          rw [firstPosition_of_cut hfirst, hstop, if_neg (by omega), Option.bind_some, hlast]
          exact upToSemicolon_eq _
      | some parts =>
          obtain ⟨source, tail⟩ := parts
          have horder : 0 ≤ firstPosition isQuote region ∧ 0 ≤ lastPosition isQuote region
              ∧ firstPosition isQuote region < lastPosition isQuote region := by
            rw [firstPosition_of_cut hfirst, lastPosition_of_cuts hfirst hlast]
            omega
          rw [if_pos horder, slice_between_cuts hfirst hlast, Option.bind_some, hlast]

/-! ## Named bindings -/

/-- One entry of a list. -/
def readBinding (item : Text) : Except Fault Binding := do
  let i ← indexWordFrom item asWord 1
  if 0 ≤ i then
    let name ← slice item 0 i
    let rest ← slice item (i + asWord.length) item.length
    pure ⟨trim name, trim rest⟩
  else pure ⟨item, []⟩

/-- The interior of a brace list. -/
def readList (inner : Text) : Except Fault (List Binding) :=
  Binding.distinct [] <$> (((split comma inner).map trim).filter (· ≠ [])).mapM readBinding

theorem readBinding_eq (item : Text) : readBinding item = .ok (Binding.read item) := by
  have hsearch : indexWordFrom item asWord 1
      = .ok (position (Text.indexWordFrom item asWord 1)) :=
    indexWordFrom_eq item ident_asWord.1 1
  rw [readBinding, hsearch, ok_bind, Binding.read, cutWordFrom]
  cases hindex : Text.indexWordFrom item asWord 1 with
  | none => rfl
  | some i =>
      have hlength := add_length_le_of_indexWordFrom ident_asWord.1 hindex
      rw [position_some, if_pos (Int.natCast_nonneg i), slice_before (by omega), ok_bind,
        ← Nat.cast_add, slice_from hlength]
      rfl

theorem readList_eq (inner : Text) : readList inner = .ok (Binding.readList inner) := by
  rw [readList, mapM_ok fun item _ => readBinding_eq item]
  rfl

/-! ## Clauses -/

/-- The interior of a text in braces. -/
def unbrace (s : Text) : Except Fault (Option Text) :=
  if s.head? = some braceOpen ∧ s.getLast? = some braceClose then
    some <$> slice s 1 (s.length - 1)
  else pure none

/-- The name of a namespace binding, and what follows it behind a comma. -/
def cutComma (rest : Text) : Except Fault (Option (Text × Text)) :=
  let i := firstPosition (· == comma) rest
  if 0 ≤ i then do
    let named ← slice rest (i + 1) rest.length
    let name ← slice rest 0 i
    pure (if trim named = [] then none else some (trim name, trim named))
  else pure (some (rest, []))

/-- Cuts a `* as name` binding out of a clause. -/
def cutStar (clause : Text) : Except Fault (Option Clause.StarCut) :=
  let i := firstPosition (· == star) clause
  if i < 0 then pure none
  else do
    match Clause.readBeforeStar? (← slice clause 0 i) with
    | none => pure none
    | some defaultName =>
        let after := trim (← slice clause (i + 1) clause.length)
        if ← hasWordAt after 0 asWord then
          match ← cutComma (trim (← slice after asWord.length after.length)) with
          | none => pure none
          | some (namespaceName, named) =>
              pure (if namespaceName = []
                  ∨ containsAny [braceOpen, braceClose, star] namespaceName then none
                else some { namespaceName, defaultName, named })
        else pure none

/-- The named bindings after a namespace binding. -/
def readAfterStar (named : Text) : Except Fault (Option (List Binding)) :=
  if named = [] then pure (some [])
  else do
    match ← unbrace named with
    | some inner => some <$> readList inner
    | none =>
        if containsAny [braceOpen, braceClose, star, comma] named then pure none
        else some <$> readList named

/-- A clause with an opening and a closing brace that does not stand in braces. -/
def readBraces (clause : Text) : Except Fault (Option Clause) :=
  let opening := firstPosition (· == braceOpen) clause
  let closing := lastPosition (· == braceClose) clause
  if closing < opening then pure none
  else do
    let before ← slice clause 0 opening
    let named ← readList (← slice clause (opening + 1) closing)
    pure (some { defaultName := trim (dropEndWhile (· == comma) (trim before)), named })

/-- A clause without a well-formed namespace binding. -/
def readPlain (clause : Text) : Except Fault (Option Clause) := do
  match ← unbrace clause with
  | some inner =>
      let named ← readList inner
      pure (some { named })
  | none =>
      if braceOpen ∈ clause ∧ braceClose ∈ clause then readBraces clause
      else if containsAny [braceOpen, braceClose, star] clause then pure none
      else pure (some { defaultName := clause })

/-- Reads the text between `import` and `from`. -/
def readClause (clause : Text) : Except Fault (Option Clause) :=
  if clause = [] then pure none
  else do
    match ← cutStar clause with
    | some cut =>
        let named ← readAfterStar cut.named
        pure (named.map fun named =>
          { defaultName := cut.defaultName, namespaceName := cut.namespaceName, named })
    | none => readPlain clause

/-- One byte cannot be both braces, so there is room between them. -/
theorem unbrace_eq (s : Text) : unbrace s = .ok (Clause.unbrace? s) := by
  rw [unbrace, Clause.unbrace?]
  split
  · rename_i hboth
    obtain ⟨hhead, hlast⟩ := hboth
    cases s with
    | nil => cases hhead
    | cons b t =>
        cases t using List.reverseRecOn with
        | nil =>
            have hopen : b = braceOpen := Option.some.inj hhead
            have hclose : b = braceClose := Option.some.inj hlast
            exact absurd (hopen.symm.trans hclose) (by decide)
        | append_singleton u c =>
            have hparts : b :: (u ++ [c]) = [b] ++ u ++ [c] := rfl
            have hstop : ((b :: (u ++ [c])).length : Int) - 1 = ([b].length + u.length : Nat) := by
              simp only [List.length_cons, List.length_append, List.length_nil]
              omega
            have hslice := slice_append_middle [b] u [c]
            rw [hstop, hparts]
            show some <$> slice ([b] ++ u ++ [c]) ([b].length : Nat) _ = _
            rw [hslice]
            simp
  · rfl

theorem cutComma_eq (rest : Text) :
    cutComma rest
      = .ok (match cutFirst (· == comma) rest with
        | none => some (rest, [])
        | some (l, r) => if trim r = [] then none else some (trim l, trim r)) := by
  rw [cutComma]
  cases hcut : cutFirst (· == comma) rest with
  | none =>
      rw [firstPosition_of_none hcut]
      rfl
  | some parts =>
      rw [if_pos (firstPosition_nonneg hcut), slice_behind_cut hcut, ok_bind,
        slice_before_cut hcut]
      rfl

theorem cutStar_eq (clause : Text) : cutStar clause = .ok (Clause.cutStar? clause) := by
  rw [cutStar, Clause.cutStar?]
  dsimp only
  cases hcut : cutFirst (· == star) clause with
  | none =>
      rw [firstPosition_of_none hcut]
      rfl
  | some parts =>
      obtain ⟨before, after⟩ := parts
      rw [if_neg (Int.not_lt.2 (firstPosition_nonneg hcut)), slice_before_cut hcut, ok_bind,
        Option.bind_eq_bind, Option.bind_some]
      cases Clause.readBeforeStar? before with
      | none => rfl
      | some defaultName =>
          dsimp only
          rw [slice_behind_cut hcut, ok_bind, hasWordAt_start, ok_bind]
          cases hstarts : startsWord asWord (trim after) with
          | false => rfl
          | true =>
              obtain ⟨rest, hrest, -⟩ := startsWord_iff.1 hstarts
              have hlength : asWord.length ≤ (trim after).length := by
                rw [hrest, List.length_append]
                exact Nat.le_add_right _ _
              rw [if_pos rfl, slice_from hlength, ok_bind, cutComma_eq, ok_bind]
              cases cutFirst (· == comma) (trim ((trim after).drop asWord.length)) with
              | none => rfl
              | some parts =>
                  obtain ⟨l, r⟩ := parts
                  dsimp only
                  rw [Option.bind_eq_bind, Option.bind_some, if_pos rfl]
                  by_cases hr : trim r = []
                  · rw [if_pos hr, if_pos hr]
                    rfl
                  · rw [if_neg hr, if_neg hr]
                    rfl

theorem readAfterStar_eq (named : Text) :
    readAfterStar named = .ok (Clause.readAfterStar? named) := by
  rw [readAfterStar, Clause.readAfterStar?, unbrace_eq, ok_bind]
  by_cases hnil : named = []
  · rw [if_pos hnil, if_pos hnil]
    rfl
  · rw [if_neg hnil, if_neg hnil]
    cases Clause.unbrace? named with
    | some inner =>
        dsimp only
        rw [readList_eq]
        rfl
    | none =>
        dsimp only
        rw [readList_eq]
        cases containsAny [braceOpen, braceClose, star, comma] named with
        | true => rfl
        | false => rfl

/-- A closing brace in the rest is one behind the opening brace. -/
theorem readBraces_eq {clause before rest : Text}
    (hcut : cutFirst (· == braceOpen) clause = some (before, rest)) :
    readBraces clause
      = .ok ((cutLast (· == braceClose) rest).map fun (inner, _) =>
        { defaultName := trim (dropEndWhile (· == comma) (trim before))
          named := Binding.readList inner }) := by
  rw [readBraces]
  dsimp only
  cases hlast : cutLast (· == braceClose) rest with
  | none =>
      obtain ⟨hclause, -⟩ := eq_of_cutFirst_byte hcut
      have hrest : braceClose ∉ braceOpen :: rest := by
        rw [List.mem_cons, not_or]
        exact ⟨by decide, cutLast_byte_eq_none_iff.1 hlast⟩
      have hclosing := lastPosition_lt before (forall_beq_eq_false_iff.2 hrest)
      rw [← hclause, ← firstPosition_of_cut hcut] at hclosing
      rw [if_pos hclosing]
      rfl
  | some parts =>
      obtain ⟨inner, tail⟩ := parts
      have horder : ¬ lastPosition (· == braceClose) clause
          < firstPosition (· == braceOpen) clause := by
        rw [firstPosition_of_cut hcut, lastPosition_of_cuts hcut hlast]
        omega
      rw [if_neg horder, slice_before_cut hcut, ok_bind, slice_between_cuts hcut hlast, ok_bind,
        readList_eq, ok_bind]
      rfl

theorem readPlain_eq (clause : Text) : readPlain clause = .ok (Clause.readPlain? clause) := by
  rw [readPlain, Clause.readPlain?, unbrace_eq, ok_bind]
  cases Clause.unbrace? clause with
  | some inner =>
      dsimp only
      rw [readList_eq]
      rfl
  | none =>
      dsimp only
      cases hcut : cutFirst (· == braceOpen) clause with
      | none =>
          have hopen : braceOpen ∉ clause := cutFirst_byte_eq_none_iff.1 hcut
          have hmarks : containsAny [braceOpen, braceClose, star] clause
              = containsAny [braceClose, star] clause := containsAny_cons_of_not_mem hopen
          rw [if_neg (fun hboth => hopen hboth.1), hmarks]
          cases containsAny [braceClose, star] clause with
          | true => rfl
          | false => rfl
      | some parts =>
          obtain ⟨before, rest⟩ := parts
          obtain ⟨hclause, -⟩ := eq_of_cutFirst_byte hcut
          have hopen : braceOpen ∈ clause := by
            rw [hclause]
            exact List.mem_append_right before List.mem_cons_self
          by_cases hclose : braceClose ∈ clause
          · rw [if_pos ⟨hopen, hclose⟩, readBraces_eq hcut]
          · have hmark : containsAny [braceOpen, braceClose, star] clause = true :=
              List.any_eq_true.2 ⟨braceOpen, hopen, by decide⟩
            have hnone : cutLast (· == braceClose) rest = none := by
              refine cutLast_byte_eq_none_iff.2 ?_
              intro hmem
              rw [hclause] at hclose
              exact hclose (List.mem_append_right before (List.mem_cons_of_mem _ hmem))
            rw [if_neg (fun hboth => hclose hboth.2), if_pos hmark]
            dsimp only
            rw [hnone]
            rfl

theorem readClause_eq (clause : Text) : readClause clause = .ok (Clause.read? clause) := by
  rw [readClause, Clause.read?]
  by_cases hnil : clause = []
  · rw [if_pos hnil, if_pos hnil]
    rfl
  · rw [if_neg hnil, if_neg hnil, cutStar_eq, ok_bind]
    cases Clause.cutStar? clause with
    | none => exact readPlain_eq clause
    | some cut =>
        dsimp only
        rw [readAfterStar_eq]
        rfl

/-! ## Statements -/

/-- Reads a trimmed line that starts with the word `import`. -/
def readStatement (line : Text) : Except Fault (Except Rejection Statement) := do
  let i ← indexWord line fromWord
  if i < 0 then pure (.error .missingFrom)
  else
    let clause := trim (← slice line importWord.length i)
    let source ← readSource (trim (← slice line (i + fromWord.length) line.length))
    if source = [] then pure (.error .emptySource)
    else match ← readClause clause with
      | none => pure (.error (.unrecognizedClause clause))
      | some c => pure (.ok ⟨source, c⟩)

/-- **The first word `from` stands behind the word `import`**, the first word of the line. -/
theorem importWord_le_of_indexWord {line : Text} {i : Nat} (hline : isImportLine line = true)
    (hindex : Text.indexWord line fromWord = some i) : importWord.length ≤ i := by
  have hcut : cutWordFrom line fromWord 0
      = some (line.take i, line.drop (i + fromWord.length)) := by
    rw [cutWordFrom, show Text.indexWordFrom line fromWord 0 = some i from hindex]
    rfl
  obtain ⟨x, hx, -⟩ := Statement.cut_importLine hline hcut
  have hlength : (line.take i).length = (importWord ++ x).length := by rw [hx]
  rw [List.length_take, List.length_append] at hlength
  omega

theorem readStatement_eq {line : Text} (hline : isImportLine line = true) :
    readStatement line = .ok (Statement.read line) := by
  have hsearch : indexWord line fromWord = .ok (position (Text.indexWordFrom line fromWord 0)) :=
    indexWordFrom_eq line ident_fromWord.1 0
  rw [readStatement, hsearch, ok_bind, Statement.read, cutWordFrom]
  cases hindex : Text.indexWordFrom line fromWord 0 with
  | none => rfl
  | some i =>
      have hstart : importWord.length ≤ i := importWord_le_of_indexWord hline hindex
      have hend := add_length_le_of_indexWordFrom ident_fromWord.1 hindex
      rw [position_some, if_neg (by omega), slice_eq hstart (by omega), ok_bind, ← Nat.cast_add,
        slice_from hend, ok_bind, readSource_eq, ok_bind]
      dsimp only [Option.map_some]
      split
      · rfl
      · rw [readClause_eq, ok_bind]
        cases Clause.read? (trim ((line.take i).drop importWord.length)) with
        | none => rfl
        | some c => rfl

/-- A line with another first word may be cut at the wrong end. -/
example : readStatement (ImportBlock.text "from 'a'") = .error .outOfRange := by decide +kernel

end Checked

end ImportBlock
