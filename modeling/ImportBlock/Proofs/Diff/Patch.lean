import Mathlib
import ImportBlock.Proofs.Output
import ImportBlock.Proofs.Text.Cuts
import ImportBlock.Proofs.Text.Decimal

/-! # Applying a patch

    A patch shows only the neighbourhood of the changes, and yet nothing is missing from it:
    the printed text alone turns the lines before into the lines after.  `applyPrinted?` reads
    the text back and goes through the lines before with a cursor.  A marker copies the lines
    up to its own, an unchanged or deleted line has to be the one at the cursor, and what is
    left at the end is copied.

    `printed_patch_applies` says that this succeeds for every diff and gives the lines after.
    The route:

    * a printed line tells by its first byte what it is, so the lines of the patch come back
      from the text, `readPatch?_render`;
    * every changed line is shown, `marks_visible`, so a line that is left out is the same
      before and after;
    * hence the invariant of the loop, `applyAll?_hunks`: the lines left out since the last
      shown one are exactly those from the cursor up to the line number that a marker would
      have, which grows with each line that is not inserted, `lineNumber_next`. -/

namespace ImportBlock.Diff

open Text

/-! ## The two sides of a diff -/

/-- The texts of the lines before: all that are not inserted. -/
def oldTexts (ls : List Line) : List Text := (ls.filter fun l => l.op ≠ .insert).map Line.text

/-- The texts of the lines after: all that are not deleted. -/
def newTexts (ls : List Line) : List Text := (ls.filter fun l => l.op ≠ .delete).map Line.text

/-! ## Reading and applying -/

/-- The number of a printed marker. -/
def readMarker? (s : Text) : Option Nat := do
  let rest ← List.isPrefixOf? (text "@@ line ") s
  let (digits, mark) ← cutFirst (· == 32) rest
  if digits ≠ [] ∧ (∀ b ∈ digits, isDigit b = true) ∧ mark = text "@@" then
    some (digitsValue digits)
  else none

/-- Reads a printed line of a patch, without its line feed: `-`, `+` and a blank stand before a
    line of the diff, and what starts with none of them has to be a marker. -/
def PatchLine.read? : Text → Option PatchLine
  | [] => none
  | b :: t =>
      if b = 45 then some (.line ⟨.delete, t⟩)
      else if b = 43 then some (.line ⟨.insert, t⟩)
      else if b = 32 then some (.line ⟨.equal, t⟩)
      else (readMarker? (b :: t)).map PatchLine.marker

/-- Reads the lines of a printed patch. -/
def readPatch? (printed : Text) : Option (List PatchLine) :=
  (dropFinalEmpty (split newline printed)).mapM PatchLine.read?

/-- A place in the text before: a line number, counted from 1, and the lines from there on. -/
structure Cursor where
  line : Nat
  rest : List Text

/-- Passes the line at the cursor, if it is the given one. -/
def Cursor.pass? (c : Cursor) (t : Text) : Option Cursor :=
  match c.rest with
  | [] => none
  | s :: rest => if s = t then some ⟨c.line + 1, rest⟩ else none

/-- Applies one line of a patch: the lines it writes, and the cursor after it.  A marker must
    not stand before the cursor, nor beyond the lines that there are. -/
def PatchLine.step? (c : Cursor) : PatchLine → Option (List Text × Cursor)
  | .header _ => none
  | .marker n =>
      if c.line ≤ n ∧ n - c.line ≤ c.rest.length then
        some (c.rest.take (n - c.line), ⟨n, c.rest.drop (n - c.line)⟩)
      else none
  | .line ⟨.equal, t⟩ => (c.pass? t).map fun c => ([t], c)
  | .line ⟨.delete, t⟩ => (c.pass? t).map fun c => ([], c)
  | .line ⟨.insert, t⟩ => some ([t], c)

/-- Applies the lines of a patch one after the other and copies what is left. -/
def applyAll? (c : Cursor) : List PatchLine → Option (List Text)
  | [] => some c.rest
  | l :: ls => do
      let (out, c) ← l.step? c
      let rest ← applyAll? c ls
      some (out ++ rest)

/-- Applies a printed patch to the lines of a text. -/
def applyPrinted? (old : List Text) (printed : Text) : Option (List Text) := do
  let ls ← readPatch? printed
  applyAll? ⟨1, old⟩ ls

/-! ## Printed lines -/

theorem readMarker?_render (n : Nat) :
    readMarker? (text "@@ line " ++ ofNat n ++ text " @@") = some n := by
  have hstart : List.isPrefixOf? (text "@@ line ") (text "@@ line " ++ (ofNat n ++ text " @@"))
      = some (ofNat n ++ text " @@") := by simp
  have hspace : (32 : UInt8) ∉ ofNat n := by
    intro hmem
    exact absurd (isDigit_of_mem_ofNat hmem) (by decide)
  have hcut : cutFirst (· == 32) (ofNat n ++ text " @@") = some (ofNat n, text "@@") :=
    cutFirst_byte (text "@@") hspace
  have hdigits : ofNat n ≠ [] ∧ (∀ b ∈ ofNat n, isDigit b = true) ∧ text "@@" = text "@@" :=
    ⟨ofNat_ne_nil n, fun b hb => isDigit_of_mem_ofNat hb, rfl⟩
  rw [readMarker?, List.append_assoc, hstart, Option.bind_eq_bind, Option.bind_some, hcut]
  show (if _ then some (digitsValue (ofNat n)) else none) = some n
  rw [if_pos hdigits, digitsValue_ofNat]

/-- A line that is printed as one line: no header, and no line feed in its text. -/
def PatchLine.OneLine : PatchLine → Prop
  | .header _ => False
  | .marker _ => True
  | .line l => newline ∉ l.text

/-- A printed line ends with its only line feed and is read back. -/
theorem PatchLine.exists_read?_render {l : PatchLine} (h : l.OneLine) :
    ∃ s, l.render = s ++ [newline] ∧ newline ∉ s ∧ read? s = some l := by
  match l, h with
  | .marker n, _ =>
      refine ⟨text "@@ line " ++ ofNat n ++ text " @@", ?_, ?_, ?_⟩
      · show text "@@ line " ++ ofNat n ++ (text " @@" ++ [newline]) = _
        exact (List.append_assoc _ _ _).symm
      · simp only [List.mem_append, not_or]
        refine ⟨⟨by decide, ?_⟩, by decide⟩
        intro hmem
        exact absurd (isDigit_of_mem_ofNat hmem) (by decide)
      · show (readMarker? (text "@@ line " ++ ofNat n ++ text " @@")).map PatchLine.marker = _
        rw [readMarker?_render]
        rfl
  | .line ⟨.delete, t⟩, h =>
      exact ⟨45 :: t, rfl, List.not_mem_cons_of_ne_of_not_mem (by decide) h, rfl⟩
  | .line ⟨.insert, t⟩, h =>
      exact ⟨43 :: t, rfl, List.not_mem_cons_of_ne_of_not_mem (by decide) h, rfl⟩
  | .line ⟨.equal, t⟩, h =>
      exact ⟨32 :: t, rfl, List.not_mem_cons_of_ne_of_not_mem (by decide) h, rfl⟩

/-- **A printed patch is read back.** -/
theorem readPatch?_render {ps : List PatchLine} (h : ∀ l ∈ ps, l.OneLine) :
    readPatch? (ps.flatMap PatchLine.render) = some ps := by
  induction ps with
  | nil => rfl
  | cons l ps ih =>
      obtain ⟨s, hrender, hline, hread⟩ := PatchLine.exists_read?_render (h l List.mem_cons_self)
      have hrest := ih fun k hk => h k (List.mem_cons_of_mem l hk)
      rw [readPatch?] at hrest ⊢
      rw [List.flatMap_cons, hrender, List.append_assoc, List.singleton_append,
        split_append_cons _ hline, dropFinalEmpty_cons s (split_ne_nil newline _),
        List.mapM_cons, hread, hrest]
      rfl

/-! ## Shown lines -/

/-- Every place that has a mark keeps it. -/
def KeepsMarks (bs ms : List Bool) : Prop := List.Forall₂ (fun b m => b = true → m = true) bs ms

theorem keepsMarks_spread (context left : Nat) (bs : List Bool) :
    KeepsMarks bs (spread context left bs) := by
  induction bs generalizing left with
  | nil => exact .nil
  | cons b bs ih =>
      cases b with
      | true => exact .cons (fun _ => rfl) (ih context)
      | false =>
          cases left with
          | zero => exact .cons (fun h => h) (ih 0)
          | succ left => exact .cons (fun _ => rfl) (ih left)

theorem KeepsMarks.or {bs ms ms' : List Bool} (h : KeepsMarks bs ms)
    (hlen : ms.length = ms'.length) : KeepsMarks bs (List.zipWith (· || ·) ms ms') := by
  induction h generalizing ms' with
  | nil => exact .nil
  | cons hm _ ih =>
      cases ms' with
      | nil => cases hlen
      | cons m' ms' =>
          refine .cons ?_ (ih (Nat.succ.inj hlen))
          intro hb
          rw [hm hb]
          rfl

/-- **Every changed line is shown.** -/
theorem marks_visible (ls : List Line) :
    List.Forall₂ (fun l shown => l.op ≠ .equal → shown = true) ls (visible ls) := by
  have hmarks : KeepsMarks (ls.map fun l => decide (l.op ≠ .equal)) (visible ls) := by
    refine (keepsMarks_spread contextLines 0 _).or ?_
    rw [List.length_reverse, ← (keepsMarks_spread contextLines 0 _).length_eq,
      ← (keepsMarks_spread contextLines 0 _).length_eq, List.length_reverse]
  refine (List.forall₂_map_left_iff.1 hmarks).imp ?_
  intro l shown hshown hop
  exact hshown (decide_eq_true hop)

theorem oneLine_of_mem_hunks {ls : List Line} {i : Nat} {skipped : Bool} {ps : List (Line × Bool)}
    (h : ∀ p ∈ ps, newline ∉ p.1.text) : ∀ l ∈ hunks ls i skipped ps, l.OneLine := by
  induction ps generalizing i skipped with
  | nil => intro l hl; cases hl
  | cons p ps ih =>
      obtain ⟨k, shown⟩ := p
      have hrest : ∀ (i : Nat) (skipped : Bool), ∀ l ∈ hunks ls i skipped ps, l.OneLine :=
        fun i skipped => ih fun q hq => h q (List.mem_cons_of_mem _ hq)
      intro l hl
      rw [hunks] at hl
      split at hl
      · rcases List.mem_append.1 hl with hmarker | hl
        · split at hmarker
          · rw [List.mem_singleton.1 hmarker]
            exact trivial
          · cases hmarker
        · rcases List.mem_cons.1 hl with rfl | hl
          · exact h (k, shown) List.mem_cons_self
          · exact hrest _ _ l hl
      · exact hrest _ _ l hl

/-! ## Applying the lines of a patch -/

theorem applyAll?_cons {c c' : Cursor} {l : PatchLine} {ls : List PatchLine} {out rest : List Text}
    (hstep : l.step? c = some (out, c')) (hrest : applyAll? c' ls = some rest) :
    applyAll? c (l :: ls) = some (out ++ rest) := by
  rw [applyAll?, hstep]
  simp only [Option.bind_eq_bind, Option.bind_some, hrest]

/-- A shown line of the diff passes its own line before and writes its own line after. -/
theorem applyAll?_line {l : Line} {ls : List Line} {n : Nat} {ps : List PatchLine}
    (h : applyAll? ⟨if l.op = .insert then n else n + 1, oldTexts ls⟩ ps = some (newTexts ls)) :
    applyAll? ⟨n, oldTexts (l :: ls)⟩ (.line l :: ps) = some (newTexts (l :: ls)) := by
  obtain ⟨op, t⟩ := l
  have hpass : Cursor.pass? ⟨n, t :: oldTexts ls⟩ t = some ⟨n + 1, oldTexts ls⟩ := if_pos rfl
  cases op with
  | delete =>
      have hstep : PatchLine.step? ⟨n, t :: oldTexts ls⟩ (.line ⟨.delete, t⟩)
          = some ([], ⟨n + 1, oldTexts ls⟩) := by
        rw [PatchLine.step?, hpass]
        rfl
      exact applyAll?_cons hstep h
  | equal =>
      have hstep : PatchLine.step? ⟨n, t :: oldTexts ls⟩ (.line ⟨.equal, t⟩)
          = some ([t], ⟨n + 1, oldTexts ls⟩) := by
        rw [PatchLine.step?, hpass]
        rfl
      exact applyAll?_cons hstep h
  | insert =>
      have hstep : PatchLine.step? ⟨n, oldTexts ls⟩ (.line ⟨.insert, t⟩)
          = some ([t], ⟨n, oldTexts ls⟩) := rfl
      exact applyAll?_cons hstep h

/-- A marker copies the lines that were left out. -/
theorem applyAll?_marker {n : Nat} {left old new : List Text} {ps : List PatchLine}
    (h : applyAll? ⟨n + left.length, old⟩ ps = some new) :
    applyAll? ⟨n, left ++ old⟩ (.marker (n + left.length) :: ps) = some (left ++ new) := by
  refine applyAll?_cons ?_ h
  have hfits : n ≤ n + left.length ∧ n + left.length - n ≤ (left ++ old).length := by
    rw [List.length_append]
    omega
  simp only [PatchLine.step?]
  rw [if_pos hfits, Nat.add_sub_cancel_left, List.take_left, List.drop_left]

/-- Every line but an inserted one stands in the text before. -/
theorem lineNumber_next (done : List Line) (l : Line) (ls : List Line) :
    lineNumber (done ++ l :: ls) (done.length + 1)
      = if l.op = .insert then lineNumber (done ++ l :: ls) done.length
        else lineNumber (done ++ l :: ls) done.length + 1 := by
  have htake : (done ++ l :: ls).take (done.length + 1) = done ++ [l] := by
    rw [List.take_length_add_append]
    rfl
  rw [lineNumber, lineNumber, htake, List.take_left, List.countP_append]
  by_cases hop : l.op = .insert
  · simp [hop]
  · simp [hop]

/-- **What the loop keeps**: the lines left out since the last shown one, `left`, are those
    from the cursor up to the line number of the position that the loop is at. -/
theorem applyAll?_hunks {ls : List Line} {marks : List Bool}
    (h : List.Forall₂ (fun l shown => l.op ≠ .equal → shown = true) ls marks)
    (done : List Line) (n : Nat) (left : List Text) (skipped : Bool)
    (hskipped : skipped = false → left = [])
    (hline : lineNumber (done ++ ls) done.length = n + left.length) :
    applyAll? ⟨n, left ++ oldTexts ls⟩
        (hunks (done ++ ls) done.length skipped (ls.zip marks))
      = some (left ++ newTexts ls) := by
  induction h generalizing done n left skipped with
  | nil => rfl
  | @cons l shown ls marks hshown _ ih =>
      have hnext := lineNumber_next done l ls
      rw [hline] at hnext
      have hdone : done ++ l :: ls = (done ++ [l]) ++ ls := by simp
      have hlength : done.length + 1 = (done ++ [l]).length := by simp
      rw [List.zip_cons_cons, hunks]
      cases shown with
      | true =>
          rw [if_pos rfl, hline]
          -- after a shown line nothing is left out
          have hrest : applyAll? ⟨if l.op = .insert then n + left.length else n + left.length + 1,
              oldTexts ls⟩ (hunks (done ++ l :: ls) (done.length + 1) false (ls.zip marks))
                = some (newTexts ls) := by
            rw [hdone, hlength] at hnext ⊢
            exact ih (done ++ [l]) _ [] false (fun _ => rfl) hnext
          have hpassed := applyAll?_line hrest
          cases skipped with
          | true => exact applyAll?_marker hpassed
          | false =>
              rw [hskipped rfl] at hpassed ⊢
              exact hpassed
      | false =>
          rw [if_neg Bool.false_ne_true]
          -- only an unchanged line is left out
          have hop : l.op = .equal := by
            by_contra hop
            exact Bool.false_ne_true (hshown hop)
          obtain ⟨op, t⟩ := l
          subst hop
          rw [hdone, hlength] at hnext ⊢
          have hrest := ih (done ++ [⟨.equal, t⟩]) n (left ++ [t]) true (fun h => nomatch h)
            (by rw [hnext]; simp [Nat.add_assoc])
          rw [List.append_assoc left, List.append_assoc left] at hrest
          exact hrest

/-! ## The printed patch -/

/-- **A printed patch is correct.**  For every diff of lines without line feeds, what is
    printed for it without colour is the header of the file and a text that, applied to the
    lines before, passes every check and gives the lines after. -/
theorem printed_patch_applies (path : Text) (ls : List Line) (h : ∀ l ∈ ls, newline ∉ l.text) :
    ∃ printed : Text,
      deliver false none
          ((PatchLine.header path :: patchLines ls).map fun l => .print .diff l.print)
        = { out := text "--- " ++ path ++ text "\n+++ " ++ path ++ text "\n" ++ printed }
      ∧ applyPrinted? (oldTexts ls) printed = some (newTexts ls) := by
  refine ⟨(patchLines ls).flatMap PatchLine.render, ?_, ?_⟩
  · have hrecords : ((PatchLine.header path :: patchLines ls).map
        fun l => Event.print .diff l.print).filterMap Event.record? = [] := by
      rw [List.filterMap_map]
      exact List.filterMap_eq_nil_iff.2 fun _ _ => rfl
    rw [deliver_none, hrecords, List.flatMap_map, List.flatMap_cons]
    simp only [Event.printed_plain]
    rfl
  · have honeLine : ∀ l ∈ patchLines ls, l.OneLine := by
      refine oneLine_of_mem_hunks ?_
      intro p hp
      exact h p.1 (List.of_mem_zip hp).1
    rw [applyPrinted?, readPatch?_render honeLine]
    exact applyAll?_hunks (marks_visible ls) [] 1 [] false (fun _ => rfl) rfl

/-- An insertion before the first line and a replacement after the eighth one: the lines
    between them are too many to be all shown. -/
def distantChanges : List Line :=
  ⟨.insert, text "@@ line 9 @@"⟩
    :: ([text "1", text "2", text "3", text "4", text "5", text "6", text "7", text "8"].map
      fun t => ⟨.equal, t⟩)
    ++ [⟨.delete, text "-x"⟩, ⟨.insert, []⟩, ⟨.equal, text "10"⟩]

theorem printed_patch_applies_distantChanges :
    PatchLine.marker 6 ∈ patchLines distantChanges
      ∧ ∃ printed : Text,
        deliver false none ((PatchLine.header (text "a.ts") :: patchLines distantChanges).map
            fun l => .print .diff l.print)
          = { out := text "--- " ++ text "a.ts" ++ text "\n+++ " ++ text "a.ts" ++ text "\n"
                ++ printed }
        ∧ applyPrinted? (oldTexts distantChanges) printed = some (newTexts distantChanges) :=
  ⟨by decide, printed_patch_applies (text "a.ts") distantChanges (by decide)⟩

end ImportBlock.Diff
