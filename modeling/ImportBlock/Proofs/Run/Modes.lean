import Mathlib
import ImportBlock.Proofs.Output
import ImportBlock.Proofs.Run.Order
import ImportBlock.Run.Basic

/-! # What the modes say

    A file is read and put in order the same in all modes; they differ in what is done with
    it then.  So what one mode lists is what another one changes: the paths that a check
    prints, and those that patches are printed for, are the paths whose files are not in
    order.  A run in place alters no others, and it alters all of these if they can be
    written; and the failure of a run is counted from the same records (`modes_agree`).

    An output that takes all writes gets the prints of all events, `deliver_none`.  The rest
    is about single records: what is said about a path depends on the file it leads to, and
    about a path that leads to none, or to one that cannot be read, nothing is printed. -/

namespace ImportBlock

open ImportBlock.Tree

/-- The lists of the entries that satisfy `p`, one after the other. -/
theorem flatMap_filter_eq {α β : Type} (p : α → Bool) (f : α → List β) (as : List α) :
    (as.filter p).flatMap f = as.flatMap fun a => if p a then f a else [] := by
  induction as with
  | nil => rfl
  | cons a as ih =>
      rw [List.flatMap_cons, ← ih, List.filter_cons]
      split
      · rfl
      · rfl

/-! ## The outcome of a run -/

section

variable {job : Job} {o : Output} {single : Bool} {t : Tree} {cwd : Place} {paths : List Text}

theorem runEach_nil : job.runEach o false single t cwd [] = { tree := t } := if_pos rfl

theorem runEach_of_ne (ho : o.capacity = none) (hne : paths ≠ []) :
    job.runEach o false single t cwd paths
      = let run := processEach job.rules job.mode t cwd paths
        let events := run.1.flatMap (Result.optimizerEvents job.rules)
          ++ run.1.flatMap (Result.events job.library job.mode single) ++ [summary run.1]
        { records := events.filterMap Event.record?
          out := events.flatMap (Event.printed o.colour)
          tree := run.2
          failure := verdict job.mode run.1 } := by
  rw [Job.runEach, if_neg hne, if_neg Bool.false_ne_true]
  dsimp only
  rw [Output.conclude, ho, deliver_none]

theorem tree_runEach (ho : o.capacity = none) :
    (job.runEach o false single t cwd paths).tree
      = (processEach job.rules job.mode t cwd paths).2 := by
  by_cases hne : paths = []
  · rw [hne, runEach_nil]
    rfl
  · rw [runEach_of_ne ho hne]

theorem failure_runEach (ho : o.capacity = none) :
    (job.runEach o false single t cwd paths).failure
      = verdict job.mode (processEach job.rules job.mode t cwd paths).1 := by
  by_cases hne : paths = []
  · rw [hne, runEach_nil]
    cases job.mode with
    | print => rfl
    | inPlace => rfl
    | diff => rfl
    | check => rfl
  · rw [runEach_of_ne ho hne]

/-- Notes are logged and not printed. -/
theorem printed_optimizerEvents (rules : Rules) (colour : Bool) (r : Result) :
    (r.optimizerEvents rules).flatMap (Event.printed colour) = [] := by
  rw [Result.optimizerEvents]
  split
  · rw [List.flatMap_map, List.flatMap_eq_nil_iff]
    exact fun _ _ => rfl
  · rfl

theorem out_runEach (ho : o.capacity = none) :
    (job.runEach o false single t cwd paths).out
      = (processEach job.rules job.mode t cwd paths).1.flatMap fun r =>
          (r.events job.library job.mode single).flatMap (Event.printed o.colour) := by
  by_cases hne : paths = []
  · rw [hne, runEach_nil]
    rfl
  · rw [runEach_of_ne ho hne]
    dsimp only
    rw [List.flatMap_append, List.flatMap_append, List.flatMap_assoc, List.flatMap_assoc]
    simp only [printed_optimizerEvents]
    rw [List.flatMap_eq_nil_iff.2 fun _ _ => rfl, List.nil_append]
    exact List.append_nil _

/-- What is logged before the closing words. -/
theorem records_runEach (ho : o.capacity = none) :
    (job.runEach o false single t cwd paths).records.dropLast
      = ((processEach job.rules job.mode t cwd paths).1.flatMap fun r =>
          (r.optimizerEvents job.rules).filterMap Event.record?)
        ++ (processEach job.rules job.mode t cwd paths).1.flatMap fun r =>
          (r.events job.library job.mode single).filterMap Event.record? := by
  by_cases hne : paths = []
  · rw [hne, runEach_nil]
    rfl
  · rw [runEach_of_ne ho hne]
    dsimp only
    rw [List.filterMap_append, List.filterMap_append, List.filterMap_flatMap,
      List.filterMap_flatMap]
    exact List.dropLast_concat

end

/-! ## Records -/

/-- The record of a path. -/
def recordOf (rules : Rules) (mode : Mode) (t : Tree) (cwd : Place) (path : Text) : Result :=
  (processFile rules mode t cwd path).1

/-- The content of the file that a path leads to, if it leads to one that can be read. -/
def Tree.content? (t : Tree) (cwd : Place) (path : Text) : Option Text :=
  (t.file? cwd path).map Prod.snd

/-- Does the path lead to a file that is not in order? -/
def Tree.disordered (t : Tree) (rules : Rules) (cwd : Place) (path : Text) : Bool :=
  match t.file? cwd path with
  | none => false
  | some (_, src) => optimizeFile rules src != src

/-- Does the handling of a path fail?  It does if there is no file to read, and in place if a file
    that is not in order cannot be written. -/
def Mode.fails (mode : Mode) (rules : Rules) (t : Tree) (cwd : Place) (path : Text) : Bool :=
  match t.file? cwd path with
  | none => true
  | some (p, src) =>
      mode == .inPlace && optimizeFile rules src != src && (t.writeFault? p).isSome

section

variable {lib : Diff.Library} {rules : Rules} {mode : Mode} {single colour : Bool} {t t' : Tree}
  {cwd : Place}
  {path : Text} {paths : List Text}

theorem recordOf_of_none (h : t.content? cwd path = none) :
    ∃ e : Failure, e.precedesReading = true ∧ ∀ rules mode,
      recordOf rules mode t cwd path = { path := path, failure := some e } := by
  obtain ⟨e, he, hresult⟩ := processFile_of_none (Option.map_eq_none_iff.1 h)
  exact ⟨e, he, fun rules mode => by rw [recordOf, hresult]⟩

/-- The record of a path to a file is the same in all modes, but for a failed writing. -/
theorem recordOf_of_file {p : Place} {s : Text} (h : t.file? cwd path = some (p, s)) :
    recordOf rules mode t cwd path
      = { Result.ofText rules path s with
          failure := if mode = .inPlace ∧ optimizeFile rules s ≠ s then
            (t.writeFault? p).map fun fault => .unwritableFile (fault.error path) else none } := by
  rw [recordOf, processFile_of_file h]
  split
  · rw [overwrite, Option.map_map]
    rfl
  · rfl

/-- Except in place, a file that is read is handled without failure. -/
theorem recordOf_of_content {s : Text} (hmode : mode ≠ .inPlace)
    (h : t.content? cwd path = some s) :
    recordOf rules mode t cwd path = Result.ofText rules path s := by
  obtain ⟨⟨p, s'⟩, hfile, rfl⟩ := Option.map_eq_some_iff.1 h
  rw [recordOf_of_file hfile, if_neg fun hwrite => hmode hwrite.1]
  rfl

theorem disordered_of_none (h : t.content? cwd path = none) :
    t.disordered rules cwd path = false := by
  rw [disordered, Option.map_eq_none_iff.1 h]

theorem disordered_of_content {s : Text} (h : t.content? cwd path = some s) :
    t.disordered rules cwd path = (Result.ofText rules path s).changed := by
  obtain ⟨⟨p, s'⟩, hfile, rfl⟩ := Option.map_eq_some_iff.1 h
  rw [disordered, hfile]
  rfl

theorem failure_recordOf :
    (recordOf rules mode t cwd path).failure.isSome = mode.fails rules t cwd path := by
  rw [Mode.fails]
  cases h : t.file? cwd path with
  | none =>
      obtain ⟨e, -, hrecord⟩ := recordOf_of_none (Option.map_eq_none_iff.2 h)
      rw [hrecord]
      rfl
  | some file =>
      obtain ⟨p, s⟩ := file
      rw [recordOf_of_file h]
      dsimp only
      by_cases hwrite : mode = .inPlace ∧ optimizeFile rules s ≠ s
      · rw [if_pos hwrite, Option.isSome_map, beq_iff_eq.2 hwrite.1, bne_iff_ne.2 hwrite.2]
        rfl
      · have hkeep : (mode == .inPlace && optimizeFile rules s != s) = false := by
          rw [Bool.and_eq_false_imp]
          exact fun hmode => bne_eq_false_iff_eq.2
            (not_not.1 fun hsame => hwrite ⟨beq_iff_eq.1 hmode, hsame⟩)
        rw [if_neg hwrite, hkeep]
        rfl

/-- A check counts the files that are not in order. -/
theorem counted_recordOf :
    (recordOf rules .check t cwd path).counted = t.disordered rules cwd path := by
  cases h : t.content? cwd path with
  | none =>
      obtain ⟨e, -, hrecord⟩ := recordOf_of_none h
      rw [hrecord, disordered_of_none h]
      rfl
  | some s =>
      rw [recordOf_of_content Mode.noConfusion h, disordered_of_content h]
      rfl

/-- Nothing is printed about a path that cannot be read. -/
theorem printed_of_none (h : t.content? cwd path = none) :
    ((recordOf rules mode t cwd path).events lib mode single).flatMap (Event.printed colour)
      = [] := by
  obtain ⟨e, -, hrecord⟩ := recordOf_of_none h
  rw [hrecord]
  rfl

theorem printed_check :
    ((recordOf rules .check t cwd path).events lib .check single).flatMap (Event.printed colour)
      = if t.disordered rules cwd path then path ++ [Text.newline] else [] := by
  cases h : t.content? cwd path with
  | none => rw [printed_of_none h, disordered_of_none h, if_neg Bool.false_ne_true]
  | some s =>
      rw [recordOf_of_content Mode.noConfusion h, disordered_of_content h]
      show (if (Result.ofText rules path s).changed = true then
        [Event.print .file { text := path ++ [Text.newline] }] else []).flatMap _ = _
      split
      · cases colour with
        | true => simp [Event.printed, Print.writes, Shade.code]
        | false => simp [Event.printed, Print.writes]
      · rfl

/-- The bytes of a patch line. -/
def Diff.PatchLine.printed (colour : Bool) (l : Diff.PatchLine) : Text :=
  (l.print.writes colour).flatMap Write.bytes

/-- The path that a patch line is the header of. -/
def Diff.PatchLine.header? : Diff.PatchLine → Option Text
  | .header path => some path
  | _ => none

theorem printed_diff :
    ((recordOf rules .diff t cwd path).events lib .diff single).flatMap (Event.printed colour)
      = if t.disordered rules cwd path then
          (Diff.patch lib path ((t.content? cwd path).getD [])
            (optimizeFile rules ((t.content? cwd path).getD []))).flatMap
              (Diff.PatchLine.printed colour)
        else [] := by
  cases h : t.content? cwd path with
  | none => rw [printed_of_none h, disordered_of_none h, if_neg Bool.false_ne_true]
  | some s =>
      rw [recordOf_of_content Mode.noConfusion h, disordered_of_content h]
      show (if (Result.ofText rules path s).changed = true then
        (Diff.patch lib path s (optimizeFile rules s)).map fun l => Event.print .diff l.print
        else []).flatMap _ = _
      split
      · rw [List.flatMap_map]
        rfl
      · rfl

/-- A patch has one header. -/
theorem header?_patch (lib : Diff.Library) (path before after : Text) :
    (Diff.patch lib path before after).filterMap Diff.PatchLine.header? = [path] := by
  have hhunks : ∀ (all : List Diff.Line) (ls : List (Diff.Line × Bool)) (i : Nat) (skipped : Bool),
      (Diff.hunks all i skipped ls).filterMap Diff.PatchLine.header? = [] := by
    intro all ls
    induction ls with
    | nil => exact fun _ _ => rfl
    | cons line ls ih =>
        obtain ⟨l, shown⟩ := line
        intro i skipped
        rw [Diff.hunks]
        split
        · rw [List.filterMap_append, List.filterMap_cons_none rfl, ih, List.append_nil]
          split
          · rfl
          · rfl
        · exact ih _ _
  rw [Diff.patch, Diff.patchLines, List.filterMap_cons, hhunks]
  rfl

/-- Handling a file that was read logs no error. -/
theorem level_of_outcome {r : Result} {event : Event} {log : Record}
    (hevent : event ∈ r.outcomeEvents lib mode single) (hlog : event.record? = some log) :
    log.level ≠ .error := by
  cases mode with
  | print =>
      rw [Result.outcomeEvents] at hevent
      split at hevent
      · rw [List.mem_singleton.1 hevent] at hlog
        cases hlog
      · split at hevent
        · rw [List.mem_singleton.1 hevent] at hlog
          cases hlog
          exact Level.noConfusion
        · cases hevent
  | inPlace =>
      rw [Result.outcomeEvents] at hevent
      split at hevent
      · rw [List.mem_singleton.1 hevent] at hlog
        cases hlog
        exact Level.noConfusion
      · rw [List.mem_singleton.1 hevent] at hlog
        cases hlog
        exact Level.noConfusion
  | diff =>
      rw [Result.outcomeEvents] at hevent
      split at hevent
      · obtain ⟨l, -, rfl⟩ := List.mem_map.1 hevent
        cases hlog
      · cases hevent
  | check =>
      rw [Result.outcomeEvents] at hevent
      split at hevent
      · rw [List.mem_singleton.1 hevent] at hlog
        cases hlog
      · cases hevent

/-! ## Paths that cannot be read -/

/-- The paths that lead to files that can be read. -/
def Tree.readablePaths (t : Tree) (cwd : Place) (paths : List Text) : List Text :=
  paths.filter fun path => (t.content? cwd path).isSome

/-- What is logged about the paths that cannot be read: nothing else fails in printing. -/
def Tree.complaints (t : Tree) (cwd : Place) (paths : List Text) : List Record :=
  paths.filterMap fun path =>
    let r := recordOf {} .print t cwd path
    r.failure.map r.complaint

/-- What is said about each path, if nothing is said about those that cannot be read, is
    said about those that can. -/
theorem flatMap_readablePaths {α : Type} {f : Text → List α}
    (h : ∀ path, t.content? cwd path = none → f path = []) :
    (t.readablePaths cwd paths).flatMap f = paths.flatMap f := by
  rw [readablePaths, flatMap_filter_eq]
  refine List.flatMap_congr fun path _ => ?_
  cases hpath : t.content? cwd path with
  | none => exact (h path hpath).symm
  | some s => rfl

/-- A complaint tells of a failure to read. -/
theorem mem_complaints {log : Record} (h : log ∈ t.complaints cwd paths) :
    ∃ (r : Result) (e : Failure), e.precedesReading = true ∧ log = r.complaint e := by
  obtain ⟨path, -, hlog⟩ := List.mem_filterMap.1 h
  cases hpath : t.content? cwd path with
  | none =>
      obtain ⟨e, he, hrecord⟩ := recordOf_of_none hpath
      rw [hrecord] at hlog
      exact ⟨_, e, he, (Option.some.inj hlog).symm⟩
  | some s =>
      rw [recordOf_of_content Mode.noConfusion hpath] at hlog
      cases hlog

/-- All modes complain alike. -/
theorem mem_complaints_of_none {log : Record} (hpath : path ∈ paths)
    (h : t.content? cwd path = none)
    (hlog : log ∈ ((recordOf rules mode t cwd path).events lib mode single).filterMap
      Event.record?) :
    log ∈ t.complaints cwd paths := by
  refine List.mem_filterMap.2 ⟨path, hpath, ?_⟩
  obtain ⟨e, -, hrecord⟩ := recordOf_of_none h
  rw [hrecord] at hlog ⊢
  rw [List.mem_singleton.1 hlog]
  rfl

/-- Complaints left out, only what can be read is logged about. -/
theorem filter_logged {f : Text → List Record}
    (hnone : ∀ path ∈ paths, t.content? cwd path = none →
      ∀ log ∈ f path, log ∈ t.complaints cwd paths)
    (hsome : ∀ path s, t.content? cwd path = some s →
      ∀ log ∈ f path, log ∉ t.complaints cwd paths) :
    (paths.flatMap f).filter (fun log => log ∉ t.complaints cwd paths)
      = (t.readablePaths cwd paths).flatMap f := by
  rw [List.filter_flatMap, readablePaths, flatMap_filter_eq]
  refine List.flatMap_congr fun path hmem => ?_
  cases hpath : t.content? cwd path with
  | none =>
      exact List.filter_eq_nil_iff.2 fun log hlog hkept =>
        of_decide_eq_true hkept (hnone path hmem hpath log hlog)
  | some s =>
      exact List.filter_eq_self.2 fun log hlog => decide_eq_true (hsome path s hpath log hlog)

/-- What is noted about a file is no complaint. -/
theorem note_not_mem_complaints {r : Result} {log : Record}
    (h : log ∈ (r.optimizerEvents rules).filterMap Event.record?) :
    log ∉ t.complaints cwd paths := by
  intro hmem
  obtain ⟨other, e, -, rfl⟩ := mem_complaints hmem
  obtain ⟨event, hevent, hlog⟩ := List.mem_filterMap.1 h
  rw [Result.optimizerEvents] at hevent
  split at hevent
  · obtain ⟨note, -, rfl⟩ := List.mem_map.1 hevent
    cases hlog
  · cases hevent

/-- A failure to write is told in other words than a failure to read. -/
theorem message_unwritableFile_ne {e : Failure} (he : e.precedesReading = true)
    (e' : PathError) : (Failure.unwritableFile e').message ≠ e.message := by
  intro heq
  have hstart := congrArg (List.take 11) heq
  cases e with
  | unreachableFile err =>
      rw [Failure.message, Failure.message, List.take_append_of_le_length (by decide),
        List.take_append_of_le_length (by decide)] at hstart
      exact absurd hstart (by decide)
  | unreadableFile err =>
      rw [Failure.message, Failure.message, List.take_append_of_le_length (by decide),
        List.take_append_of_le_length (by decide)] at hstart
      exact absurd hstart (by decide)
  | _ => cases he

/-- What is said about a file that was read is no complaint: it is no error, or one that tells of
    a failure to write. -/
theorem outcome_not_mem_complaints {s : Text} (hpath : t.content? cwd path = some s)
    {log : Record}
    (h : log ∈ ((recordOf rules mode t cwd path).events lib mode single).filterMap
      Event.record?) :
    log ∉ t.complaints cwd paths := by
  intro hmem
  obtain ⟨other, e, he, rfl⟩ := mem_complaints hmem
  obtain ⟨event, hevent, hlog⟩ := List.mem_filterMap.1 h
  obtain ⟨⟨p, s'⟩, hfile, rfl⟩ := Option.map_eq_some_iff.1 hpath
  rw [recordOf_of_file hfile, Result.events] at hevent
  split at hevent
  · rename_i failed hfailed
    dsimp only at hfailed
    split at hfailed
    · obtain ⟨fault, -, rfl⟩ := Option.map_eq_some_iff.1 hfailed
      rw [List.mem_singleton.1 hevent] at hlog
      have hfields := congrArg Record.fields (Option.some.inj hlog)
      simp only [Result.complaint, List.cons.injEq, Prod.mk.injEq, Record.Value.text.injEq]
        at hfields
      exact message_unwritableFile_ne he _ hfields.2.1.2
    · cases hfailed
  · exact level_of_outcome hevent hlog rfl

theorem filePlaces_readablePaths (h : (t.filePlaces cwd paths).Nodup) :
    (t.filePlaces cwd (t.readablePaths cwd paths)).Nodup :=
  h.sublist (List.filter_sublist.filterMap _)

theorem readablePaths_of_rewritten {f : Place → Text → Text} (h : Rewritten f t t') :
    t'.readablePaths cwd paths = t.readablePaths cwd paths := by
  refine List.filter_congr fun path _ => ?_
  rw [content?, content?, h.file?, Option.isSome_map, Option.isSome_map, Option.isSome_map]

/-- A path that cannot be read is passed over. -/
theorem snd_processEach_readablePaths :
    (processEach rules mode t cwd (t.readablePaths cwd paths)).2
      = (processEach rules mode t cwd paths).2 := by
  induction paths generalizing t with
  | nil => rfl
  | cons path rest ih =>
      cases hpath : t.content? cwd path with
      | none =>
          obtain ⟨e, -, hresult⟩ := processFile_of_none (Option.map_eq_none_iff.1 hpath)
          rw [readablePaths, List.filter_cons_of_neg (by simp [hpath]), processEach_cons, hresult]
          exact ih
      | some s =>
          have hstep := rewritten_processFile rules mode t cwd path
          rw [readablePaths, List.filter_cons_of_pos (by simp [hpath]), processEach_cons,
            processEach_cons]
          show (processEach rules mode _ cwd (t.readablePaths cwd rest)).2 = _
          rw [← readablePaths_of_rewritten hstep]
          exact ih

/-! ## Runs over distinct files -/

theorem map_recordOf (h : (t.filePlaces cwd paths).Nodup) :
    (processEach rules mode t cwd paths).1 = paths.map (recordOf rules mode t cwd) :=
  fst_processEach h

/-- After a run in place each path finds what the handling of its file left. -/
theorem content?_inPlace (h : (t.filePlaces cwd paths).Nodup) (hpath : path ∈ paths) :
    (processEach rules .inPlace t cwd paths).2.content? cwd path
      = (t.file? cwd path).map fun file => Mode.inPlace.stored rules t file.1 file.2 := by
  rw [content?, (rewritten_processEach rules .inPlace h).file?]
  cases hfile : t.file? cwd path with
  | none => rfl
  | some file =>
      obtain ⟨p, s⟩ := file
      show some (changeAt _ (t.filePlaces cwd paths) p s) = some (Mode.inPlace.stored rules t p s)
      rw [changeAt_of_mem (mem_filePlaces.2 ⟨path, hpath, s, hfile⟩)]

end

/-- The same job in another mode. -/
def Job.inMode (job : Job) (mode : Mode) : Job := { job with mode := mode }

@[simp] theorem Job.inMode_rules (job : Job) (mode : Mode) :
    (job.inMode mode).rules = job.rules := rfl

@[simp] theorem Job.inMode_library (job : Job) (mode : Mode) :
    (job.inMode mode).library = job.library := rfl

@[simp] theorem Job.inMode_mode (job : Job) (mode : Mode) : (job.inMode mode).mode = mode := rfl

/-- The paths that find another content after a run in place. -/
def Job.alteredPaths (job : Job) (o : Output) (single : Bool) (t : Tree) (cwd : Place)
    (paths : List Text) : List Text :=
  paths.filter fun path =>
    ((job.inMode .inPlace).runEach o false single t cwd paths).tree.content? cwd path
      ≠ t.content? cwd path

/-- The paths to files that are not in order. -/
def Job.disorderedPaths (job : Job) (t : Tree) (cwd : Place) (paths : List Text) : List Text :=
  paths.filter (t.disordered job.rules cwd)

/-- The patches that put these files in order. -/
def Job.patches (job : Job) (t : Tree) (cwd : Place) (paths : List Text) : List Diff.PatchLine :=
  (job.disorderedPaths t cwd paths).flatMap fun path =>
    let src := (t.content? cwd path).getD []
    Diff.patch job.library path src (optimizeFile job.rules src)

/-- Every file that is not in order can be written. -/
def Job.CanWrite (job : Job) (t : Tree) (cwd : Place) (paths : List Text) : Prop :=
  ∀ path ∈ paths, ∀ file ∈ t.file? cwd path, optimizeFile job.rules file.2 ≠ file.2 →
    t.writeFault? file.1 = none

section

variable {job : Job} {o : Output} {single : Bool} {t : Tree} {cwd : Place} {paths : List Text}

/-- The count of failures is that of the paths that cannot be read, if all that is to be written
    can be. -/
theorem countP_fails (hwrite : job.CanWrite t cwd paths) (mode : Mode) :
    paths.countP (mode.fails job.rules t cwd)
      = paths.countP fun path => (t.content? cwd path).isNone := by
  refine List.countP_congr fun path hpath => ?_
  rw [Mode.fails, content?, Option.isNone_map]
  cases hfile : t.file? cwd path with
  | none => rfl
  | some file =>
      obtain ⟨p, src⟩ := file
      by_cases hsame : optimizeFile job.rules src = src
      · simp [hsame]
      · simp [hwrite path hpath (p, src) hfile hsame]

variable (ho : o.capacity = none) (h : (t.filePlaces cwd paths).Nodup)

include ho h

/-- A path is altered if the handling of its file leaves another content. -/
theorem alteredPaths_eq_filter :
    job.alteredPaths o single t cwd paths
      = paths.filter fun path => (t.file? cwd path).any fun file =>
          Mode.inPlace.stored job.rules t file.1 file.2 != file.2 := by
  refine List.filter_congr fun path hpath => ?_
  have hafter : ((job.inMode .inPlace).runEach o false single t cwd paths).tree.content? cwd path
      = (t.file? cwd path).map fun file =>
          Mode.inPlace.stored job.rules t file.1 file.2 := by
    rw [tree_runEach ho]
    exact content?_inPlace h hpath
  simp only [hafter]
  rw [content?]
  cases t.file? cwd path with
  | none => rfl
  | some file => exact Bool.eq_iff_iff.2 (by simp)

/-- What a run in place alters was not in order. -/
theorem sublist_alteredPaths :
    (job.alteredPaths o single t cwd paths).Sublist (job.disorderedPaths t cwd paths) := by
  rw [alteredPaths_eq_filter ho h, Job.disorderedPaths]
  refine List.monotone_filter_right paths fun path haltered => ?_
  rw [disordered]
  cases hfile : t.file? cwd path with
  | none =>
      rw [hfile] at haltered
      cases haltered
  | some file =>
      obtain ⟨p, src⟩ := file
      rw [hfile] at haltered
      refine bne_iff_ne.2 fun hsame => bne_iff_ne.1 haltered ?_
      exact if_neg fun hwrite => hwrite.2 hsame

/-- All that was not in order is altered, if it can be written. -/
theorem alteredPaths_eq (hwrite : job.CanWrite t cwd paths) :
    job.alteredPaths o single t cwd paths = job.disorderedPaths t cwd paths := by
  rw [alteredPaths_eq_filter ho h, Job.disorderedPaths]
  refine List.filter_congr fun path hpath => ?_
  rw [disordered]
  cases hfile : t.file? cwd path with
  | none => rfl
  | some file =>
      obtain ⟨p, src⟩ := file
      show (Mode.inPlace.stored job.rules t p src != src) = (optimizeFile job.rules src != src)
      by_cases hsame : optimizeFile job.rules src = src
      · rw [Mode.stored, if_neg fun hchange => hchange.2 hsame, hsame]
      · rw [stored_inPlace_of_none (hwrite path hpath (p, src) hfile hsame)]

/-- A check prints the paths to the files that are not in order. -/
theorem out_check :
    ((job.inMode .check).runEach o false single t cwd paths).out
      = (job.disorderedPaths t cwd paths).flatMap fun path => path ++ [Text.newline] := by
  rw [out_runEach ho, Job.inMode_rules, Job.inMode_mode, map_recordOf h, List.flatMap_map,
    Job.disorderedPaths, flatMap_filter_eq]
  exact List.flatMap_congr fun path _ => printed_check

/-- Patches are printed for the same paths. -/
theorem out_diff :
    ((job.inMode .diff).runEach o false single t cwd paths).out
      = (job.patches t cwd paths).flatMap (Diff.PatchLine.printed o.colour) := by
  rw [out_runEach ho, Job.inMode_rules, Job.inMode_mode, map_recordOf h, List.flatMap_map,
    Job.patches, Job.disorderedPaths, List.flatMap_assoc, flatMap_filter_eq]
  exact List.flatMap_congr fun path _ => printed_diff

/-- Runs fail by the handlings that fail, or by what a check lists. -/
theorem failure_eq (mode : Mode) :
    ((job.inMode mode).runEach o false single t cwd paths).failure
      = if 0 < paths.countP (mode.fails job.rules t cwd) then
          some (.filesFailed (paths.countP (mode.fails job.rules t cwd)))
        else if mode = .check ∧ 0 < (job.disorderedPaths t cwd paths).length then
          some (.filesChanged (job.disorderedPaths t cwd paths).length)
        else none := by
  have hfailed : (paths.map (recordOf job.rules mode t cwd)).countP (fun r => r.failure.isSome)
      = paths.countP (mode.fails job.rules t cwd) := by
    rw [List.countP_map]
    refine List.countP_congr fun path _ => ?_
    rw [Function.comp_apply, failure_recordOf]
  have hcounted : (paths.map (recordOf job.rules .check t cwd)).countP Result.counted
      = (job.disorderedPaths t cwd paths).length := by
    rw [List.countP_map, Job.disorderedPaths, ← List.countP_eq_length_filter]
    refine List.countP_congr fun path _ => ?_
    rw [Function.comp_apply, counted_recordOf]
  rw [failure_runEach ho, Job.inMode_rules, Job.inMode_mode, map_recordOf h, verdict, hfailed]
  -- only a check looks at the second count
  by_cases hmode : mode = .check
  · rw [hmode, hcounted]
  · simp only [hmode, false_and, if_false]

/-- **A path that cannot be read alters nothing but the count of failures**: what is
    printed, what is written and what is logged about the others is what a run over the
    others alone prints, writes and logs.  Whether a lone file was named is told to both
    runs alike. -/
theorem runEach_readablePaths (mode : Mode) :
    ((job.inMode mode).runEach o false single t cwd (t.readablePaths cwd paths)).out
        = ((job.inMode mode).runEach o false single t cwd paths).out
      ∧ ((job.inMode mode).runEach o false single t cwd (t.readablePaths cwd paths)).tree
        = ((job.inMode mode).runEach o false single t cwd paths).tree
      ∧ ((job.inMode mode).runEach o false single t cwd
          (t.readablePaths cwd paths)).records.dropLast
        = ((job.inMode mode).runEach o false single t cwd paths).records.dropLast.filter
            fun log => log ∉ t.complaints cwd paths := by
  refine ⟨?_, ?_, ?_⟩
  · rw [out_runEach ho, out_runEach ho, Job.inMode_rules, Job.inMode_mode, map_recordOf h,
      map_recordOf (filePlaces_readablePaths h), List.flatMap_map, List.flatMap_map]
    exact flatMap_readablePaths fun path hpath => printed_of_none hpath
  · rw [tree_runEach ho, tree_runEach ho, snd_processEach_readablePaths]
  · -- notes are made of what was read
    have hnotes : (paths.flatMap fun path =>
          ((recordOf job.rules mode t cwd path).optimizerEvents job.rules).filterMap
            Event.record?).filter (fun log => log ∉ t.complaints cwd paths)
        = (t.readablePaths cwd paths).flatMap fun path =>
          ((recordOf job.rules mode t cwd path).optimizerEvents job.rules).filterMap
            Event.record? := by
      refine filter_logged (fun path _ hpath log hlog => ?_) fun path s _ log hlog =>
        note_not_mem_complaints hlog
      obtain ⟨e, he, hrecord⟩ := recordOf_of_none hpath
      rw [hrecord] at hlog
      cases e with
      | unreachableFile err => cases hlog
      | unreadableFile err => cases hlog
      | _ => cases he
    have houtcomes : (paths.flatMap fun path =>
          ((recordOf job.rules mode t cwd path).events job.library mode single).filterMap
            Event.record?).filter (fun log => log ∉ t.complaints cwd paths)
        = (t.readablePaths cwd paths).flatMap fun path =>
          ((recordOf job.rules mode t cwd path).events job.library mode single).filterMap
            Event.record? :=
      filter_logged (fun path hmem hpath log hlog => mem_complaints_of_none hmem hpath hlog)
        fun path s hpath log hlog => outcome_not_mem_complaints hpath hlog
    rw [records_runEach ho, records_runEach ho, Job.inMode_rules, Job.inMode_mode,
      Job.inMode_library, map_recordOf h, map_recordOf (filePlaces_readablePaths h),
      List.flatMap_map, List.flatMap_map, List.flatMap_map, List.flatMap_map, List.filter_append,
      hnotes, houtcomes]

end

/-- **The modes agree on what changes.**  Take paths that lead to distinct files and an output
    that takes all writes.

    A check prints the paths whose files are not in order, each on a line and in order; patches
    are printed for the same paths, each with one header.  In no mode does a path that cannot
    be read alter what is done and said about the others.  A run fails by the number of paths
    whose handling fails, or else, as a check, by the number of paths it lists.

    A run in place alters no path that is not listed.  If every file that is not in order can
    be written, it alters exactly the listed ones, and in every mode the paths whose handling
    fails are those that cannot be read. -/
theorem modes_agree (job : Job) (o : Output) (single : Bool) (t : Tree) (cwd : Place)
    (paths : List Text) (hwriter : o.capacity = none)
    (hdistinct : (t.filePlaces cwd paths).Nodup) :
    ((job.inMode .check).runEach o false single t cwd paths).out
        = (job.disorderedPaths t cwd paths).flatMap (fun path => path ++ [Text.newline])
      ∧ ((job.inMode .diff).runEach o false single t cwd paths).out
        = (job.patches t cwd paths).flatMap (Diff.PatchLine.printed o.colour)
      ∧ (job.patches t cwd paths).filterMap Diff.PatchLine.header?
        = job.disorderedPaths t cwd paths
      ∧ (∀ mode : Mode,
        ((job.inMode mode).runEach o false single t cwd (t.readablePaths cwd paths)).out
            = ((job.inMode mode).runEach o false single t cwd paths).out
          ∧ ((job.inMode mode).runEach o false single t cwd (t.readablePaths cwd paths)).tree
            = ((job.inMode mode).runEach o false single t cwd paths).tree
          ∧ ((job.inMode mode).runEach o false single t cwd
              (t.readablePaths cwd paths)).records.dropLast
            = ((job.inMode mode).runEach o false single t cwd paths).records.dropLast.filter
                fun log => log ∉ t.complaints cwd paths)
      ∧ (∀ mode : Mode, ((job.inMode mode).runEach o false single t cwd paths).failure
        = if 0 < paths.countP (mode.fails job.rules t cwd) then
            some (.filesFailed (paths.countP (mode.fails job.rules t cwd)))
          else if mode = .check ∧ 0 < (job.disorderedPaths t cwd paths).length then
            some (.filesChanged (job.disorderedPaths t cwd paths).length)
          else none)
      ∧ (job.alteredPaths o single t cwd paths).Sublist (job.disorderedPaths t cwd paths)
      ∧ (job.CanWrite t cwd paths →
        job.alteredPaths o single t cwd paths = job.disorderedPaths t cwd paths
          ∧ ∀ mode : Mode, paths.countP (mode.fails job.rules t cwd)
            = paths.countP fun path => (t.content? cwd path).isNone) := by
  refine ⟨out_check hwriter hdistinct, out_diff hwriter hdistinct, ?_,
    runEach_readablePaths hwriter hdistinct, failure_eq hwriter hdistinct,
    sublist_alteredPaths hwriter hdistinct,
    fun hwrite => ⟨alteredPaths_eq hwriter hdistinct hwrite, countP_fails hwrite⟩⟩
  rw [Job.patches, List.filterMap_flatMap]
  simp only [header?_patch]
  exact List.flatMap_singleton' _

/-- A file that cannot be written is listed, and one more failure in place. -/
theorem modes_agree_sampleTree :
    (({} : Job).inMode .check |>.runEach {} false false sampleTree [] samplePaths).out
        = text "a.js\nlib/.././lib/c.js\nlib/h.js\n"
      ∧ (({} : Job).inMode .check |>.runEach {} false false sampleTree [] samplePaths).failure
        = some (.filesFailed 4)
      ∧ (({} : Job).inMode .inPlace |>.runEach {} false false sampleTree [] samplePaths).failure
        = some (.filesFailed 5)
      ∧ ({} : Job).alteredPaths {} false sampleTree [] samplePaths.dropLast
        = [text "a.js", text "lib/.././lib/c.js"] := by
  obtain ⟨hcheck, -, -, -, hfailure, -, -⟩ :=
    modes_agree {} {} false sampleTree [] samplePaths rfl (by decide +kernel)
  obtain ⟨-, -, -, -, -, -, hwritten⟩ :=
    modes_agree {} {} false sampleTree [] samplePaths.dropLast rfl (by decide +kernel)
  refine ⟨?_, ?_, ?_, ?_⟩
  · rw [hcheck]
    decide +kernel
  · rw [hfailure .check]
    decide +kernel
  · rw [hfailure .inPlace]
    decide +kernel
  · rw [(hwritten (by rw [Job.CanWrite]; decide +kernel)).1]
    decide +kernel

end ImportBlock
