import Mathlib
import ImportBlock.Proofs.Output
import ImportBlock.Run.Basic

/-! # An output that fails

    A run writes to an output that may stop taking writes at any moment.  Whatever the mode, and
    wherever it stops, only the tail of what was to be written is lost: the files are handled
    before anything is said about them, every print is checked, and the first one that fails
    ends the run with the failure of the output.

    `LosesTail` says this of a run as a function of the number of writes that the output takes.
    It holds of everything that is concluded by saying some events, `losesTail_conclude`, and of
    what writes nothing, `losesTail_silent`; a run is one or the other, so
    `failing_output_loses_tail`. -/

namespace ImportBlock

/-! ## What is written -/

/-- What the prints of a mode are part of. -/
def Mode.purpose : Mode → Purpose
  | .diff => .diff
  | _ => .file

/-- What is written about a file that was read, a text for each write: the file itself if a
    lone one is printed, the lines of its patch, or its path. -/
def Result.outcomeWrites (lib : Diff.Library) (mode : Mode) (single : Bool) (r : Result) :
    List Text :=
  match mode with
  | .print => if single then [r.after] else []
  | .inPlace => []
  | .diff =>
      if r.changed then (Diff.patch lib r.path r.before r.after).map Diff.PatchLine.render else []
  | .check => if r.changed then [r.path ++ [Text.newline]] else []

/-- What is written about a file: nothing if its handling failed. -/
def Result.writes (lib : Diff.Library) (mode : Mode) (single : Bool) (r : Result) : List Text :=
  if r.failure.isSome then [] else r.outcomeWrites lib mode single

/-- The writes of a run over files. -/
def Job.fileWrites (job : Job) (cancelled : Bool) (t : Tree) (cwd : Place) (paths : List Text) :
    List Text :=
  if cancelled then []
  else (processEach job.rules job.mode t cwd paths).1.flatMap
    (Result.writes job.library job.mode (paths.length = 1))

/-- The writes of a run over a text that is read from elsewhere. -/
def Job.readerWrites (job : Job) (name : Text) : Except Text Text → List Text
  | .error _ => []
  | .ok src => (Result.ofText job.rules name src).outcomeWrites job.library job.mode true

section

variable {lib : Diff.Library} {mode : Mode} {single : Bool} {r : Result} {rules : Rules}

theorem printedTexts_append (es fs : List Event) :
    printedTexts (es ++ fs) = printedTexts es ++ printedTexts fs := List.filterMap_append

theorem printedTexts_flatMap {α : Type} (f : α → List Event) (as : List α) :
    printedTexts (as.flatMap f) = as.flatMap fun a => printedTexts (f a) :=
  List.filterMap_flatMap

theorem printedTexts_notes (rules : Rules) (r : Result) :
    printedTexts (r.optimizerEvents rules) = [] := by
  rw [Result.optimizerEvents]
  split
  · rw [printedTexts, List.filterMap_map]
    exact List.filterMap_eq_nil_iff.2 fun _ _ => rfl
  · rfl

/-- **What is printed about a file is what is written.** -/
theorem printedTexts_outcome (lib : Diff.Library) (mode : Mode) (single : Bool) (r : Result) :
    printedTexts (r.outcomeEvents lib mode single) = r.outcomeWrites lib mode single := by
  rw [Result.outcomeWrites.eq_def, Result.outcomeEvents.eq_def]
  cases mode with
  | print =>
      dsimp only
      split
      · rfl
      · split
        · rfl
        · rfl
  | inPlace =>
      dsimp only
      split
      · rfl
      · rfl
  | diff =>
      dsimp only
      split
      · show List.filterMap _ (List.map _ _) = _
        rw [List.filterMap_map, ← List.filterMap_eq_map]
        rfl
      · rfl
  | check =>
      dsimp only
      split
      · rfl
      · rfl

theorem printedTexts_events (lib : Diff.Library) (mode : Mode) (single : Bool) (r : Result) :
    printedTexts (r.events lib mode single) = r.writes lib mode single := by
  rw [Result.events, Result.writes]
  cases r.failure with
  | none => exact printedTexts_outcome lib mode single r
  | some e => rfl

theorem for_of_mem_notes {purpose : Purpose} {e : Event} (h : e ∈ r.optimizerEvents rules) :
    e.For purpose := by
  rw [Result.optimizerEvents] at h
  split at h
  · obtain ⟨note, -, rfl⟩ := List.mem_map.1 h
    trivial
  · cases h

/-- In one mode all prints are part of the same thing. -/
theorem for_of_mem_outcome {e : Event} (h : e ∈ r.outcomeEvents lib mode single) :
    e.For mode.purpose := by
  cases mode with
  | print =>
      rw [Result.outcomeEvents] at h
      split at h
      · rw [List.mem_singleton.1 h]
        rfl
      · split at h
        · rw [List.mem_singleton.1 h]
          trivial
        · cases h
  | inPlace =>
      rw [Result.outcomeEvents] at h
      split at h
      · rw [List.mem_singleton.1 h]
        trivial
      · rw [List.mem_singleton.1 h]
        trivial
  | diff =>
      rw [Result.outcomeEvents] at h
      split at h
      · obtain ⟨l, -, rfl⟩ := List.mem_map.1 h
        rfl
      · cases h
  | check =>
      rw [Result.outcomeEvents] at h
      split at h
      · rw [List.mem_singleton.1 h]
        rfl
      · cases h

theorem for_of_mem_events {e : Event} (h : e ∈ r.events lib mode single) : e.For mode.purpose := by
  rw [Result.events] at h
  split at h
  · rw [List.mem_singleton.1 h]
    trivial
  · exact for_of_mem_outcome h

end

/-! ## Losing the tail -/

/-- A run, given the number of writes that its output takes, loses only the tail of what it
    writes without a limit: it writes as much as the output takes, leaves the tree that it
    leaves without a limit, and either fails with the failure of the output or is the same in
    all respects. -/
structure LosesTail (run : Capacity → Outcome) (writes : List Text) (failure : Failure) :
    Prop where
  unlimited : (run none).out = writes.flatten
  out : ∀ n, (run (some n)).out = (writes.take n).flatten
  tree : ∀ n, (run (some n)).tree = (run none).tree
  failed : ∀ n, n < writes.length → (run (some n)).failure = some failure
  same : ∀ n, writes.length ≤ n → run (some n) = run none

theorem losesTail_silent {outcome : Outcome} (hout : outcome.out = []) (failure : Failure) :
    LosesTail (fun _ => outcome) [] failure where
  unlimited := hout
  out := by
    intro n
    rw [List.take_nil]
    exact hout
  tree := fun _ => rfl
  failed := fun n hn => absurd hn (Nat.not_lt_zero n)
  same := fun _ _ => rfl

theorem losesTail_conclude (t : Tree) (events : List Event) (verdict : Option Failure)
    {purpose : Purpose} (reason : Text) (hfor : ∀ e ∈ events, e.For purpose) :
    LosesTail (fun c => Output.conclude { capacity := c, reason := reason } t events verdict)
      (printedTexts events) (.write purpose reason) where
  unlimited := out_deliver_none events
  out := fun n => out_deliver_some n events
  tree := fun _ => rfl
  failed := by
    intro n hn
    have hfailed := failed_deliver_some hfor hn
    simp only [Output.conclude, hfailed]
  same := by
    intro n hn
    simp only [Output.conclude, deliver_enough hn]

/-! ## Runs -/

/-- Everything that a run over files has to say about its results. -/
def Job.fileEvents (job : Job) (single : Bool) (rs : List Result) : List Event :=
  rs.flatMap (Result.optimizerEvents job.rules)
    ++ rs.flatMap (Result.events job.library job.mode single) ++ [summary rs]

theorem printedTexts_fileEvents (job : Job) (single : Bool) (rs : List Result) :
    printedTexts (job.fileEvents single rs)
      = rs.flatMap (Result.writes job.library job.mode single) := by
  rw [Job.fileEvents, printedTexts_append, printedTexts_append, printedTexts_flatMap,
    printedTexts_flatMap]
  simp only [printedTexts_notes, printedTexts_events]
  rw [List.flatMap_eq_nil_iff.2 fun _ _ => rfl, List.nil_append]
  exact List.append_nil _

theorem for_of_mem_fileEvents {job : Job} {single : Bool} {rs : List Result} {e : Event}
    (h : e ∈ job.fileEvents single rs) : e.For job.mode.purpose := by
  rcases List.mem_append.1 h with h | h
  · rcases List.mem_append.1 h with h | h
    · obtain ⟨r, -, hr⟩ := List.mem_flatMap.1 h
      exact for_of_mem_notes hr
    · obtain ⟨r, -, hr⟩ := List.mem_flatMap.1 h
      exact for_of_mem_events hr
  · rw [List.mem_singleton.1 h]
    trivial

/-- Everything that a run over a text has to say about its result. -/
def Job.readerEvents (job : Job) (r : Result) : List Event :=
  r.optimizerEvents job.rules ++ r.outcomeEvents job.library job.mode true

theorem printedTexts_readerEvents (job : Job) (r : Result) :
    printedTexts (job.readerEvents r) = r.outcomeWrites job.library job.mode true := by
  rw [Job.readerEvents, printedTexts_append, printedTexts_notes, printedTexts_outcome]
  rfl

theorem for_of_mem_readerEvents {job : Job} {r : Result} {e : Event}
    (h : e ∈ job.readerEvents r) : e.For job.mode.purpose := by
  rcases List.mem_append.1 h with h | h
  · exact for_of_mem_notes h
  · exact for_of_mem_outcome h

/-- A run over files that was not called off handles them all and then says what it has to. -/
theorem runEach_eq_conclude (job : Job) (o : Output) (single : Bool) (t : Tree) (cwd : Place)
    {paths : List Text} (hpaths : paths ≠ []) :
    job.runEach o false single t cwd paths
      = o.conclude (processEach job.rules job.mode t cwd paths).2
          (job.fileEvents single (processEach job.rules job.mode t cwd paths).1)
          (verdict job.mode (processEach job.rules job.mode t cwd paths).1) := by
  rw [Job.runEach, if_neg hpaths, if_neg Bool.false_ne_true]
  rfl

theorem losesTail_runFiles (job : Job) (cancelled : Bool) (t : Tree) (cwd : Place)
    (paths : List Text) (reason : Text) :
    LosesTail (fun c => job.runFiles { capacity := c, reason := reason } cancelled t cwd paths)
      (job.fileWrites cancelled t cwd paths) (.write job.mode.purpose reason) := by
  by_cases hpaths : paths = []
  · subst hpaths
    have hnone : job.fileWrites cancelled t cwd [] = [] := by
      cases cancelled with
      | true => rfl
      | false => rfl
    rw [hnone]
    exact losesTail_silent rfl _
  · cases cancelled with
    | true =>
        have hrun : (fun c => job.runFiles { capacity := c, reason := reason } true t cwd paths)
            = fun _ => { tree := t, failure := some .cancelled } := by
          funext c
          rw [Job.runFiles, Job.runEach, if_neg hpaths, if_pos rfl]
        rw [hrun]
        exact losesTail_silent rfl _
    | false =>
        have hrun := losesTail_conclude (processEach job.rules job.mode t cwd paths).2
          (job.fileEvents (paths.length = 1) (processEach job.rules job.mode t cwd paths).1)
          (verdict job.mode (processEach job.rules job.mode t cwd paths).1) reason
          fun e he => for_of_mem_fileEvents he
        rw [printedTexts_fileEvents] at hrun
        simp only [Job.runFiles, runEach_eq_conclude job _ _ t cwd hpaths]
        exact hrun

theorem losesTail_runReader (job : Job) (t : Tree) (name : Text) (input : Except Text Text)
    (reason : Text) :
    LosesTail (fun c => job.runReader { capacity := c, reason := reason } t name input)
      (job.readerWrites name input) (.write job.mode.purpose reason) := by
  by_cases hmode : job.mode = .inPlace
  · have hnone : job.readerWrites name input = [] := by
      cases input with
      | error fault => rfl
      | ok src =>
          rw [Job.readerWrites, hmode]
          rfl
    have hrun : (fun c => job.runReader { capacity := c, reason := reason } t name input)
        = fun _ => { tree := t, failure := some .inPlaceStdin } := by
      funext c
      exact if_pos hmode
    rw [hnone, hrun]
    exact losesTail_silent rfl _
  · simp only [Job.runReader, if_neg hmode]
    cases input with
    | error fault => exact losesTail_silent rfl _
    | ok src =>
        have hrun := losesTail_conclude t
          (job.readerEvents (Result.ofText job.rules name src))
          (verdict job.mode [Result.ofText job.rules name src]) reason
          fun e he => for_of_mem_readerEvents he
        rw [printedTexts_readerEvents] at hrun
        exact hrun

/-- **A failing output loses only the tail.**  Let a run over files, or over a text that is read
    from elsewhere, print without colour to an output that takes some writes and refuses all
    later ones with a reason.  What arrives is the first of the writes that the run makes
    without a limit, as many as the output takes; the tree is left as without a limit; and the
    run fails with the reason of the output if there are more writes than it takes, and is the
    same as without a limit otherwise. -/
theorem failing_output_loses_tail (job : Job) (cancelled : Bool) (t : Tree) (cwd : Place)
    (paths : List Text) (name : Text) (input : Except Text Text) (reason : Text) :
    LosesTail (fun c => job.runFiles { capacity := c, reason := reason } cancelled t cwd paths)
        (job.fileWrites cancelled t cwd paths) (.write job.mode.purpose reason)
      ∧ LosesTail (fun c => job.runReader { capacity := c, reason := reason } t name input)
        (job.readerWrites name input) (.write job.mode.purpose reason)
      ∧ ∃ words, (Failure.write job.mode.purpose reason).message = words ++ reason := by
  refine ⟨losesTail_runFiles job cancelled t cwd paths reason,
    losesTail_runReader job t name input reason, ?_⟩
  cases job.mode.purpose with
  | file => exact ⟨text "failed to write file: ", rfl⟩
  | diff => exact ⟨text "failed to write diff: ", rfl⟩

end ImportBlock
