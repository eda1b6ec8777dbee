import Mathlib
import ImportBlock.Proofs.Run.CutShort
import ImportBlock.Proofs.Run.Modes

/-! # Standard input and a named file

    A text that is read from elsewhere is handled by one driver, a list of files by another.
    For a lone file with the same name and the same text they print the same and fail the same,
    wherever the output stops taking writes and whether or not it shows colours:
    `reader_like_named_file`.

    Both say the same events about the same result, `fileEvents_singleton`, but the run over
    files has closing words.  These are logged and not printed, so they neither reach the output
    nor make it fail, `deliver_concat_log`. -/

namespace ImportBlock

/-- About a lone file that was read a run over files says what a run over its text says, and
    then its closing words. -/
theorem fileEvents_singleton (job : Job) {r : Result} (hr : r.failure = none) :
    job.fileEvents true [r] = job.readerEvents r ++ [summary [r]] := by
  have hevents : r.events job.library job.mode true
      = r.outcomeEvents job.library job.mode true := by
    rw [Result.events, hr]
  rw [Job.fileEvents, Job.readerEvents, List.flatMap_singleton, List.flatMap_singleton, hevents]

/-- Closing words change nothing but the log. -/
theorem conclude_concat_log (o : Output) (t t' : Tree) (events : List Event) (log : Record)
    (verdict : Option Failure) :
    (o.conclude t (events ++ [.log log]) verdict).out = (o.conclude t' events verdict).out
      ∧ (o.conclude t (events ++ [.log log]) verdict).failure
        = (o.conclude t' events verdict).failure
      ∧ (o.conclude t' events verdict).records
        <+: (o.conclude t (events ++ [.log log]) verdict).records := by
  simp only [Output.conclude, deliver_concat_log]
  exact ⟨trivial, trivial, List.prefix_append _ _⟩

/-- A run over one file that can be read handles that file. -/
theorem processEach_singleton {rules : Rules} {mode : Mode} {t : Tree} {cwd : Place}
    {path src : Text} (hmode : mode ≠ .inPlace) (hfile : t.content? cwd path = some src) :
    processEach rules mode t cwd [path] = ([Result.ofText rules path src], t) := by
  obtain ⟨⟨p, s⟩, hfound, rfl⟩ := Option.map_eq_some_iff.1 hfile
  rw [processEach_cons, processFile_of_file hfound, if_neg fun hwrite => hmode hwrite.1]
  rfl

/-- **Standard input and a named file are treated alike.**  Except in place, a run over a text
    that is read under a name prints the same and fails with the same failure, and so with the
    same message, as a run over the one path of that name, in a tree where it leads to a file
    with that text.  Neither changes the tree, and what the first one logs the second one logs
    too, before its closing words. -/
theorem reader_like_named_file (job : Job) (o : Output) (t t' : Tree) (cwd : Place)
    (path src : Text) (hmode : job.mode ≠ .inPlace) (hfile : t.content? cwd path = some src) :
    let read := job.runReader o t' path (.ok src)
    let named := job.runFiles o false t cwd [path]
    read.out = named.out ∧ read.failure = named.failure
      ∧ read.tree = t' ∧ named.tree = t ∧ read.records <+: named.records := by
  intro read named
  have hread : read = o.conclude t' (job.readerEvents (Result.ofText job.rules path src))
      (verdict job.mode [Result.ofText job.rules path src]) := if_neg hmode
  have hnamed : named
      = o.conclude t (job.readerEvents (Result.ofText job.rules path src)
          ++ [summary [Result.ofText job.rules path src]])
        (verdict job.mode [Result.ofText job.rules path src]) := by
    rw [← fileEvents_singleton job rfl]
    show job.runEach o false true t cwd [path] = _
    rw [runEach_eq_conclude job o true t cwd (List.cons_ne_nil _ _),
      processEach_singleton hmode hfile]
  obtain ⟨hout, hfailure, hrecords⟩ := conclude_concat_log o t t'
    (job.readerEvents (Result.ofText job.rules path src)) _
    (verdict job.mode [Result.ofText job.rules path src])
  rw [hread, hnamed]
  exact ⟨hout.symm, hfailure.symm, rfl, rfl, hrecords⟩

/-- A coloured patch on an output that takes four writes: the header is written, and the first
    deleted line fails with its colour code already out. -/
theorem reader_like_named_file_cutPatch :
    let job : Job := { mode := .diff }
    let o : Output := { colour := true, capacity := some 4, reason := text "disk full" }
    let named := job.runFiles o false sampleTree [] [text "lib/.././lib/c.js"]
    named.failure = some (.write .diff (text "disk full"))
      ∧ named.out = (job.runReader o {} (text "lib/.././lib/c.js")
        (.ok (text "import d from \"d\"\nrun();\n"))).out := by
  intro job o named
  obtain ⟨hout, hfailure, -⟩ := reader_like_named_file job o sampleTree {} []
    (text "lib/.././lib/c.js") (text "import d from \"d\"\nrun();\n") (by decide)
    (by decide +kernel)
  refine ⟨?_, hout.symm⟩
  rw [← hfailure]
  decide +kernel

end ImportBlock
