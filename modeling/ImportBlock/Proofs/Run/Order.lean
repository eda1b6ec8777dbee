import Mathlib
import ImportBlock.Proofs.Files.Rewriting
import ImportBlock.Run.Result

/-! # Files in any order

    The files of a run may be handled in any order.  Handling a file looks at what its path
    leads to and, in place, changes the content at that place, also when the writing fails.
    So handling one file leaves every other path as it was (`rewritten_processFile`,
    `resolve_after_first`), and by induction a run over distinct files gives for each path
    the record that the path gives alone (`fst_processEach`) and a tree in which each of
    these files, and nothing else, is rewritten (`rewritten_processEach`).  Neither depends
    on the order. -/

namespace ImportBlock

open ImportBlock.Tree

/-- Is it a failure to read a file, and not one of what comes then? -/
def Failure.precedesReading : Failure → Bool
  | .unreachableFile _ | .unreadableFile _ => true
  | _ => false

/-- What a file holds after it was handled: in place what the writing leaves, and what it held
    if there is nothing to write. -/
def Mode.stored (mode : Mode) (rules : Rules) (t : Tree) (p : Place) (src : Text) : Text :=
  if mode = .inPlace ∧ optimizeFile rules src ≠ src then
    (t.stored? p (optimizeFile rules src)).getD src
  else src

section

variable {rules : Rules} {mode : Mode} {t t' : Tree} {cwd : Place} {path : Text}

theorem stored_inPlace_of_none {p : Place} {src : Text} (h : t.writeFault? p = none) :
    Mode.inPlace.stored rules t p src = optimizeFile rules src := by
  rw [Mode.stored, stored?, h]
  by_cases hsame : optimizeFile rules src = src
  · rw [if_neg fun hwrite => hwrite.2 hsame, hsame]
  · exact if_pos ⟨rfl, hsame⟩

theorem stored_inPlace_of_some {p : Place} {src : Text} {fault : WriteFault}
    (h : t.writeFault? p = some fault) :
    Mode.inPlace.stored rules t p src
      = if optimizeFile rules src = src then src
        else (fault.left? (optimizeFile rules src)).getD src := by
  rw [Mode.stored, stored?, h]
  by_cases hsame : optimizeFile rules src = src
  · rw [if_neg fun hwrite => hwrite.2 hsame, if_pos hsame]
  · rw [if_pos ⟨rfl, hsame⟩, if_neg hsame]

theorem Mode.stored_of_rewritten {f : Place → Text → Text} (h : Rewritten f t t') :
    mode.stored rules t' = mode.stored rules t := by
  funext p src
  rw [Mode.stored, Mode.stored, h.stored?]

/-! ## One file -/

theorem changed_ofText (rules : Rules) (path src : Text) :
    (Result.ofText rules path src).changed = true ↔ optimizeFile rules src ≠ src := bne_iff_ne

theorem processFile_of_file {p : Place} {s : Text} (h : t.file? cwd path = some (p, s)) :
    processFile rules mode t cwd path
      = if mode = .inPlace ∧ optimizeFile rules s ≠ s then
          ({ Result.ofText rules path s with
              failure := (t.overwrite path p (optimizeFile rules s)).1.map .unwritableFile },
            (t.overwrite path p (optimizeFile rules s)).2)
        else (Result.ofText rules path s, t) := by
  obtain ⟨hfound, hfault⟩ := file?_eq_some_iff.1 h
  rw [processFile, hfound]
  dsimp only
  rw [read_eq_ok_iff.2 ⟨rfl, hfault⟩]
  simp only [changed_ofText]
  rfl

/-- A path that leads to no file that can be read fails in the same way in all modes. -/
theorem processFile_of_none (h : t.file? cwd path = none) :
    ∃ e : Failure, e.precedesReading = true ∧ ∀ rules mode,
      processFile rules mode t cwd path = ({ path := path, failure := some e }, t) := by
  simp only [processFile]
  rw [file?] at h
  cases hfound : t.resolve cwd path with
  | error fault => exact ⟨_, rfl, fun _ _ => rfl⟩
  | ok found =>
      obtain ⟨p, e⟩ := found
      dsimp only
      cases hread : t.read path p e with
      | error err => exact ⟨.unreadableFile err, rfl, fun _ _ => rfl⟩
      | ok s =>
          rw [hfound] at h
          dsimp only at h
          rw [hread] at h
          cases h

/-- A writing, failed or not, changes the content of the one file. -/
theorem rewritten_overwrite {p : Place} {s content : Text} (hp : t.get? p = some (.file s))
    {change : Place → Text → Text} (hchange : change p s = (t.stored? p content).getD s) :
    Rewritten (changeAt change [p]) t (t.overwrite path p content).2 := by
  rw [overwrite]
  dsimp only
  cases hstored : t.stored? p content with
  | none =>
      rw [hstored] at hchange
      exact rewritten_unchanged hp hchange
  | some left =>
      rw [hstored] at hchange
      have hput := rewritten_put hp change
      rw [hchange] at hput
      exact hput

/-- **Handling a file changes that file only**, and only in place. -/
theorem rewritten_processFile (rules : Rules) (mode : Mode) (t : Tree) (cwd : Place)
    (path : Text) :
    Rewritten (changeAt (mode.stored rules t) (t.filePlaces cwd [path])) t
      (processFile rules mode t cwd path).2 := by
  cases hfile : t.file? cwd path with
  | none =>
      obtain ⟨e, -, hresult⟩ := processFile_of_none hfile
      have hplaces : t.filePlaces cwd [path] = [] := by simp [filePlaces, hfile]
      rw [hresult, hplaces]
      exact .of_eq fun q s _ => changeAt_of_not_mem List.not_mem_nil s
  | some file =>
      obtain ⟨p, s⟩ := file
      have hplaces : t.filePlaces cwd [path] = [p] := by simp [filePlaces, hfile]
      have hp := get?_of_file? hfile
      rw [processFile_of_file hfile, hplaces]
      split
      · rename_i hwrite
        show Rewritten _ t (t.overwrite path p (optimizeFile rules s)).2
        exact rewritten_overwrite hp (if_pos hwrite)
      · rename_i hkeep
        exact rewritten_unchanged hp (if_neg hkeep)

/-- A record depends on nothing but what the path leads to, and on what can be read or written
    there. -/
theorem Tree.Rewritten.processFile_fst {f : Place → Text → Text} (h : Rewritten f t t')
    (hpath : t'.resolve cwd path = t.resolve cwd path) :
    (processFile rules mode t' cwd path).1 = (processFile rules mode t cwd path).1 := by
  have hwrite : ∀ p content, (t'.overwrite path p content).1 = (t.overwrite path p content).1 := by
    intro p content
    rw [overwrite, overwrite, h.writeFault?]
  rw [processFile, processFile, hpath]
  cases t.resolve cwd path with
  | error fault => rfl
  | ok found =>
      obtain ⟨p, e⟩ := found
      dsimp only
      rw [h.read_eq]
      cases t.read path p e with
      | error err => rfl
      | ok s =>
          dsimp only
          rw [apply_ite Prod.fst, apply_ite Prod.fst, hwrite]

/-! ## A run -/

theorem processEach_cons (rules : Rules) (mode : Mode) (t : Tree) (cwd : Place) (path : Text)
    (rest : List Text) :
    processEach rules mode t cwd (path :: rest)
      = ((processFile rules mode t cwd path).1
          :: (processEach rules mode (processFile rules mode t cwd path).2 cwd rest).1,
        (processEach rules mode (processFile rules mode t cwd path).2 cwd rest).2) := rfl

/-- Distinct files: the first one is none of the others. -/
theorem nodup_filePlaces_cons {rest : List Text}
    (h : (t.filePlaces cwd (path :: rest)).Nodup) :
    (t.filePlaces cwd rest).Nodup
      ∧ ∀ q ∈ t.filePlaces cwd [path], q ∉ t.filePlaces cwd rest := by
  rw [filePlaces_cons] at h
  exact ⟨h.of_append_right, fun q hq hrest => List.disjoint_of_nodup_append h hq hrest⟩

/-- After the first of distinct files was handled the other paths lead to what they led to. -/
theorem resolve_after_first {rest : List Text} (h : (t.filePlaces cwd (path :: rest)).Nodup)
    {other : Text} (hother : other ∈ rest) :
    (processFile rules mode t cwd path).2.resolve cwd other = t.resolve cwd other := by
  refine (rewritten_processFile rules mode t cwd path).resolve_of_eq fun p s hfound => ?_
  refine changeAt_of_not_mem (fun hp => (nodup_filePlaces_cons h).2 p hp ?_) s
  -- the first path leads there too, so the file can be read
  obtain ⟨_, -, s', hfile⟩ := mem_filePlaces.1 hp
  exact mem_filePlaces.2
    ⟨other, hother, s, file?_eq_some_iff.2 ⟨hfound, (file?_eq_some_iff.1 hfile).2⟩⟩

theorem nodup_after_first {rest : List Text} (h : (t.filePlaces cwd (path :: rest)).Nodup) :
    ((processFile rules mode t cwd path).2.filePlaces cwd rest).Nodup := by
  rw [(rewritten_processFile rules mode t cwd path).filePlaces]
  exact (nodup_filePlaces_cons h).1

/-- A run over distinct files gives for each path the record that it gives alone. -/
theorem fst_processEach {paths : List Text} (h : (t.filePlaces cwd paths).Nodup) :
    (processEach rules mode t cwd paths).1
      = paths.map fun path => (processFile rules mode t cwd path).1 := by
  induction paths generalizing t with
  | nil => rfl
  | cons path rest ih =>
      rw [processEach_cons, ih (nodup_after_first h), List.map_cons]
      refine congrArg (_ :: ·) (List.map_congr_left fun other hother => ?_)
      exact (rewritten_processFile rules mode t cwd path).processFile_fst
        (resolve_after_first h hother)

/-- **A run rewrites its files and nothing else.** -/
theorem rewritten_processEach (rules : Rules) (mode : Mode) {paths : List Text}
    (h : (t.filePlaces cwd paths).Nodup) :
    Rewritten (changeAt (mode.stored rules t) (t.filePlaces cwd paths)) t
      (processEach rules mode t cwd paths).2 := by
  induction paths generalizing t with
  | nil => exact .of_eq fun q s _ => changeAt_of_not_mem List.not_mem_nil s
  | cons path rest ih =>
      have hstep := rewritten_processFile rules mode t cwd path
      have hnext := ih (t := (processFile rules mode t cwd path).2) (nodup_after_first h)
      rw [hstep.filePlaces, Mode.stored_of_rewritten hstep] at hnext
      -- a file that was handled is not handled again
      have hboth := hstep.trans hnext
      simp only [changeAt_append (nodup_filePlaces_cons h).2] at hboth
      rw [filePlaces_cons]
      exact hboth

/-- Except in place a run leaves the tree alone. -/
theorem snd_processEach_of_ne {paths : List Text} (hmode : mode ≠ .inPlace) :
    (processEach rules mode t cwd paths).2 = t := by
  induction paths generalizing t with
  | nil => rfl
  | cons path rest ih =>
      have hstep : (processFile rules mode t cwd path).2 = t := by
        cases hfile : t.file? cwd path with
        | none =>
            obtain ⟨e, -, hresult⟩ := processFile_of_none hfile
            rw [hresult]
        | some file =>
            rw [processFile_of_file hfile, if_neg fun hwrite => hmode hwrite.1]
      rw [processEach_cons]
      dsimp only
      rw [hstep, ih]

/-! ## The entries of the tree -/

/-- What a run in place puts into a tree: what the writing leaves of the files that are not in
    order. -/
def newEntries (rules : Rules) (t : Tree) (cwd : Place) (paths : List Text) :
    List (Place × Entry) :=
  paths.filterMap fun path => (t.file? cwd path).bind fun file =>
    if optimizeFile rules file.2 = file.2 then none
    else (t.stored? file.1 (optimizeFile rules file.2)).map fun left => (file.1, .file left)

/-- The entries that others take the place of are left out. -/
def keptEntries (t : Tree) (new : List (Place × Entry)) : List (Place × Entry) :=
  t.entries.filter fun e => e.1 ∉ new.map Prod.fst

theorem newEntries_cons (rules : Rules) (t : Tree) (cwd : Place) (path : Text)
    (rest : List Text) :
    newEntries rules t cwd (path :: rest)
      = newEntries rules t cwd [path] ++ newEntries rules t cwd rest :=
  List.filterMap_append (l := [path])

theorem mem_filePlaces_of_newEntries {paths : List Text} {e : Place × Entry}
    (h : e ∈ newEntries rules t cwd paths) : e.1 ∈ t.filePlaces cwd paths := by
  obtain ⟨path, hpath, hnew⟩ := List.mem_filterMap.1 h
  obtain ⟨⟨p, s⟩, hfile, hchange⟩ := Option.bind_eq_some_iff.1 hnew
  split at hchange
  · cases hchange
  · obtain ⟨left, -, rfl⟩ := Option.map_eq_some_iff.1 hchange
    exact mem_filePlaces.2 ⟨path, hpath, s, hfile⟩

theorem entries_processFile (rules : Rules) (t : Tree) (cwd : Place) (path : Text) :
    (processFile rules .inPlace t cwd path).2.entries
      = newEntries rules t cwd [path] ++ keptEntries t (newEntries rules t cwd [path]) := by
  have hkept : t.entries = [] ++ keptEntries t [] := by simp [keptEntries]
  cases hfile : t.file? cwd path with
  | none =>
      obtain ⟨e, -, hresult⟩ := processFile_of_none hfile
      have hnew : newEntries rules t cwd [path] = [] := by simp [newEntries, hfile]
      rw [hresult, hnew]
      exact hkept
  | some file =>
      obtain ⟨p, s⟩ := file
      rw [processFile_of_file hfile]
      by_cases hsame : optimizeFile rules s = s
      · have hnew : newEntries rules t cwd [path] = [] := by simp [newEntries, hfile, hsame]
        rw [if_neg fun hwrite => hwrite.2 hsame, hnew]
        exact hkept
      · rw [if_pos ⟨rfl, hsame⟩, overwrite]
        dsimp only
        cases hstored : t.stored? p (optimizeFile rules s) with
        | none =>
            have hnew : newEntries rules t cwd [path] = [] := by
              simp [newEntries, hfile, hsame, hstored]
            rw [hnew]
            exact hkept
        | some left =>
            have hnew : newEntries rules t cwd [path] = [(p, .file left)] := by
              simp [newEntries, hfile, hsame, hstored]
            rw [hnew]
            refine congrArg (_ :: ·) (List.filter_congr fun old _ => ?_)
            by_cases hold : old.1 = p
            · simp [hold]
            · simp [hold]

/-- What is new depends on the paths and on what can be written only. -/
theorem newEntries_after_first {rest : List Text} (h : (t.filePlaces cwd (path :: rest)).Nodup) :
    newEntries rules (processFile rules mode t cwd path).2 cwd rest
      = newEntries rules t cwd rest := by
  have hstep := rewritten_processFile rules mode t cwd path
  refine List.filterMap_congr fun other hother => ?_
  have hfile : (processFile rules mode t cwd path).2.file? cwd other = t.file? cwd other := by
    rw [Tree.file?, Tree.file?, resolve_after_first h hother]
    simp only [hstep.read_eq]
  simp only [hfile, hstep.stored?]

/-- A run in place adds the new entries and keeps the others. -/
theorem entries_processEach (rules : Rules) {paths : List Text}
    (h : (t.filePlaces cwd paths).Nodup) :
    (processEach rules .inPlace t cwd paths).2.entries.Perm
      (newEntries rules t cwd paths ++ keptEntries t (newEntries rules t cwd paths)) := by
  induction paths generalizing t with
  | nil => simp [processEach, newEntries, keptEntries]
  | cons path rest ih =>
      have hapart := (nodup_filePlaces_cons h).2
      have hnext := ih (t := (processFile rules .inPlace t cwd path).2) (nodup_after_first h)
      -- the entry that was put first is kept by the rest of the run
      have hput : (newEntries rules t cwd [path]).filter
          (fun e => e.1 ∉ (newEntries rules t cwd rest).map Prod.fst)
          = newEntries rules t cwd [path] := by
        refine List.filter_eq_self.2 fun e he => decide_eq_true fun hmem => ?_
        obtain ⟨e', he', heq⟩ := List.mem_map.1 hmem
        refine hapart e.1 (mem_filePlaces_of_newEntries he) ?_
        rw [← heq]
        exact mem_filePlaces_of_newEntries he'
      have hkept : (keptEntries t (newEntries rules t cwd [path])).filter
          (fun e => e.1 ∉ (newEntries rules t cwd rest).map Prod.fst)
          = keptEntries t (newEntries rules t cwd (path :: rest)) := by
        rw [keptEntries, keptEntries, newEntries_cons rules t cwd path rest, List.filter_filter]
        refine List.filter_congr fun e _ => ?_
        simp only [List.map_append, List.mem_append, not_or, Bool.decide_and]
        exact Bool.and_comm _ _
      rw [newEntries_after_first h, keptEntries, entries_processFile, List.filter_append, hput,
        hkept, ← List.append_assoc] at hnext
      refine hnext.trans (List.Perm.append_right _ ?_)
      rw [newEntries_cons rules t cwd path rest]
      exact List.perm_append_comm

end

/-- **Files may be handled in any order.**  For paths that lead to distinct files, in
    whatever order they are handled, each gives the record that it gives alone, and the tree
    is the same: at every place, in its entries, and in what can be read and written.

    In place every file that a path leads to, and that can be read and written, holds what it
    is put in order to; one that is read but cannot be written holds what the failed writing
    left, if it was not in order already; and every other place is unchanged.  In the other
    modes the tree is unchanged. -/
theorem files_in_any_order (rules : Rules) (mode : Mode) (t : Tree) (cwd : Place)
    (paths order : List Text) (hdistinct : (t.filePlaces cwd paths).Nodup)
    (horder : order.Perm paths) :
    (processEach rules mode t cwd order).1
        = order.map (fun path => (processFile rules mode t cwd path).1)
      ∧ (∀ p, (processEach rules mode t cwd order).2.get? p
          = (processEach rules mode t cwd paths).2.get? p)
      ∧ (processEach rules mode t cwd order).2.entries.Perm
          (processEach rules mode t cwd paths).2.entries
      ∧ (processEach rules mode t cwd order).2.unreadable = t.unreadable
      ∧ (processEach rules mode t cwd order).2.unwritable = t.unwritable
      ∧ (mode = .inPlace →
          (∀ path ∈ paths, ∀ p src, t.file? cwd path = some (p, src) →
            (t.writeFault? p = none →
              (processEach rules mode t cwd order).2.get? p
                = some (.file (optimizeFile rules src)))
            ∧ ∀ fault, t.writeFault? p = some fault →
              (processEach rules mode t cwd order).2.get? p
                = some (.file (if optimizeFile rules src = src then src
                    else (fault.left? (optimizeFile rules src)).getD src)))
          ∧ ∀ p, (∀ path ∈ paths, ∀ src, t.file? cwd path ≠ some (p, src)) →
            (processEach rules mode t cwd order).2.get? p = t.get? p)
      ∧ (mode ≠ .inPlace → (processEach rules mode t cwd order).2 = t) := by
  have hplaces : (t.filePlaces cwd order).Perm (t.filePlaces cwd paths) := horder.filterMap _
  have hdistinct' := hplaces.nodup_iff.2 hdistinct
  have htree := rewritten_processEach rules mode hdistinct
  have htree' := rewritten_processEach rules mode hdistinct'
  have hsame : changeAt (mode.stored rules t) (t.filePlaces cwd order)
      = changeAt (mode.stored rules t) (t.filePlaces cwd paths) := by
    funext q s
    simp only [changeAt, hplaces.mem_iff]
  rw [hsame] at htree'
  refine ⟨fst_processEach hdistinct', fun p => ?_, ?_, htree'.unreadable, htree'.unwritable, ?_,
    snd_processEach_of_ne⟩
  · rw [htree'.get? p, htree.get? p]
  · by_cases hmode : mode = .inPlace
    · subst hmode
      have hnew : (newEntries rules t cwd order).Perm (newEntries rules t cwd paths) :=
        horder.filterMap _
      have hkept : keptEntries t (newEntries rules t cwd order)
          = keptEntries t (newEntries rules t cwd paths) := by
        rw [keptEntries, keptEntries]
        simp only [(hnew.map Prod.fst).mem_iff]
      have hentries := entries_processEach rules hdistinct'
      rw [hkept] at hentries
      exact hentries.trans ((hnew.append_right _).trans (entries_processEach rules hdistinct).symm)
    · rw [snd_processEach_of_ne hmode, snd_processEach_of_ne hmode]
  · rintro rfl
    constructor
    · intro path hpath p src hfile
      have hp : p ∈ t.filePlaces cwd paths := mem_filePlaces.2 ⟨path, hpath, src, hfile⟩
      have hholds : (processEach rules .inPlace t cwd order).2.get? p
          = some (.file (Mode.inPlace.stored rules t p src)) := by
        rw [htree'.get? p, get?_of_file? hfile]
        show some (Entry.file (changeAt _ (t.filePlaces cwd paths) p src)) = _
        rw [changeAt_of_mem hp]
      rw [hholds]
      exact ⟨fun hwrite => by rw [stored_inPlace_of_none hwrite],
        fun fault hwrite => by rw [stored_inPlace_of_some hwrite]⟩
    · intro p hother
      have hp : p ∉ t.filePlaces cwd paths := by
        intro hmem
        obtain ⟨path, hpath, src, hfile⟩ := mem_filePlaces.1 hmem
        exact hother path hpath src hfile
      exact htree'.get?_of_not_mem hp

/-- A tree with four files that are not in order, of which one cannot be read and one cannot be
    written, and one that is in order. -/
def sampleTree : Tree where
  entries :=
    [([text "a.js"], .file (text "import b from 'b'\n")),
      ([text "lib"], .directory),
      ([text "lib", text "c.js"], .file (text "import d from \"d\"\nrun();\n")),
      ([text "lib", text "e.js"], .file (text "run();\n")),
      ([text "lib", text "f.js"], .file (text "import g from 'g'\n")),
      ([text "lib", text "h.js"], .file (text "import i from 'i'\n"))]
  unreadable := [([text "lib", text "f.js"], .refused (text "permission denied"))]
  unwritable :=
    [([text "lib", text "h.js"], .cutShort 6 (.refused (text "no space left on device")))]

/-- Paths to its files, to a directory, to nothing and through a file. -/
def samplePaths : List Text :=
  [text "a.js", text "lib", text "gone.js", text "lib/.././lib/c.js", text "a.js/x",
    text "/lib/e.js", text "lib/f.js", text "lib/h.js"]

theorem files_in_any_order_sampleTree :
    let after := (processEach {} .inPlace sampleTree [] samplePaths.reverse).2
    after.get? [text "a.js"] = some (.file (text "import b from 'b';\n"))
      ∧ after.get? [text "lib", text "h.js"] = some (.file (text "import"))
      ∧ after.get? [text "lib", text "f.js"] = some (.file (text "import g from 'g'\n")) := by
  obtain ⟨-, -, -, -, -, htree, -⟩ := files_in_any_order {} .inPlace sampleTree [] samplePaths
    samplePaths.reverse (by decide +kernel) (List.reverse_perm samplePaths)
  obtain ⟨hlisted, hothers⟩ := htree rfl
  refine ⟨?_, ?_, ?_⟩
  · rw [(hlisted (text "a.js") (by decide +kernel) [text "a.js"] (text "import b from 'b'\n")
      (by decide +kernel)).1 (by decide +kernel)]
    decide +kernel
  · rw [(hlisted (text "lib/h.js") (by decide +kernel) [text "lib", text "h.js"]
      (text "import i from 'i'\n") (by decide +kernel)).2 _ rfl]
    decide +kernel
  · rw [hothers [text "lib", text "f.js"] fun path hpath src hfile => ?_]
    · rfl
    · exact absurd (mem_filePlaces.2 ⟨path, hpath, src, hfile⟩) (by decide +kernel)

end ImportBlock
