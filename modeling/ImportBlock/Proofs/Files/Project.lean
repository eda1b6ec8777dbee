import Mathlib
import ImportBlock.Files.Project
import ImportBlock.Proofs.Files.Discovery

/-! # The nearest project

    The root of a project is looked for from a directory upwards, one directory at a time and
    at most 64 of them.  What is found can be said by the places alone: `IsNearestProject` is a
    directory at or above the start that holds the marker, with none in between that does.

    One step of the search either stops or goes on above, where the same directories are left
    (`isNearestProject_dropLast`).  By induction on the steps the search finds the nearest
    project exactly if it is among the directories that are looked at, `nearestProject_eq_some_iff`.

    `project_root_is_nearest` says this of the root of a path's project and of the directories
    that are searched for settings.  These are told apart as places; since a place is read back
    from its path (`names_path`), their paths differ too. -/

namespace ImportBlock

open Text

namespace Tree

/-- The directory holds the marker of a project, as a file. -/
def Marked (t : Tree) (dir : Place) : Prop :=
  ∃ content, t.get? (dir ++ [text "package.json"]) = some (.file content)

/-- The directory `root` is the nearest one at or above `start` that holds the marker. -/
structure IsNearestProject (t : Tree) (start root : Place) : Prop where
  above : root <+: start
  marked : t.Marked root
  nearest : ∀ dir, dir <+: start → root.length < dir.length → ¬ t.Marked dir

section

variable {t : Tree} {start root : Place}

theorem hasFile_iff {p : Place} :
    t.hasFile p = true ↔ ∃ content, t.get? p = some (.file content) := by
  rw [hasFile]
  cases t.get? p with
  | none => simp
  | some e =>
      cases e with
      | directory => simp
      | file content => simp

/-! ## Going up -/

theorem IsNearestProject.ne (h : t.IsNearestProject start root) (hstart : ¬ t.Marked start) :
    root ≠ start := by
  rintro rfl
  exact hstart h.marked

/-- A directory above another one is at or above its parent. -/
theorem prefix_dropLast {dir : Place} (h : dir <+: start) (hne : dir ≠ start) :
    dir <+: start.dropLast := by
  obtain ⟨rest, rfl⟩ := h
  have hrest : rest ≠ [] := by
    rintro rfl
    exact hne (List.append_nil dir).symm
  rw [List.dropLast_append_of_ne_nil hrest]
  exact List.prefix_append dir rest.dropLast

/-- A start without the marker has the nearest project of its parent. -/
theorem isNearestProject_dropLast (hstart : ¬ t.Marked start) :
    t.IsNearestProject start.dropLast root ↔ t.IsNearestProject start root := by
  constructor
  · intro h
    refine ⟨h.above.trans (List.dropLast_prefix start), h.marked, ?_⟩
    intro dir hdir hlength hmarked
    have hne : dir ≠ start := by
      rintro rfl
      exact hstart hmarked
    exact h.nearest dir (prefix_dropLast hdir hne) hlength hmarked
  · intro h
    refine ⟨prefix_dropLast h.above (h.ne hstart), h.marked, ?_⟩
    intro dir hdir
    exact h.nearest dir (hdir.trans (List.dropLast_prefix start))

/-- A start with the marker is its own nearest project. -/
theorem isNearestProject_of_marked (hstart : t.Marked start) :
    t.IsNearestProject start root ↔ root = start := by
  constructor
  · intro h
    by_contra hne
    have hlength : root.length < start.length := by
      have hle := h.above.length_le
      have hsame : root.length ≠ start.length := fun heq => hne (h.above.eq_of_length heq)
      omega
    exact h.nearest start (List.prefix_refl start) hlength hstart
  · rintro rfl
    refine ⟨List.prefix_refl root, hstart, ?_⟩
    intro dir hdir hlength
    have hle := hdir.length_le
    omega

/-- **The search finds the nearest project** if it is among the directories looked at. -/
theorem nearestProject_eq_some_iff (n : Nat) :
    t.nearestProject n start = some root ↔
      t.IsNearestProject start root ∧ start.length < root.length + n := by
  induction n generalizing start with
  | zero =>
      constructor
      · intro h
        cases h
      · rintro ⟨h, hlength⟩
        have hle := h.above.length_le
        omega
  | succ n ih =>
      have hfile : t.hasFile (start ++ [projectMarker]) = true ↔ t.Marked start := hasFile_iff
      rw [nearestProject]
      by_cases hmarked : t.Marked start
      · rw [if_pos (hfile.2 hmarked), Option.some.injEq, isNearestProject_of_marked hmarked]
        constructor
        · rintro rfl
          exact ⟨rfl, by omega⟩
        · rintro ⟨rfl, -⟩
          rfl
      · rw [if_neg (mt hfile.1 hmarked)]
        by_cases htop : start = []
        · -- nothing is above the top directory
          subst htop
          rw [if_pos rfl]
          constructor
          · intro h
            cases h
          · rintro ⟨h, -⟩
            exact absurd (List.prefix_nil.1 h.above) (h.ne hmarked)
        · have hpos : 0 < start.length := List.length_pos_iff.2 htop
          rw [if_neg htop, ih, isNearestProject_dropLast hmarked, List.length_dropLast]
          refine and_congr_right fun _ => ?_
          omega

/-- There is a nearest project if any directory at or above the start holds the marker. -/
theorem exists_isNearestProject {dir : Place} (hdir : dir <+: start) (hmarked : t.Marked dir) :
    ∃ root, t.IsNearestProject start root := by
  induction hn : start.length generalizing start with
  | zero =>
      obtain rfl : start = [] := List.length_eq_zero_iff.1 hn
      obtain rfl : dir = [] := List.prefix_nil.1 hdir
      exact ⟨[], (isNearestProject_of_marked hmarked).2 rfl⟩
  | succ n ih =>
      by_cases hstart : t.Marked start
      · exact ⟨start, (isNearestProject_of_marked hstart).2 rfl⟩
      · have hne : dir ≠ start := by
          rintro rfl
          exact hstart hmarked
        obtain ⟨root, hroot⟩ := ih (prefix_dropLast hdir hne) (by rw [List.length_dropLast]; omega)
        exact ⟨root, (isNearestProject_dropLast hstart).1 hroot⟩

end

/-! ## The project of a path -/

/-- The path is absolute, or there is a working directory that it starts from. -/
def HasStart (t : Tree) (cwd : Place) (path : Text) : Prop :=
  Path.isAbsolute path = true ∨ t.get? cwd = some .directory

section

variable {t : Tree} {cwd root : Place} {path : Text}

theorem workingDirectory?_eq_some_iff {p : Place} :
    t.workingDirectory? cwd = some p ↔ p = cwd ∧ t.get? cwd = some .directory := by
  rw [workingDirectory?]
  split
  · rename_i h
    have hget : t.get? cwd = some .directory := by simpa [hasDirectory] using h
    simp [hget, eq_comm]
  · rename_i h
    have hget : t.get? cwd ≠ some .directory := by simpa [hasDirectory] using h
    simp [hget]

theorem hasStart_iff :
    (Path.isAbsolute path || (t.workingDirectory? cwd).isSome) = true ↔ t.HasStart cwd path := by
  rw [Bool.or_eq_true, Option.isSome_iff_exists, HasStart]
  refine or_congr Iff.rfl ?_
  simp [workingDirectory?_eq_some_iff]

theorem projectRoot_eq_some_iff :
    t.projectRoot cwd path = some root ↔
      t.HasStart cwd path ∧ t.IsNearestProject (t.searchStart cwd path) root
        ∧ (t.searchStart cwd path).length ≤ root.length + 63 := by
  rw [projectRoot]
  by_cases hstart : t.HasStart cwd path
  · rw [if_pos (hasStart_iff.2 hstart), nearestProject_eq_some_iff, searchDepth,
      and_iff_right hstart]
    refine and_congr_right fun _ => ?_
    omega
  · rw [if_neg (mt hasStart_iff.1 hstart)]
    constructor
    · intro h
      cases h
    · rintro ⟨h, -⟩
      exact absurd h hstart

/-! ## Where settings are searched for -/

theorem settingsPlaces_of_another (hroot : t.projectRoot cwd path = some root)
    (hne : t.workingDirectory? cwd ≠ some root) :
    t.settingsPlaces cwd path = (t.workingDirectory? cwd).toList ++ [root] := by
  rw [settingsPlaces, hroot]
  simp [Option.filter, hne]

theorem settingsPlaces_of_none_or_same
    (h : t.projectRoot cwd path = none ∨ t.projectRoot cwd path = t.workingDirectory? cwd) :
    t.settingsPlaces cwd path = (t.workingDirectory? cwd).toList := by
  rw [settingsPlaces]
  rcases h with hnone | hsame
  · rw [hnone]
    simp
  · rw [hsame]
    cases t.workingDirectory? cwd with
    | none => rfl
    | some p => simp [Option.filter]

theorem nodup_settingsPlaces (t : Tree) (cwd : Place) (path : Text) :
    (t.settingsPlaces cwd path).Nodup := by
  by_cases h : t.projectRoot cwd path = none ∨ t.projectRoot cwd path = t.workingDirectory? cwd
  · rw [settingsPlaces_of_none_or_same h]
    exact Option.toList_nodup _
  · obtain ⟨hsome, hother⟩ := not_or.1 h
    obtain ⟨root, hroot⟩ := Option.ne_none_iff_exists'.1 hsome
    have hne : t.workingDirectory? cwd ≠ some root := fun heq => hother (hroot.trans heq.symm)
    rw [settingsPlaces_of_another hroot hne, List.nodup_append_comm, List.singleton_append]
    exact List.nodup_cons.2 ⟨mt Option.mem_toList.1 hne, Option.toList_nodup _⟩

/-! ## Paths of places -/

/-- A place is read back from its path. -/
theorem names_path {p : Place} (hp : ∀ name ∈ p, Path.IsName name) : Path.names p.path = p := by
  by_cases htop : p = []
  · subst htop
    rfl
  · exact Path.names_spell ((Path.cleaned_nil true).append hp) htop

/-- The directories that are searched are there, or hold a marker, so that they have names. -/
theorem isName_of_mem_settingsPlaces (ht : t.WellFormed) {p : Place}
    (hp : p ∈ t.settingsPlaces cwd path) : ∀ name ∈ p, Path.IsName name := by
  intro name hname
  rcases List.mem_append.1 hp with hp | hp
  · obtain ⟨rfl, hdir⟩ := workingDirectory?_eq_some_iff.1 (Option.mem_toList.1 hp)
    exact ht.isName_of_get? hdir hname
  · have hroot := (Option.mem_filter_iff.1 (Option.mem_toList.1 hp)).1
    obtain ⟨content, hmarker⟩ := (projectRoot_eq_some_iff.1 hroot).2.1.marked
    exact ht.isName_of_get? hmarker (List.mem_append_left _ hname)

theorem nodup_paths_settingsPlaces (ht : t.WellFormed) :
    ((t.settingsPlaces cwd path).map Place.path).Nodup := by
  refine List.Nodup.map_on ?_ (nodup_settingsPlaces t cwd path)
  intro p hp q hq heq
  rw [← names_path (isName_of_mem_settingsPlaces ht hp), heq,
    names_path (isName_of_mem_settingsPlaces ht hq)]

end

/-- **The project root is the nearest one.**  Let the search start in the directory that a path
    names, or in the one above it if there is no such directory.

    * A root that is found is the nearest directory at or above the start that holds the marker
      as a file, and the nearest one is found if it is at most 63 levels above the start.
    * So a start that is at most 63 levels below the top directory has no root exactly if no
      directory at or above it holds the marker, unless the path has no start at all.
    * Settings are searched for in the working directory and then in the root, if there is one
      and it is another directory.  In a tree as a file system holds it no path is searched
      twice. -/
theorem project_root_is_nearest (t : Tree) (cwd : Place) (path : Text) :
    (∀ root, t.projectRoot cwd path = some root ↔
        t.HasStart cwd path ∧ t.IsNearestProject (t.searchStart cwd path) root
          ∧ (t.searchStart cwd path).length ≤ root.length + 63)
      ∧ (t.HasStart cwd path → (t.searchStart cwd path).length ≤ 63 →
        (t.projectRoot cwd path = none
          ↔ ∀ dir, dir <+: t.searchStart cwd path → ¬ t.Marked dir))
      ∧ (∀ root, t.projectRoot cwd path = some root → t.workingDirectory? cwd ≠ some root →
        t.settingsPlaces cwd path = (t.workingDirectory? cwd).toList ++ [root])
      ∧ (t.projectRoot cwd path = none ∨ t.projectRoot cwd path = t.workingDirectory? cwd →
        t.settingsPlaces cwd path = (t.workingDirectory? cwd).toList)
      ∧ (t.WellFormed → ((t.settingsPlaces cwd path).map Place.path).Nodup) := by
  refine ⟨fun root => projectRoot_eq_some_iff, ?_, fun root => settingsPlaces_of_another,
    settingsPlaces_of_none_or_same, nodup_paths_settingsPlaces⟩
  intro hstart hdepth
  rw [Option.eq_none_iff_forall_ne_some]
  constructor
  · intro hnone dir hdir hmarked
    obtain ⟨root, hroot⟩ := exists_isNearestProject hdir hmarked
    exact hnone root (projectRoot_eq_some_iff.2 ⟨hstart, hroot, by omega⟩)
  · intro hmarked root hroot
    obtain ⟨-, hnearest, -⟩ := projectRoot_eq_some_iff.1 hroot
    exact hmarked root hnearest.above hnearest.marked

/-- The top directory is a project; the directory in it holds another directory in the place of
    the marker. -/
def markedTop : Tree where
  entries :=
    [([text "package.json"], .file []), ([text "a"], .directory),
      ([text "a", text "package.json"], .directory)]

/-- The path of a file so many levels below the top directory; there is no such file. -/
def pathBelow (levels : Nat) : Text :=
  Place.path (List.replicate levels (text "a") ++ [text "x.js"])

/-- From 63 levels below, the marker of the top directory is the last one that is looked for; from
    64 levels below it is not found. -/
theorem project_root_is_nearest_markedTop :
    markedTop.IsNearestProject (List.replicate 63 (text "a")) []
      ∧ (∀ dir, dir <+: [text "b"] → ¬ ({} : Tree).Marked dir)
      ∧ markedTop.projectRoot [] (pathBelow 64) = none
      ∧ markedTop.settingsPlaces [text "a"] (pathBelow 63) = [[text "a"], []]
      ∧ ((markedTop.settingsPlaces [text "a"] (pathBelow 63)).map Place.path).Nodup := by
  have hfound : markedTop.projectRoot [text "a"] (pathBelow 63) = some [] := by decide +kernel
  have hstart : markedTop.searchStart [text "a"] (pathBelow 63) = List.replicate 63 (text "a") := by
    decide +kernel
  obtain ⟨hroot, -, hplaces, -, hpaths⟩ :=
    project_root_is_nearest markedTop [text "a"] (pathBelow 63)
  obtain ⟨-, hempty, -, -, -⟩ := project_root_is_nearest {} [] (text "/b/c")
  refine ⟨?_, ?_, by decide +kernel, hplaces [] hfound (by decide +kernel), hpaths ?_⟩
  · rw [← hstart]
    exact ((hroot []).1 hfound).2.1
  · exact (hempty (Or.inl rfl) (by decide +kernel)).1 (by decide +kernel)
  · exact ⟨by decide +kernel, by decide +kernel, by decide +kernel⟩

end Tree

end ImportBlock
