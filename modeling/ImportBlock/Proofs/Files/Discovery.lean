import Mathlib
import ImportBlock.Files.Discovery
import ImportBlock.Proofs.Files.Path
import ImportBlock.Proofs.Files.Rewriting
import ImportBlock.Proofs.Text.Sorting

/-! # Which source files are found

    The search below a directory goes from directory to directory, leaves out those whose names
    keep it out, and puts the paths that it comes to in order.  `source_files_exact` says which
    paths these are: those of the files with the name of a source file, behind directories that
    are all searched.

    The search is followed along the names that it has gone below its start, `Reached`.  Each
    step adds a name, so no directory below has the path that the search started with
    (`Reached.ne_start`): only the start itself is exempt from the test of its name.  By
    induction on what is left of the depth of the tree, `mem_visit` tells what is found from a
    place on and `nodup_visit` that nothing is found twice, since different names lead to
    different paths. -/

namespace ImportBlock

open Text

/-! ## Trees of files -/

/-- A tree as a file system holds it: each place has one entry, its names are names that
    something in a directory can have, and it stands in a directory. -/
structure Tree.WellFormed (t : Tree) : Prop where
  distinct : (t.entries.map Prod.fst).Nodup
  names : ∀ entry ∈ t.entries, entry.1 ≠ [] ∧ ∀ name ∈ entry.1, Path.IsName name
  parents : ∀ entry ∈ t.entries, t.get? entry.1.dropLast = some .directory

/-- A name that keeps the search out of a directory. -/
def KeptOut (name : Text) : Prop :=
  name ∈ [text "node_modules", text "vendor", text "dist", text "build", text "coverage"]
    ∨ ∃ rest, name = dot :: rest

/-- The name of a source file: no declaration file, and what follows the last dot is, with the
    dot, one of the extensions. -/
structure SourceName (extensions : List Text) (name : Text) : Prop where
  undeclared : ∀ ending ∈ [text ".d.ts", text ".d.mts", text ".d.cts"], ¬ ending <:+ name
  extended : ∃ stem ext, name = stem ++ dot :: ext ∧ dot ∉ ext ∧ dot :: ext ∈ extensions

/-- There is a source file of that name in the directory that the names `dirs` lead to, and none
    of these names keeps the search out. -/
structure Tree.Findable (t : Tree) (extensions : List Text) (root : Place) (dirs : List Text)
    (name : Text) : Prop where
  file : ∃ content, t.get? (root ++ (dirs ++ [name])) = some (.file content)
  searched : ∀ d ∈ dirs, ¬ KeptOut d
  source : SourceName extensions name

theorem isSkipped_iff (name : Text) : isSkipped name = true ↔ KeptOut name := by
  rw [isSkipped, Bool.or_eq_true, List.contains_iff_mem, beq_iff_eq, KeptOut]
  refine or_congr Iff.rfl ?_
  cases name with
  | nil => simp
  | cons b rest => simp

theorem isSourceFile_iff {extensions : List Text} {path name : Text} (hname : Path.IsName name)
    (hbase : Path.base path = name) :
    isSourceFile extensions path = true ↔ SourceName extensions name := by
  have hlast : Path.lastName name = name := by
    rw [Path.lastName, cutLast_byte_eq_none_iff.2 hname.2.1]
  have hdeclared : (declarationEnds.any fun e => e.isSuffixOf name) = false
      ↔ ∀ ending ∈ [text ".d.ts", text ".d.mts", text ".d.cts"], ¬ ending <:+ name := by
    simp only [List.any_eq_false, List.isSuffixOf_iff_suffix]
    rfl
  have hextension : (Path.extension name != []) = true ∧ Path.extension name ∈ extensions
      ↔ ∃ stem ext, name = stem ++ dot :: ext ∧ dot ∉ ext ∧ dot :: ext ∈ extensions := by
    rw [Path.extension, hlast]
    cases hcut : cutLast (· == dot) name with
    | none =>
        have hnone := cutLast_byte_eq_none_iff.1 hcut
        constructor
        · rintro ⟨hne, -⟩
          simp at hne
        · rintro ⟨stem, ext, rfl, -⟩
          exact absurd (by simp) hnone
    | some parts =>
        obtain ⟨stem, ext⟩ := parts
        obtain ⟨b, hb, hsplit, hext⟩ := eq_of_cutLast hcut
        rw [beq_iff_eq] at hb
        subst hb
        constructor
        · rintro ⟨-, hmem⟩
          exact ⟨stem, ext, hsplit, forall_beq_eq_false_iff.1 hext, hmem⟩
        · rintro ⟨stem', ext', hsplit', hext', hmem⟩
          have hcut' : cutLast (· == dot) name = some (stem', ext') := by
            rw [hsplit']
            exact cutLast_append (beq_self_eq_true dot) (forall_beq_eq_false_iff.2 hext')
          rw [hcut] at hcut'
          cases hcut'
          exact ⟨by simp, hmem⟩
  rw [isSourceFile, hbase]
  simp only [Bool.and_eq_true, Bool.not_eq_true', hdeclared, List.contains_iff_mem]
  rw [and_assoc, hextension]
  constructor
  · rintro ⟨hends, hext⟩
    exact ⟨hends, hext⟩
  · rintro ⟨hends, hext⟩
    exact ⟨hends, hext⟩

namespace Tree

variable {t : Tree} {extensions : List Text} {start path name : Text} {more : List Text}
  {p q : Place} {e : Entry}

section

variable (ht : t.WellFormed)

include ht

/-! ## Places and entries -/

theorem WellFormed.get?_eq_some_iff (hq : q ≠ []) : t.get? q = some e ↔ (q, e) ∈ t.entries := by
  rw [get?, if_neg hq]
  constructor
  · intro h
    obtain ⟨⟨q', e'⟩, hfound, rfl⟩ := Option.map_eq_some_iff.1 h
    have heq : q' = q := by simpa using List.find?_some hfound
    rw [← heq]
    exact List.mem_of_find?_eq_some hfound
  · intro hmem
    cases hfound : t.entries.find? fun entry => entry.1 == q with
    | none =>
        have := List.find?_eq_none.1 hfound (q, e) hmem
        simp at this
    | some entry =>
        obtain ⟨q', e'⟩ := entry
        have heq : q' = q := by simpa using List.find?_some hfound
        have hentry := List.mem_of_find?_eq_some hfound
        rw [heq] at hentry
        -- two entries of one place are the same entry
        have hsame := List.inj_on_of_nodup_map ht.distinct hentry hmem rfl
        rw [Prod.mk.injEq] at hsame
        rw [Option.map_some, hsame.2]

theorem WellFormed.isName_of_get? (h : t.get? q = some e) {n : Text} (hn : n ∈ q) :
    Path.IsName n := by
  have hq : q ≠ [] := List.ne_nil_of_mem hn
  exact (ht.names _ ((ht.get?_eq_some_iff hq).1 h)).2 n hn

/-- What something stands below is a directory. -/
theorem WellFormed.get?_of_append {rest : List Text} (hrest : rest ≠ [])
    (h : t.get? (p ++ rest) = some e) : t.get? p = some .directory := by
  induction rest using List.reverseRecOn generalizing e with
  | nil => exact absurd rfl hrest
  | append_singleton rest n ih =>
      have hne : p ++ (rest ++ [n]) ≠ [] := by simp
      have hparent := ht.parents _ ((ht.get?_eq_some_iff hne).1 h)
      rw [← List.append_assoc, List.dropLast_concat] at hparent
      by_cases hnil : rest = []
      · rw [hnil, List.append_nil] at hparent
        exact hparent
      · exact ih hnil hparent

theorem WellFormed.isName_of_child (h : (name, e) ∈ t.children p) : Path.IsName name :=
  (ht.names _ (mem_children.1 h)).2 name (by simp)

/-- No two children have the same name. -/
theorem WellFormed.children_distinct (p : Place) :
    (t.children p).Pairwise fun a b => a.1 ≠ b.1 := by
  have hentries : t.entries.Pairwise fun a b => a.1 ≠ b.1 := List.pairwise_map.1 ht.distinct
  refine ((sortOn_perm _ _).pairwise_iff fun hne => Ne.symm hne).2 ?_
  refine List.pairwise_filterMap.2 (hentries.imp ?_)
  rintro a b hne ⟨n, e⟩ hn ⟨n', e'⟩ hn' heq
  rw [child?_eq_some.1 hn, child?_eq_some.1 hn'] at hne
  exact hne (congrArg (p ++ [·]) heq)

end

/-! ## Along the names -/

/-- What a search finds behind a directory it finds from there on, if it is not kept out. -/
theorem findable_cons {d : Text} {dirs : List Text} :
    t.Findable extensions p (d :: dirs) name
      ↔ ¬ KeptOut d ∧ t.Findable extensions (p ++ [d]) dirs name := by
  have hplace : p ++ (d :: dirs ++ [name]) = p ++ [d] ++ (dirs ++ [name]) := by simp
  constructor
  · rintro ⟨hfile, hdirs, hsource⟩
    rw [hplace] at hfile
    exact ⟨hdirs d List.mem_cons_self,
      ⟨hfile, fun d' hd' => hdirs d' (List.mem_cons_of_mem d hd'), hsource⟩⟩
  · rintro ⟨hd, hfile, hdirs, hsource⟩
    refine ⟨by rw [hplace]; exact hfile, ?_, hsource⟩
    intro d' hd'
    rcases List.mem_cons.1 hd' with rfl | hd'
    · exact hd
    · exact hdirs d' hd'

/-- The search has come from its start along these names to this path. -/
structure Reached (start path : Text) (more : List Text) : Prop where
  ne_nil : path ≠ []
  absolute : Path.isAbsolute path = Path.isAbsolute start
  names : Path.names path = Path.names start ++ more

theorem reached_start (h : start ≠ []) : Reached start start [] :=
  ⟨h, rfl, (List.append_nil _).symm⟩

/-- **Only the start has the path of the start.** -/
theorem Reached.ne_start (h : Reached start path more) (hmore : more ≠ []) : path ≠ start := by
  rintro rfl
  have hlen := congrArg List.length h.names
  rw [List.length_append] at hlen
  exact hmore (List.length_eq_zero_iff.1 (by omega))

theorem Reached.below_eq (h : Reached start path more) (hname : Path.IsName name) :
    Path.below path name
      = Path.spell (Path.isAbsolute start) (Path.names start ++ (more ++ [name])) := by
  have hnames : ∀ n ∈ [name], Path.IsName n := by
    intro n hn
    rw [List.mem_singleton.1 hn]
    exact hname
  have hjoin := Path.below_join h.ne_nil hnames (List.cons_ne_nil _ _)
  rw [h.absolute, h.names, List.append_assoc] at hjoin
  exact hjoin

theorem Reached.below (h : Reached start path more) (hname : Path.IsName name) :
    Reached start (Path.below path name) (more ++ [name]) := by
  have hcleaned : Path.Cleaned (Path.isAbsolute start) (Path.names start ++ (more ++ [name])) := by
    rw [← List.append_assoc, ← h.names, ← h.absolute]
    refine (Path.cleaned_names path).append ?_
    intro n hn
    rw [List.mem_singleton.1 hn]
    exact hname
  have hne : Path.names start ++ (more ++ [name]) ≠ [] := by simp
  rw [h.below_eq hname]
  refine ⟨?_, Path.isAbsolute_spell hcleaned hne, Path.names_spell hcleaned hne⟩
  rw [← List.append_assoc]
  exact Path.spell_ne_nil _ hname.1

theorem Reached.base_below (h : Reached start path more) (hname : Path.IsName name) :
    Path.base (Path.below path name) = name := by
  rw [h.below_eq hname, ← List.append_assoc]
  exact Path.base_spell _ hname

/-! ## The search -/

theorem visit_file {s : Text} :
    t.visit extensions start path name p (.file s)
      = if isSourceFile extensions path then [path] else [] := by
  rw [visit]

theorem visit_skipped (hpath : path ≠ start) (hname : KeptOut name) :
    t.visit extensions start path name p .directory = [] := by
  rw [visit, if_pos ⟨hpath, (isSkipped_iff name).2 hname⟩]

theorem visit_directory (h : path = start ∨ ¬ KeptOut name) :
    t.visit extensions start path name p .directory
      = (t.children p).flatMap fun child =>
          t.visit extensions start (Path.below path child.1) child.1 (p ++ [child.1]) child.2 := by
  have hsearched : ¬ (path ≠ start ∧ isSkipped name = true) := by
    rintro ⟨hpath, hname⟩
    exact h.elim hpath fun hout => hout ((isSkipped_iff name).1 hname)
  rw [visit, if_neg hsearched]
  conv_rhs => rw [← List.attach_map_subtype_val (t.children p), List.flatMap_map]

section

variable (ht : t.WellFormed)

include ht

/-- **What is found from a directory on**: the source files behind directories that are
    searched, by the names that lead to them. -/
theorem mem_visit (hreached : Reached start path more) (hsearched : path = start ∨ ¬ KeptOut name)
    {file : Text} :
    file ∈ t.visit extensions start path name p .directory
      ↔ ∃ dirs last, t.Findable extensions p dirs last
        ∧ file = Path.spell (Path.isAbsolute start)
          (Path.names start ++ (more ++ (dirs ++ [last]))) := by
  induction hn : t.depth - p.length using Nat.strongRecOn generalizing path more name p with
  | ind n ih =>
      rw [visit_directory hsearched, List.mem_flatMap]
      -- what is found in a directory below is found by the induction
      have hbelow : ∀ {child : Text}, (child, Entry.directory) ∈ t.children p →
          ¬ KeptOut child → (file ∈ t.visit extensions start (Path.below path child) child
              (p ++ [child]) .directory
            ↔ ∃ dirs last, t.Findable extensions (p ++ [child]) dirs last
              ∧ file = Path.spell (Path.isAbsolute start)
                (Path.names start ++ (more ++ ([child] ++ (dirs ++ [last]))))) := by
        intro child hchild hopen
        have hdeeper : t.depth - (p ++ [child]).length < n := by
          have hlen := length_lt_depth_of_mem_children hchild
          rw [List.length_append, List.length_singleton]
          omega
        have hfound := ih _ hdeeper (hreached.below (ht.isName_of_child hchild))
          (Or.inr hopen) rfl
        simp only [List.append_assoc] at hfound
        exact hfound
      constructor
      · rintro ⟨⟨child, e⟩, hchild, hfile⟩
        have hname := ht.isName_of_child hchild
        cases e with
        | file content =>
            rw [visit_file] at hfile
            split at hfile
            · rename_i hsource
              refine ⟨[], child, ⟨⟨content, ?_⟩, by simp, ?_⟩, ?_⟩
              · exact (ht.get?_eq_some_iff (by simp)).2 (mem_children.1 hchild)
              · exact (isSourceFile_iff hname (hreached.base_below hname)).1 hsource
              · rw [List.mem_singleton.1 hfile, hreached.below_eq hname]
                rfl
            · cases hfile
        | directory =>
            by_cases hout : KeptOut child
            · have hpath := (hreached.below hname).ne_start (by simp)
              rw [visit_skipped hpath hout] at hfile
              cases hfile
            · obtain ⟨dirs, last, hfound, heq⟩ := (hbelow hchild hout).1 hfile
              exact ⟨child :: dirs, last, findable_cons.2 ⟨hout, hfound⟩, heq⟩
      · rintro ⟨dirs, last, hfound, heq⟩
        obtain ⟨content, hcontent⟩ := hfound.file
        cases dirs with
        | nil =>
            have hchild : (last, Entry.file content) ∈ t.children p :=
              mem_children.2 ((ht.get?_eq_some_iff (by simp)).1 hcontent)
            have hname := ht.isName_of_child hchild
            refine ⟨(last, .file content), hchild, ?_⟩
            rw [visit_file,
              if_pos ((isSourceFile_iff hname (hreached.base_below hname)).2 hfound.source),
              hreached.below_eq hname, heq]
            exact List.mem_singleton_self _
        | cons d dirs =>
            obtain ⟨hopen, hrest⟩ := findable_cons.1 hfound
            have hdirectory : t.get? (p ++ [d]) = some .directory := by
              obtain ⟨content', hcontent'⟩ := hrest.file
              exact ht.get?_of_append (by simp) hcontent'
            have hchild : (d, Entry.directory) ∈ t.children p :=
              mem_children.2 ((ht.get?_eq_some_iff (by simp)).1 hdirectory)
            exact ⟨(d, .directory), hchild, (hbelow hchild hopen).2 ⟨dirs, last, hrest, heq⟩⟩

/-- Whatever is found behind a name has a path with that name. -/
theorem exists_of_mem_visit (hreached : Reached start path more) {child file : Text}
    (hchild : (child, e) ∈ t.children p)
    (hfile : file ∈ t.visit extensions start (Path.below path child) child (p ++ [child]) e) :
    ∃ rest, (∀ n ∈ rest, Path.IsName n)
      ∧ file = Path.spell (Path.isAbsolute start)
        (Path.names start ++ (more ++ child :: rest)) := by
  have hname := ht.isName_of_child hchild
  cases e with
  | file content =>
      rw [visit_file] at hfile
      split at hfile
      · refine ⟨[], by simp, ?_⟩
        rw [List.mem_singleton.1 hfile, hreached.below_eq hname]
      · cases hfile
  | directory =>
      have hbelow := hreached.below hname
      by_cases hout : KeptOut child
      · rw [visit_skipped (hbelow.ne_start (by simp)) hout] at hfile
        cases hfile
      · obtain ⟨dirs, last, hfound, heq⟩ := (mem_visit ht hbelow (Or.inr hout)).1 hfile
        obtain ⟨content, hcontent⟩ := hfound.file
        refine ⟨dirs ++ [last], ?_, ?_⟩
        · intro n hn
          exact ht.isName_of_get? hcontent (List.mem_append_right _ hn)
        · rw [heq, List.append_assoc]
          rfl

/-- **Nothing is found twice.** -/
theorem nodup_visit (hreached : Reached start path more)
    (hsearched : path = start ∨ ¬ KeptOut name) :
    (t.visit extensions start path name p .directory).Nodup := by
  induction hn : t.depth - p.length using Nat.strongRecOn generalizing path more name p with
  | ind n ih =>
      rw [visit_directory hsearched, List.nodup_flatMap]
      constructor
      · rintro ⟨child, e⟩ hchild
        have hbelow := hreached.below (ht.isName_of_child hchild)
        cases e with
        | file content =>
            rw [visit_file]
            split
            · exact List.nodup_singleton _
            · exact List.nodup_nil
        | directory =>
            by_cases hout : KeptOut child
            · rw [visit_skipped (hbelow.ne_start (by simp)) hout]
              exact List.nodup_nil
            · refine ih _ ?_ hbelow (Or.inr hout) rfl
              have hlen := length_lt_depth_of_mem_children hchild
              rw [List.length_append, List.length_singleton]
              omega
      · -- different names lead to different paths
        refine (ht.children_distinct p).imp_of_mem ?_
        rintro ⟨a, e⟩ ⟨b, e'⟩ ha hb hne file hfile hfile'
        obtain ⟨rest, hrest, heq⟩ := exists_of_mem_visit ht hreached ha hfile
        obtain ⟨rest', hrest', heq'⟩ := exists_of_mem_visit ht hreached hb hfile'
        have hcleaned : ∀ {c : Text} {e : Entry} {rest : List Text}, (c, e) ∈ t.children p →
            (∀ n ∈ rest, Path.IsName n) → Path.Cleaned (Path.isAbsolute start)
              (Path.names start ++ (more ++ c :: rest)) := by
          intro c e rest hc hrest
          rw [← List.append_assoc, ← hreached.names, ← hreached.absolute]
          refine (Path.cleaned_names path).append ?_
          intro n hn
          rcases List.mem_cons.1 hn with rfl | hn
          · exact ht.isName_of_child hc
          · exact hrest n hn
        have hsame := Path.spell_injective (hcleaned ha hrest) (by simp) (hcleaned hb hrest')
          (by simp) (heq.symm.trans heq')
        have htail := List.append_cancel_left (List.append_cancel_left hsame)
        exact hne (List.cons.inj htail).1

end

theorem ne_nil_of_resolve {cwd : Place} {found : Place × Entry}
    (h : t.resolve cwd path = .ok found) : path ≠ [] := by
  rintro rfl
  cases h

/-- **Source discovery is exact.**  In a tree as a file system holds it, let a path lead to a
    directory of the tree.  Then the search succeeds, and what it finds is in strictly ascending
    order: exactly the cleaned paths of the source files below the directory, behind directories
    that the search is not kept out of.  The name of the directory itself does not matter. -/
theorem source_files_exact (t : Tree) (cwd root : Place) (extensions : List Text) (path : Text)
    (ht : t.WellFormed) (hroot : t.resolve cwd path = .ok (root, .directory))
    (hlisted : t.get? root = some .directory) :
    ∃ files, t.sourceFiles cwd extensions path = .ok files
      ∧ files.Pairwise (· < ·)
      ∧ ∀ file, file ∈ files ↔ ∃ dirs name, t.Findable extensions root dirs name
        ∧ file = Path.below path (join [slash] (dirs ++ [name])) := by
  have hne := ne_nil_of_resolve hroot
  have hreached := reached_start hne
  have hfound : t.sourceFiles cwd extensions path
      = .ok (sortOn id (t.visit extensions path path (Path.base path) root .directory)) := by
    have hlists : ¬ (Entry.directory = .directory ∧ (!t.hasDirectory root) = true) := by
      simp [hasDirectory, hlisted]
    rw [sourceFiles, hroot]
    show (if _ then _ else _ : Except PathError (List Text)) = _
    rw [if_neg hlists]
    rfl
  have hperm := sortOn_perm id (t.visit extensions path path (Path.base path) root .directory)
  refine ⟨_, hfound, ?_, ?_⟩
  · refine pairwise_lt_of_nodup ?_ ?_
    · exact sortedOn_sortOn id _
    · exact hperm.nodup_iff.2 (nodup_visit ht hreached (Or.inl rfl))
  · intro file
    rw [hperm.mem_iff, mem_visit ht hreached (Or.inl rfl)]
    refine exists_congr fun dirs => exists_congr fun name => and_congr_right fun hfindable => ?_
    obtain ⟨content, hcontent⟩ := hfindable.file
    have hnames : ∀ n ∈ dirs ++ [name], Path.IsName n := by
      intro n hn
      exact ht.isName_of_get? hcontent (List.mem_append_right root hn)
    rw [Path.below_join hne hnames (by simp), List.nil_append]

/-- A directory of dependencies with a package, a declaration file and built files. -/
def dependencyTree : Tree where
  entries :=
    [([text "node_modules"], .directory),
      ([text "node_modules", text "dist"], .directory),
      ([text "node_modules", text "dist", text "b.js"], .file []),
      ([text "node_modules", text "x"], .directory),
      ([text "node_modules", text "x", text ".c.js"], .file []),
      ([text "node_modules", text "x", text "c.d.ts"], .file []),
      ([text "node_modules", text "x.js"], .file [])]

/-- The search may start in a directory that it would be kept out of, and comes to `x` before it
    comes to `x.js`, whose path is the smaller one. -/
theorem source_files_exact_dependencyTree :
    dependencyTree.sourceFiles [] [text ".js", text ".ts"] (text "./node_modules/")
        = .ok [text "node_modules/x.js", text "node_modules/x/.c.js"]
      ∧ (∃ dirs name, dependencyTree.Findable [text ".js", text ".ts"] [text "node_modules"] dirs
          name ∧ text "node_modules/x/.c.js"
            = Path.below (text "./node_modules/") (join [slash] (dirs ++ [name])))
      ∧ ¬ ∃ dirs name, dependencyTree.Findable [text ".js", text ".ts"] [text "node_modules"] dirs
          name ∧ text "node_modules/dist/b.js"
            = Path.below (text "./node_modules/") (join [slash] (dirs ++ [name])) := by
  have hfound : dependencyTree.sourceFiles [] [text ".js", text ".ts"] (text "./node_modules/")
      = .ok [text "node_modules/x.js", text "node_modules/x/.c.js"] := by decide +kernel
  obtain ⟨files, hfiles, -, hmem⟩ := source_files_exact dependencyTree [] [text "node_modules"]
    [text ".js", text ".ts"] (text "./node_modules/")
    ⟨by decide +kernel, by decide +kernel, by decide +kernel⟩ (by decide +kernel)
    (by decide +kernel)
  rw [hfound] at hfiles
  cases hfiles
  refine ⟨hfound, (hmem _).1 (by decide +kernel), ?_⟩
  rw [← hmem]
  decide +kernel

end Tree

end ImportBlock
