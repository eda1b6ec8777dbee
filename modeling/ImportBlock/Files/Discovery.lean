import ImportBlock.Files.Tree

/-! # Source files

    The source files below a directory are the files with one of the given
    extensions, declaration files left out.  Directories that hold dependencies or
    build output, and hidden ones, are not searched.

    The search is meant for trees as `Tree` has them, where every directory can be listed
    and everything that is no directory is a file.  It goes down as deep as the tree does,
    also where the path would be too long to be followed. -/

namespace ImportBlock

open Text

/-- The names of directories that are never searched. -/
def skippedDirectories : List Text :=
  [text "node_modules", text "vendor", text "dist", text "build", text "coverage"]

/-- Is a directory of that name passed over?  Hidden directories are. -/
def isSkipped (name : Text) : Bool :=
  skippedDirectories.contains name || name.head? == some dot

/-- The ends of the names of declaration files. -/
def declarationEnds : List Text := [text ".d.ts", text ".d.mts", text ".d.cts"]

/-- Does the name of a file make it a source file? -/
def isSourceFile (extensions : List Text) (filename : Text) : Bool :=
  let name := Path.base filename
  let ext := Path.extension name
  !(declarationEnds.any fun e => e.isSuffixOf name) && ext != [] && extensions.contains ext

namespace Tree

/-- The names that lead from a place to another one below it. -/
def namesBelow (root p : Place) : Option (List Text) :=
  if root.isPrefixOf p ∧ root ≠ p then some (p.drop root.length) else none

/-- An entry by its name in a directory, if it stands in that directory. -/
def child? (p : Place) (entry : Place × Entry) : Option (Text × Entry) :=
  match namesBelow p entry.1 with
  | some [name] => some (name, entry.2)
  | _ => none

/-- The names in a directory, each with what it stands for, in byte-wise order. -/
def children (t : Tree) (p : Place) : List (Text × Entry) :=
  sortOn Prod.fst (t.entries.filterMap (child? p))

/-- A name below a place leads to the place that it is added to. -/
theorem namesBelow_eq_singleton {p q : Place} {name : Text} :
    namesBelow p q = some [name] ↔ q = p ++ [name] := by
  rw [namesBelow]
  constructor
  · intro h
    split at h
    · rename_i hbelow
      obtain ⟨rest, rfl⟩ := List.isPrefixOf_iff_prefix.1 hbelow.1
      rw [List.drop_left] at h
      rw [Option.some.inj h]
    · cases h
  · rintro rfl
    have hbelow : p.isPrefixOf (p ++ [name]) = true ∧ p ≠ p ++ [name] := by
      refine ⟨List.isPrefixOf_iff_prefix.2 (List.prefix_append p [name]), fun heq => ?_⟩
      have hlen := congrArg List.length heq
      rw [List.length_append, List.length_singleton] at hlen
      omega
    rw [if_pos hbelow, List.drop_left]

/-- An entry stands in a directory if its place has one name more. -/
theorem child?_eq_some {p : Place} {entry : Place × Entry} {name : Text} {e : Entry} :
    child? p entry = some (name, e) ↔ entry = (p ++ [name], e) := by
  obtain ⟨q, e'⟩ := entry
  rw [child?]
  constructor
  · intro h
    split at h
    · rename_i name' hbelow
      cases h
      exact congrArg (·, e') (namesBelow_eq_singleton.1 hbelow)
    · cases h
  · intro h
    cases h
    rw [namesBelow_eq_singleton.2 rfl]

/-- The children of a place are the entries one name below it. -/
theorem mem_children {t : Tree} {p : Place} {name : Text} {e : Entry} :
    (name, e) ∈ t.children p ↔ (p ++ [name], e) ∈ t.entries := by
  rw [children, (sortOn_perm _ _).mem_iff, List.mem_filterMap]
  constructor
  · rintro ⟨entry, hentry, hchild⟩
    rw [← child?_eq_some.1 hchild]
    exact hentry
  · intro hentry
    exact ⟨(p ++ [name], e), hentry, child?_eq_some.2 rfl⟩

/-- The number of names of the deepest entry. -/
def depth (t : Tree) : Nat := t.entries.foldr (fun entry deepest => max entry.1.length deepest) 0

theorem length_le_depth {t : Tree} {entry : Place × Entry} (h : entry ∈ t.entries) :
    entry.1.length ≤ t.depth := by
  obtain ⟨entries, _, _⟩ := t
  rw [depth]
  induction entries with
  | nil => cases h
  | cons first rest ih =>
      rw [List.foldr_cons]
      rcases List.mem_cons.1 h with rfl | h
      · exact Nat.le_max_left _ _
      · exact Nat.le_trans (ih h) (Nat.le_max_right _ _)

theorem length_lt_depth_of_mem_children {t : Tree} {p : Place} {child : Text × Entry}
    (h : child ∈ t.children p) : p.length < t.depth := by
  have hlen := length_le_depth (mem_children.1 h)
  rw [List.length_append, List.length_singleton] at hlen
  omega

/-- Visits the place that a path leads to, and everything below it: the source files found on
    the way, each by its path.  A directory is passed over for its name, unless its path is the
    one that the search started with. -/
def visit (t : Tree) (extensions : List Text) (start path name : Text) (p : Place) :
    Entry → List Text
  | .file _ => if isSourceFile extensions path then [path] else []
  | .directory =>
      if path ≠ start ∧ isSkipped name then []
      else (t.children p).attach.flatMap fun ⟨(child, e), _⟩ =>
        t.visit extensions start (Path.below path child) child (p ++ [child]) e
termination_by t.depth - p.length
decreasing_by
  have hlen := length_lt_depth_of_mem_children ‹(child, e) ∈ t.children p›
  rw [List.length_append, List.length_singleton]
  omega

/-- The paths of the source files below a directory, or of the file itself, in
    byte-wise order. -/
def sourceFiles (t : Tree) (cwd : Place) (extensions : List Text) (path : Text) :
    Except PathError (List Text) := do
  let (p, e) ← (t.resolve cwd path).mapError fun fault => ⟨.lstat, path, fault⟩
  if e = .directory ∧ !t.hasDirectory p then throw ⟨.list, path, .missing⟩
  return sortOn id (t.visit extensions path path (Path.base path) p e)

end Tree

end ImportBlock
