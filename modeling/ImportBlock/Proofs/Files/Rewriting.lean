import Mathlib
import ImportBlock.Files.Tree

/-! # Files with other contents

    A tree is rewritten when files get other contents and nothing else happens: no entry
    comes or goes, no file becomes a directory, and what could be read or written before
    still can.  `Rewritten` says so, with the change of the contents as a function of the
    place.

    Paths are followed by looking at directories only, so in a rewritten tree every path
    leads to where it led before, or fails as it failed before: `Rewritten.resolve`. -/

namespace ImportBlock

/-- An entry whose content, if it is a file, is changed. -/
def Entry.mapContent (f : Text → Text) : Entry → Entry
  | .directory => .directory
  | .file content => .file (f content)

theorem Entry.map_mapContent_eq {found : Option Entry} {f : Text → Text}
    (h : ∀ s, found = some (.file s) → f s = s) : found.map (mapContent f) = found := by
  cases found with
  | none => rfl
  | some e =>
      cases e with
      | directory => rfl
      | file s =>
          show some (Entry.file (f s)) = some (Entry.file s)
          rw [h s rfl]

namespace Tree

/-- The second tree holds what the first one holds, but a file at `q` with content `s` has
    the content `f q s`. -/
structure Rewritten (f : Place → Text → Text) (t t' : Tree) : Prop where
  get? : ∀ q, t'.get? q = (t.get? q).map (Entry.mapContent (f q))
  unreadable : t'.unreadable = t.unreadable
  unwritable : t'.unwritable = t.unwritable

section

variable {f g : Place → Text → Text} {t t' t'' : Tree} {cwd : Place} {path : Text}

/-- A tree in which no content changes is rewritten to itself. -/
theorem Rewritten.of_eq (h : ∀ q s, t.get? q = some (.file s) → f q s = s) :
    Rewritten f t t := ⟨fun q => (Entry.map_mapContent_eq (h q)).symm, rfl, rfl⟩

theorem Rewritten.trans (h : Rewritten f t t') (h' : Rewritten g t' t'') :
    Rewritten (fun q s => g q (f q s)) t t'' := by
  refine ⟨fun q => ?_, h'.unreadable.trans h.unreadable, h'.unwritable.trans h.unwritable⟩
  rw [h'.get? q, h.get? q, Option.map_map]
  refine congrArg (Option.map · (t.get? q)) (funext fun e => ?_)
  cases e with
  | directory => rfl
  | file s => rfl

/-- Contents that change at some places and are left alone at all others. -/
def changeAt (change : Place → Text → Text) (places : List Place) (q : Place) (s : Text) : Text :=
  if q ∈ places then change q s else s

theorem changeAt_of_mem {change : Place → Text → Text} {places : List Place} {q : Place}
    (h : q ∈ places) (s : Text) : changeAt change places q s = change q s := if_pos h

theorem changeAt_of_not_mem {change : Place → Text → Text} {places : List Place} {q : Place}
    (h : q ∉ places) (s : Text) : changeAt change places q s = s := if_neg h

/-- Changes at places of which none is met twice are one change at all of them. -/
theorem changeAt_append {change : Place → Text → Text} {ps qs : List Place} (h : ∀ q ∈ ps, q ∉ qs)
    (q : Place) (s : Text) :
    changeAt change qs q (changeAt change ps q s) = changeAt change (ps ++ qs) q s := by
  by_cases hp : q ∈ ps
  · rw [changeAt_of_mem hp, changeAt_of_not_mem (h q hp),
      changeAt_of_mem (List.mem_append_left qs hp)]
  · rw [changeAt_of_not_mem hp]
    by_cases hq : q ∈ qs
    · rw [changeAt_of_mem hq, changeAt_of_mem (List.mem_append_right ps hq)]
    · have hboth : q ∉ ps ++ qs := fun hmem => (List.mem_append.1 hmem).elim hp hq
      rw [changeAt_of_not_mem hq, changeAt_of_not_mem hboth]

/-- What is rewritten at some places is unchanged at all others. -/
theorem Rewritten.get?_of_not_mem {change : Place → Text → Text} {places : List Place}
    (h : Rewritten (changeAt change places) t t') {q : Place} (hq : q ∉ places) :
    t'.get? q = t.get? q := by
  rw [h.get? q]
  exact Entry.map_mapContent_eq fun s _ => changeAt_of_not_mem hq s

/-- A file that keeps its content is not changed. -/
theorem rewritten_unchanged {p : Place} {s : Text} (h : t.get? p = some (.file s))
    {change : Place → Text → Text} (hkeep : change p s = s) :
    Rewritten (changeAt change [p]) t t := by
  refine .of_eq fun q old hq => ?_
  by_cases hmem : q ∈ [p]
  · rw [List.mem_singleton.1 hmem, h] at hq
    cases hq
    rw [changeAt_of_mem hmem, List.mem_singleton.1 hmem]
    exact hkeep
  · exact changeAt_of_not_mem hmem old

/-- Writing to a file that is there changes that file only. -/
theorem rewritten_put {p : Place} {s : Text} (h : t.get? p = some (.file s))
    (change : Place → Text → Text) :
    Rewritten (changeAt change [p]) t (t.put p (.file (change p s))) := by
  have hp : p ≠ [] := by
    rintro rfl
    exact absurd (Option.some.inj h) Entry.noConfusion
  refine ⟨fun q => ?_, rfl, rfl⟩
  by_cases hq : q = p
  · subst hq
    rw [get?_put t hp, h]
    show _ = some (Entry.file (changeAt change [q] q s))
    rw [changeAt_of_mem List.mem_cons_self]
  · rw [get?_put_of_ne t hq]
    have hother : q ∉ [p] := fun hmem => hq (List.mem_singleton.1 hmem)
    exact (Entry.map_mapContent_eq fun old _ => changeAt_of_not_mem hother old).symm

/-! ## Following paths -/

/-- The places that are passed on the way along some names. -/
def passed (p : Place) : List Text → List Place
  | [] => []
  | name :: rest => (p ++ [name]) :: passed (p ++ [name]) rest

theorem unreadable_makeDirectories (t : Tree) (p : Place) (names : List Text) :
    (t.makeDirectories p names).unreadable = t.unreadable := by
  induction names generalizing t p with
  | nil => rfl
  | cons name rest ih =>
      rw [makeDirectories, ih]
      split
      · rfl
      · rfl

theorem unwritable_makeDirectories (t : Tree) (p : Place) (names : List Text) :
    (t.makeDirectories p names).unwritable = t.unwritable := by
  induction names generalizing t p with
  | nil => rfl
  | cons name rest ih =>
      rw [makeDirectories, ih]
      split
      · rfl
      · rfl

/-- Making directories adds directories where there was nothing, and nothing else. -/
theorem get?_makeDirectories (t : Tree) (p : Place) (names : List Text) (q : Place) :
    (t.makeDirectories p names).get? q
      = (t.get? q).or (if q ∈ passed p names then some .directory else none) := by
  induction names generalizing t p with
  | nil => exact (Option.or_none).symm
  | cons name rest ih =>
      have hne : p ++ [name] ≠ [] := List.append_ne_nil_of_right_ne_nil p (List.cons_ne_nil _ _)
      rw [makeDirectories, ih]
      simp only [passed, List.mem_cons]
      by_cases hq : q = p ++ [name]
      · subst hq
        rw [if_pos (Or.inl rfl)]
        cases hold : t.get? (p ++ [name]) with
        | none =>
            rw [Option.isSome_none, if_neg Bool.false_ne_true, get?_put t hne]
            rfl
        | some e =>
            rw [Option.isSome_some, if_pos rfl, hold]
            rfl
      · have hmade : (if (t.get? (p ++ [name])).isSome = true then t
            else t.put (p ++ [name]) .directory).get? q = t.get? q := by
          split
          · rfl
          · exact get?_put_of_ne t hq .directory
        rw [hmade]
        simp only [hq, false_or]

theorem Rewritten.makeDirectories (h : Rewritten f t t') (p : Place) (names : List Text) :
    Rewritten f (t.makeDirectories p names) (t'.makeDirectories p names) := by
  refine ⟨fun q => ?_, ?_, ?_⟩
  case refine_2 => rw [unreadable_makeDirectories, unreadable_makeDirectories, h.unreadable]
  case refine_3 => rw [unwritable_makeDirectories, unwritable_makeDirectories, h.unwritable]
  rw [get?_makeDirectories, get?_makeDirectories, h.get? q]
  cases t.get? q with
  | some e => rfl
  | none =>
      show (if q ∈ passed p names then some Entry.directory else none) = Option.map _ _
      split
      · rfl
      · rfl

/-- The way along some names is the same, since only directories are passed. -/
theorem Rewritten.walk (h : Rewritten f t t') (p : Place) (names : List Text) :
    t'.walk p names = t.walk p names := by
  induction names generalizing p with
  | nil => rfl
  | cons name rest ih =>
      rw [Tree.walk, Tree.walk, h.get? p]
      cases t.get? p with
      | none => rfl
      | some e =>
          cases e with
          | file s => rfl
          | directory =>
              show (if _ then _ else _) = _
              rw [ih, ih, ih]

/-- What stands where some names lead. -/
def lookUp (t : Tree) (p : Place) (names : List Text) : Except Fault (Place × Entry) := do
  let q ← t.walk p names
  match t.get? q with
  | none => throw .missing
  | some e => return (q, e)

/-- What is found in a tree, as it is found in the rewritten one. -/
def mapFound (f : Place → Text → Text) (found : Place × Entry) : Place × Entry :=
  (found.1, found.2.mapContent (f found.1))

theorem Rewritten.lookUp (h : Rewritten f t t') (p : Place) (names : List Text) :
    t'.lookUp p names = (t.lookUp p names).map (mapFound f) := by
  rw [Tree.lookUp, Tree.lookUp, h.walk]
  cases t.walk p names with
  | error fault => rfl
  | ok q =>
      show (match t'.get? q with
        | none => throw Fault.missing
        | some e => pure (q, e) : Except Fault (Place × Entry)) = Except.map _
          (match t.get? q with
          | none => throw Fault.missing
          | some e => pure (q, e))
      rw [h.get? q]
      cases t.get? q with
      | none => rfl
      | some e => rfl

/-- The tree as it is for whoever follows a path from a working directory. -/
def seen (t : Tree) (cwd : Place) (path : Text) : Tree :=
  if Path.isAbsolute path then t else t.makeDirectories [] cwd

theorem Rewritten.seen (h : Rewritten f t t') :
    Rewritten f (t.seen cwd path) (t'.seen cwd path) := by
  rw [Tree.seen, Tree.seen]
  split
  · exact h
  · exact h.makeDirectories [] cwd

/-- A path is followed in the tree that is seen, unless no path may have its text. -/
theorem resolve_eq (t : Tree) (cwd : Place) (path : Text) :
    t.resolve cwd path
      = if path.contains 0 then .error .invalid
        else if path = [] then .error .missing
        else if longestPath < path.length then .error .tooLong
        else (t.seen cwd path).lookUp (if Path.isAbsolute path then [] else cwd)
          (Text.split Text.slash path) := by
  have hstart : (if Path.isAbsolute path = true then (t, ([] : Place))
      else (t.makeDirectories [] cwd, cwd))
      = (t.seen cwd path, if Path.isAbsolute path = true then [] else cwd) := by
    rw [seen]
    split
    · rfl
    · rfl
  rw [resolve, hstart]
  dsimp only
  split
  · rfl
  · split
    · rfl
    · split
      · rfl
      · rfl

/-- **Paths lead to where they led**, and find the new contents there. -/
theorem Rewritten.resolve (h : Rewritten f t t') (cwd : Place) (path : Text) :
    t'.resolve cwd path = (t.resolve cwd path).map (mapFound f) := by
  rw [resolve_eq, resolve_eq, h.seen.lookUp]
  split
  · rfl
  · split
    · rfl
    · split
      · rfl
      · rfl

/-! ## Files that paths lead to -/

theorem read_eq_ok_iff {p : Place} {e : Entry} {s : Text} :
    t.read path p e = .ok s ↔ e = .file s ∧ t.readFault? p = none := by
  cases e with
  | directory => simp [Tree.read]
  | file content =>
      rw [Tree.read]
      cases t.readFault? p with
      | none => simp
      | some fault => simp

theorem Rewritten.writeFault? (h : Rewritten f t t') (p : Place) :
    t'.writeFault? p = t.writeFault? p := by
  rw [Tree.writeFault?, Tree.writeFault?, h.unwritable]

theorem Rewritten.stored? (h : Rewritten f t t') (p : Place) (content : Text) :
    t'.stored? p content = t.stored? p content := by
  rw [Tree.stored?, Tree.stored?, h.writeFault?]

/-- What stands at a place is read in the rewritten tree as it is in the old one. -/
theorem Rewritten.read_eq (h : Rewritten f t t') (path : Text) (p : Place) (e : Entry) :
    t'.read path p e = t.read path p e := by
  cases e with
  | directory => rfl
  | file s => rw [Tree.read, Tree.read, readFault?, readFault?, h.unreadable]

/-- A file that is read in the rewritten tree has its new content, and one that cannot be read
    still cannot. -/
theorem Rewritten.read (h : Rewritten f t t') (path : Text) (p : Place) (e : Entry) :
    t'.read path p (e.mapContent (f p)) = (t.read path p e).map (f p) := by
  rw [h.read_eq]
  cases e with
  | directory => rfl
  | file s =>
      show t.read path p (.file (f p s)) = _
      rw [Tree.read, Tree.read]
      cases t.readFault? p with
      | none => rfl
      | some fault => rfl

/-- The place and the content of the file that a path leads to, if it leads to one and that can
    be read. -/
def file? (t : Tree) (cwd : Place) (path : Text) : Option (Place × Text) :=
  match t.resolve cwd path with
  | .ok (p, e) => (t.read path p e).toOption.map fun content => (p, content)
  | .error _ => none

theorem file?_eq_some_iff {p : Place} {s : Text} :
    t.file? cwd path = some (p, s)
      ↔ t.resolve cwd path = .ok (p, .file s) ∧ t.readFault? p = none := by
  rw [file?]
  constructor
  · intro h
    split at h
    · rename_i q e hfound
      cases hread : t.read path q e with
      | error err =>
          rw [hread] at h
          cases h
      | ok content =>
          rw [hread] at h
          cases h
          obtain ⟨rfl, hfault⟩ := read_eq_ok_iff.1 hread
          exact ⟨hfound, hfault⟩
    · cases h
  · rintro ⟨hfound, hfault⟩
    rw [hfound]
    dsimp only
    rw [read_eq_ok_iff.2 ⟨rfl, hfault⟩]
    rfl

theorem get?_of_lookUp {p q : Place} {names : List Text} {e : Entry}
    (h : t.lookUp p names = .ok (q, e)) : t.get? q = some e := by
  rw [lookUp] at h
  cases hwalk : t.walk p names with
  | error fault =>
      rw [hwalk] at h
      cases h
  | ok q' =>
      rw [hwalk] at h
      change (match t.get? q' with
        | none => throw Fault.missing
        | some e => pure (q', e) : Except Fault (Place × Entry)) = .ok (q, e) at h
      cases hq : t.get? q' with
      | none =>
          rw [hq] at h
          cases h
      | some e' =>
          rw [hq] at h
          cases h
          exact hq

/-- The directories that are seen on top of a tree hide no file and add none. -/
theorem get?_of_seen {p : Place} {s : Text}
    (h : (t.seen cwd path).get? p = some (.file s)) : t.get? p = some (.file s) := by
  rw [seen] at h
  split at h
  · exact h
  · rw [get?_makeDirectories] at h
    cases hp : t.get? p with
    | some e =>
        rw [hp] at h
        exact h
    | none =>
        rw [hp, Option.none_or] at h
        split at h
        · cases h
        · cases h

theorem get?_of_resolve {p : Place} {s : Text} (h : t.resolve cwd path = .ok (p, .file s)) :
    t.get? p = some (.file s) := by
  rw [resolve_eq] at h
  split at h
  · cases h
  · split at h
    · cases h
    · split at h
      · cases h
      · exact get?_of_seen (get?_of_lookUp h)

theorem get?_of_file? {p : Place} {s : Text} (h : t.file? cwd path = some (p, s)) :
    t.get? p = some (.file s) := get?_of_resolve (file?_eq_some_iff.1 h).1

theorem Rewritten.file? (h : Rewritten f t t') (cwd : Place) (path : Text) :
    t'.file? cwd path = (t.file? cwd path).map fun file => (file.1, f file.1 file.2) := by
  rw [Tree.file?, Tree.file?, h.resolve]
  cases t.resolve cwd path with
  | error fault => rfl
  | ok found =>
      obtain ⟨p, e⟩ := found
      show (t'.read path p (e.mapContent (f p))).toOption.map (fun content => (p, content))
        = ((t.read path p e).toOption.map fun content => (p, content)).map fun file =>
            (file.1, f file.1 file.2)
      rw [h.read]
      cases t.read path p e with
      | error err => rfl
      | ok content => rfl

/-- A path to a file that was left alone, or to none, leads to the same as before. -/
theorem Rewritten.resolve_of_eq (h : Rewritten f t t')
    (hpath : ∀ p s, t.resolve cwd path = .ok (p, .file s) → f p s = s) :
    t'.resolve cwd path = t.resolve cwd path := by
  rw [h.resolve]
  cases hfound : t.resolve cwd path with
  | error fault => rfl
  | ok found =>
      obtain ⟨p, e⟩ := found
      cases e with
      | directory => rfl
      | file s =>
          show Except.ok (p, Entry.file (f p s)) = Except.ok (p, Entry.file s)
          rw [hpath p s hfound]

/-- The places of the files that some paths lead to. -/
def filePlaces (t : Tree) (cwd : Place) (paths : List Text) : List Place :=
  paths.filterMap fun path => (t.file? cwd path).map Prod.fst

theorem mem_filePlaces {paths : List Text} {p : Place} :
    p ∈ t.filePlaces cwd paths ↔ ∃ path ∈ paths, ∃ s, t.file? cwd path = some (p, s) := by
  rw [filePlaces, List.mem_filterMap]
  refine exists_congr fun path => and_congr_right fun _ => ?_
  rw [Option.map_eq_some_iff]
  constructor
  · rintro ⟨⟨q, s⟩, hfile, rfl⟩
    exact ⟨s, hfile⟩
  · rintro ⟨s, hfile⟩
    exact ⟨(p, s), hfile, rfl⟩

theorem filePlaces_cons (t : Tree) (cwd : Place) (path : Text) (rest : List Text) :
    t.filePlaces cwd (path :: rest) = t.filePlaces cwd [path] ++ t.filePlaces cwd rest :=
  List.filterMap_append (l := [path])

theorem Rewritten.filePlaces (h : Rewritten f t t') (cwd : Place) (paths : List Text) :
    t'.filePlaces cwd paths = t.filePlaces cwd paths := by
  refine List.filterMap_congr fun path _ => ?_
  rw [h.file?, Option.map_map]
  rfl

end

end Tree
end ImportBlock
