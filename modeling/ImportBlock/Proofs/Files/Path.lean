import Mathlib
import ImportBlock.Files.Path
import ImportBlock.Proofs.Text.Cuts

/-! # Cleaned paths

    A path is cleaned by following its names from nowhere.  What comes out has a fixed form,
    `Cleaned`: first some `..`, none if the path is absolute, and then proper names.  A path
    that is spelled from such names is read back to them, `names_spell`, so that cleaned paths
    are equal only if their names are (`spell_injective`).

    Hence what is put below a path adds its names to those of the path, `below_join`, and the
    last of them is the base of the result, `base_spell`. -/

namespace ImportBlock
namespace Path

open Text

/-! ## Names -/

/-- A name that something in a directory can have. -/
def IsName (name : Text) : Prop :=
  name ≠ [] ∧ slash ∉ name ∧ name ≠ here ∧ name ≠ above

instance (name : Text) : Decidable (IsName name) :=
  inferInstanceAs (Decidable (name ≠ [] ∧ slash ∉ name ∧ name ≠ here ∧ name ≠ above))

/-- The names that a path comes down to. -/
def names (p : Text) : List Text := follow (isAbsolute p) [] (split slash p)

/-- The text of a path with the given names. -/
def spell (absolute : Bool) (ns : List Text) : Text :=
  if absolute then slash :: join [slash] ns
  else if ns = [] then here
  else join [slash] ns

theorem clean_eq_spell (p : Text) : clean p = spell (isAbsolute p) (names p) := rfl

/-! ## Following names -/

section

variable {absolute : Bool} {place ns : List Text} {name : Text}

theorem follow_append (absolute : Bool) (place xs ys : List Text) :
    follow absolute place (xs ++ ys) = follow absolute (follow absolute place xs) ys := by
  induction xs generalizing place with
  | nil => rfl
  | cons x xs ih =>
      rw [List.cons_append, follow, follow]
      split
      · exact ih place
      · split
        · split
          · exact ih _
          · split
            · exact ih _
            · exact ih _
        · exact ih _

theorem follow_of_isName (h : ∀ name ∈ ns, IsName name) :
    follow absolute place ns = place ++ ns := by
  induction ns generalizing place with
  | nil => exact (List.append_nil place).symm
  | cons name ns ih =>
      obtain ⟨hne, -, hhere, habove⟩ := h name List.mem_cons_self
      rw [follow, if_neg (not_or.2 ⟨hne, hhere⟩), if_neg habove,
        ih fun n hn => h n (List.mem_cons_of_mem name hn), List.append_assoc]
      rfl

theorem follow_replicate_above (i j : Nat) :
    follow false (List.replicate i above) (List.replicate j above)
      = List.replicate (i + j) above := by
  induction j generalizing i with
  | zero => rfl
  | succ j ih =>
      have hnext := ih (i + 1)
      have hstep : follow false (List.replicate i above) (above :: List.replicate j above)
          = follow false (List.replicate (i + 1) above) (List.replicate j above) := by
        rw [follow, if_neg (by decide), if_pos rfl]
        cases i with
        | zero => rfl
        | succ i =>
            rw [List.replicate_succ' , List.getLast?_concat]
            dsimp only
            rw [if_pos rfl, ← List.replicate_succ', ← List.replicate_succ']
      rw [List.replicate_succ, hstep, hnext]
      congr 1
      omega

/-! ## The form of cleaned paths -/

/-- Some names of the directory above, none in an absolute path, and then proper names. -/
def Cleaned (absolute : Bool) (ns : List Text) : Prop :=
  ∃ ups rest, ns = List.replicate ups above ++ rest ∧ (absolute = true → ups = 0)
    ∧ ∀ name ∈ rest, IsName name

theorem cleaned_nil (absolute : Bool) : Cleaned absolute [] :=
  ⟨0, [], rfl, fun _ => rfl, fun _ h => nomatch h⟩

theorem Cleaned.append (h : Cleaned absolute ns) {more : List Text}
    (hmore : ∀ name ∈ more, IsName name) : Cleaned absolute (ns ++ more) := by
  obtain ⟨ups, rest, rfl, habsolute, hrest⟩ := h
  refine ⟨ups, rest ++ more, List.append_assoc _ _ _, habsolute, ?_⟩
  intro name hname
  rcases List.mem_append.1 hname with hname | hname
  · exact hrest name hname
  · exact hmore name hname

theorem slash_not_mem_above : slash ∉ above := by decide

theorem Cleaned.mem (h : Cleaned absolute ns) (hname : name ∈ ns) : name ≠ [] ∧ slash ∉ name := by
  obtain ⟨ups, rest, rfl, -, hrest⟩ := h
  rcases List.mem_append.1 hname with hname | hname
  · rw [List.eq_of_mem_replicate hname]
    exact ⟨List.cons_ne_nil _ _, slash_not_mem_above⟩
  · exact ⟨(hrest name hname).1, (hrest name hname).2.1⟩

/-- Going up once: from nowhere, from a place that is itself above the start, or from a name. -/
theorem Cleaned.up (h : Cleaned absolute place) :
    Cleaned absolute
      (match place.getLast? with
        | none => if absolute then [] else [above]
        | some last => if last = above then place ++ [above] else place.dropLast) := by
  obtain ⟨ups, rest, rfl, habsolute, hrest⟩ := h
  rcases List.eq_nil_or_concat rest with rfl | ⟨init, last, rfl⟩
  · rw [List.append_nil]
    cases ups with
    | zero =>
        cases absolute with
        | true => exact cleaned_nil true
        | false =>
            show Cleaned false [above]
            exact ⟨1, [], rfl, fun h => absurd h Bool.false_ne_true, fun _ h => nomatch h⟩
    | succ ups =>
        rw [List.replicate_succ', List.getLast?_concat]
        dsimp only
        rw [if_pos rfl, ← List.replicate_succ', ← List.replicate_succ']
        refine ⟨ups + 2, [], (List.append_nil _).symm, ?_, fun _ h => nomatch h⟩
        intro h
        exact absurd (habsolute h) (Nat.succ_ne_zero ups)
  · have hlast : IsName last := hrest last (by simp)
    rw [List.concat_eq_append, ← List.append_assoc, List.getLast?_concat]
    dsimp only
    rw [if_neg hlast.2.2.2, List.dropLast_concat]
    exact ⟨ups, init, rfl, habsolute, fun n hn => hrest n (by simp [hn])⟩

/-- **What is followed is cleaned.** -/
theorem Cleaned.follow (h : Cleaned absolute place) (hns : ∀ name ∈ ns, slash ∉ name) :
    Cleaned absolute (Path.follow absolute place ns) := by
  induction ns generalizing place with
  | nil => exact h
  | cons name ns ih =>
      have hrest : ∀ n ∈ ns, slash ∉ n := fun n hn => hns n (List.mem_cons_of_mem name hn)
      rw [Path.follow]
      split
      · exact ih h hrest
      · rename_i hother
        split
        · have hup := h.up
          split
          · rename_i hnone
            rw [hnone] at hup
            exact ih hup hrest
          · rename_i last hsome
            rw [hsome] at hup
            dsimp only at hup
            split
            · rename_i hlast
              rw [if_pos hlast] at hup
              exact ih hup hrest
            · rename_i hlast
              rw [if_neg hlast] at hup
              exact ih hup hrest
        · rename_i habove
          refine ih (h.append ?_) hrest
          intro n hn
          rw [List.mem_singleton.1 hn]
          exact ⟨fun hnil => hother (Or.inl hnil), hns name List.mem_cons_self,
            fun hhere => hother (Or.inr hhere), habove⟩

theorem cleaned_names (p : Text) : Cleaned (isAbsolute p) (names p) := by
  refine (cleaned_nil _).follow ?_
  intro name hname
  exact (exists_eq_of_mem_split hname).1

/-- Cleaned names are followed one after the other. -/
theorem Cleaned.follow_eq (h : Cleaned absolute ns) : Path.follow absolute [] ns = ns := by
  obtain ⟨ups, rest, rfl, habsolute, hrest⟩ := h
  rw [follow_append, follow_of_isName hrest]
  congr 1
  cases absolute with
  | true =>
      rw [habsolute rfl]
      rfl
  | false =>
      have hups := follow_replicate_above 0 ups
      rw [Nat.zero_add] at hups
      exact hups

/-! ## Spelling and reading back -/

theorem isAbsolute_spell (h : Cleaned absolute ns) (hne : ns ≠ []) :
    isAbsolute (spell absolute ns) = absolute := by
  rw [spell]
  cases absolute with
  | true => rfl
  | false =>
      rw [if_neg Bool.false_ne_true, if_neg hne]
      cases ns with
      | nil => exact absurd rfl hne
      | cons first ns =>
          obtain ⟨hfirst, hslash⟩ := h.mem List.mem_cons_self
          cases first with
          | nil => exact absurd rfl hfirst
          | cons b first =>
              rw [join_cons_head]
              have hb : b ≠ slash := by
                rintro rfl
                exact hslash List.mem_cons_self
              show (some b == some slash) = false
              exact beq_eq_false_iff_ne.2 fun heq => hb (Option.some.inj heq)

/-- **A cleaned path is read back** to the names that it is spelled from. -/
theorem names_spell (h : Cleaned absolute ns) (hne : ns ≠ []) :
    names (spell absolute ns) = ns := by
  rw [names, isAbsolute_spell h hne, spell]
  have hsplit : split slash (join [slash] ns) = ns := split_join hne fun n hn => (h.mem hn).2
  cases absolute with
  | true =>
      rw [if_pos rfl]
      have hskip : split slash (slash :: join [slash] ns) = [] :: ns := by
        rw [split, if_pos rfl, hsplit]
      rw [hskip, Path.follow, if_pos (Or.inl rfl), h.follow_eq]
  | false => rw [if_neg Bool.false_ne_true, if_neg hne, hsplit, h.follow_eq]

theorem spell_injective {ms : List Text} (h : Cleaned absolute ns) (hne : ns ≠ [])
    (hm : Cleaned absolute ms) (hmne : ms ≠ []) (heq : spell absolute ns = spell absolute ms) :
    ns = ms := by
  rw [← names_spell h hne, heq, names_spell hm hmne]

/-- The last name stands at the end of a path, alone or behind a slash. -/
theorem exists_spell_concat (absolute : Bool) (ns : List Text) (name : Text) :
    ∃ lead, spell absolute (ns ++ [name]) = lead ++ name
      ∧ (lead = [] ∨ lead.getLast? = some slash) := by
  have hne : ns ++ [name] ≠ [] := List.append_ne_nil_of_right_ne_nil ns (List.cons_ne_nil _ _)
  have hjoin : ∃ lead, join [slash] (ns ++ [name]) = lead ++ name
      ∧ (lead = [] ∨ lead.getLast? = some slash) := by
    clear hne
    induction ns with
    | nil => exact ⟨[], rfl, Or.inl rfl⟩
    | cons first ns ih =>
        obtain ⟨lead, hlead, hlast⟩ := ih
        refine ⟨first ++ [slash] ++ lead, ?_, Or.inr ?_⟩
        · rw [List.cons_append,
            join_cons first (List.append_ne_nil_of_right_ne_nil ns (List.cons_ne_nil _ _)), hlead]
          simp
        · rcases hlast with rfl | hlast
          · rw [List.append_nil, List.getLast?_concat]
          · rw [List.getLast?_append, hlast]
            rfl
  obtain ⟨lead, hlead, hlast⟩ := hjoin
  rw [spell]
  cases absolute with
  | true =>
      refine ⟨slash :: lead, by rw [if_pos rfl, hlead]; rfl, Or.inr ?_⟩
      rcases hlast with rfl | hlast
      · rfl
      · rw [List.getLast?_cons, hlast]
        rfl
  | false => exact ⟨lead, by rw [if_neg Bool.false_ne_true, if_neg hne, hlead], hlast⟩

theorem spell_ne_nil (ns : List Text) (hname : name ≠ []) :
    spell absolute (ns ++ [name]) ≠ [] := by
  obtain ⟨lead, hspell, -⟩ := exists_spell_concat absolute ns name
  rw [hspell]
  exact List.append_ne_nil_of_right_ne_nil lead hname

/-- **The base of a path is its last name.** -/
theorem base_spell (ns : List Text) (hname : IsName name) :
    base (spell absolute (ns ++ [name])) = name := by
  obtain ⟨hne, hslash, -⟩ := hname
  obtain ⟨lead, hspell, hlead⟩ := exists_spell_concat absolute ns name
  have hkept : dropEndWhile (· == slash) (lead ++ name) = lead ++ name := by
    obtain ⟨init, b, rfl⟩ := List.eq_nil_or_concat name |>.resolve_left hne
    have hb : (b == slash) = false := by
      rw [beq_eq_false_iff_ne]
      rintro rfl
      exact hslash (by simp)
    rw [List.concat_eq_append, ← List.append_assoc]
    simp [dropEndWhile, hb]
  have htext : lead ++ name ≠ [] := List.append_ne_nil_of_right_ne_nil lead hne
  rw [base, hspell, if_neg htext, hkept]
  dsimp only
  rw [if_neg htext, lastName]
  rcases hlead with rfl | hlast
  · rw [List.nil_append, cutLast_byte_eq_none_iff.2 hslash]
  · obtain ⟨init, rfl⟩ := List.getLast?_eq_some_iff.1 hlast
    have hcut : cutLast (· == slash) (init ++ slash :: name) = some (init, name) :=
      cutLast_append (beq_self_eq_true slash) (forall_beq_eq_false_iff.2 hslash)
    rw [List.append_assoc, List.singleton_append, hcut]

/-! ## Paths below a path -/

theorem below_eq_spell {p : Text} (hp : p ≠ []) (q : Text) :
    below p q = spell (isAbsolute p) (follow (isAbsolute p) (names p) (split slash q)) := by
  have habsolute : isAbsolute (p ++ [slash] ++ q) = isAbsolute p := by
    cases p with
    | nil => exact absurd rfl hp
    | cons b p => rfl
  rw [below, if_neg hp, clean_eq_spell, names, habsolute, List.append_assoc, List.singleton_append,
    split_append, follow_append]
  rfl

theorem names_below (hns : ∀ name ∈ ns, IsName name) (hne : ns ≠ []) :
    split slash (join [slash] ns) = ns := split_join hne fun n hn => (hns n hn).2.1

/-- **What is put below a path adds its names** to those of the path. -/
theorem below_join {p : Text} (hp : p ≠ []) (hns : ∀ name ∈ ns, IsName name) (hne : ns ≠ []) :
    below p (join [slash] ns) = spell (isAbsolute p) (names p ++ ns) := by
  rw [below_eq_spell hp, names_below hns hne, follow_of_isName hns]

end

end Path
end ImportBlock
