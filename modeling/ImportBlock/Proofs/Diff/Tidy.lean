import Mathlib
import ImportBlock.Diff.Tidy

/-! # Tidying keeps what a script does

    A script is tidied by joining, moving and dropping its runs.  None of this changes the
    sequence that it starts from or the one that it ends in: `Turns.tidy`.

    Each step is a rule for `Turns`, the statement that a script leads from one sequence to
    another.  A stretch is taken apart by its common ends, `eq_append_commonStart` and
    `eq_append_commonEnd`; the loop over the script carries the two sequences up to where it
    stands, with the stretch still to be settled between them and the rest. -/

namespace ImportBlock.Diff

variable {α : Type}

/-! ## What a script does -/

/-- The script leads from `a` to `b`. -/
structure Script.Turns (s : Script α) (a b : List α) : Prop where
  before : s.before = a
  after : s.after = b

namespace Script.Turns

variable {s t : Script α} {a b c d items : List α}

theorem nil : Turns ([] : Script α) [] [] := ⟨rfl, rfl⟩

theorem append (hs : Turns s a b) (ht : Turns t c d) : Turns (s ++ t) (a ++ c) (b ++ d) := by
  constructor
  · rw [before_append, hs.before, ht.before]
  · rw [after_append, hs.after, ht.after]

theorem deletion (items : List α) : Turns [⟨.delete, items⟩] items [] := by
  constructor
  · exact List.append_nil items
  · rfl

theorem insertion (items : List α) : Turns [⟨.insert, items⟩] [] items := by
  constructor
  · rfl
  · exact List.append_nil items

theorem kept (items : List α) : Turns [⟨.equal, items⟩] items items := by
  constructor
  · exact List.append_nil items
  · exact List.append_nil items

theorem keep (items : List α) : Turns (Diff.keep items) items items := by
  rw [Diff.keep]
  split
  · rename_i hempty
    rw [List.isEmpty_iff.1 hempty]
    exact nil
  · exact kept items

theorem replace (a b : List α) : Turns (Diff.replace a b) a b := by
  have h := (deletion a).append (insertion b)
  rw [List.append_nil, List.nil_append] at h
  exact h

/-- The sequences of the rest of a script, told from those of the whole. -/
theorem of_cons {e : Edit α} (h : Turns (e :: s) a b) :
    ∃ c d, Turns s c d ∧ ∀ t, Turns t c d → Turns (e :: t) a b := by
  refine ⟨s.before, s.after, ⟨rfl, rfl⟩, ?_⟩
  intro t ht
  constructor
  · rw [← h.before]
    show _ ++ Script.before t = _ ++ Script.before s
    rw [ht.before]
  · rw [← h.after]
    show _ ++ Script.after t = _ ++ Script.after s
    rw [ht.after]

/-- An empty run at the end does nothing. -/
theorem dropEmptyEnd (h : Turns s a b) : Turns (Diff.dropEmptyEnd s) a b := by
  rw [Diff.dropEmptyEnd]
  split
  · rename_i op hlast
    obtain ⟨t, rfl⟩ := List.getLast?_eq_some_iff.1 hlast
    rw [List.dropLast_concat]
    obtain ⟨hb, ha⟩ := h
    rw [before_append] at hb
    rw [after_append] at ha
    constructor
    · rw [← hb]
      cases op <;> exact (List.append_nil _).symm
    · rw [← ha]
      cases op <;> exact (List.append_nil _).symm
  · exact h

theorem keepAfter (h : Turns s a b) (items : List α) :
    Turns (Diff.keepAfter s items) (a ++ items) (b ++ items) := by
  rw [Diff.keepAfter]
  split
  · rename_i last hlast
    obtain ⟨t, rfl⟩ := List.getLast?_eq_some_iff.1 hlast
    rw [List.dropLast_concat]
    obtain ⟨hb, ha⟩ := h
    rw [before_append] at hb
    rw [after_append] at ha
    constructor
    · rw [before_append, ← hb, List.append_assoc, (kept last).before, (kept _).before]
    · rw [after_append, ← ha, List.append_assoc, (kept last).after, (kept _).after]
  · exact h.append (kept items)

/-- An edit that ends with the kept run before it may begin with it instead. -/
theorem slide_back {op : Op} {x y z : List α} {rest : Script α}
    (h : Turns (⟨.equal, x⟩ :: ⟨op, y ++ x⟩ :: ⟨.equal, z⟩ :: rest) a b) :
    Turns (⟨op, x ++ y⟩ :: ⟨.equal, x ++ z⟩ :: rest) a b := by
  obtain ⟨rfl, rfl⟩ := h
  cases op with
  | delete => constructor <;> simp [Script.before, Script.after]
  | equal => constructor <;> simp [Script.before, Script.after]
  | insert => constructor <;> simp [Script.before, Script.after]

/-- An edit that begins with the kept run after it may end with it instead. -/
theorem slide_forward {op : Op} {x y z : List α} {rest : Script α}
    (h : Turns (⟨.equal, x⟩ :: ⟨op, z ++ y⟩ :: ⟨.equal, z⟩ :: rest) a b) :
    Turns (⟨.equal, x ++ z⟩ :: ⟨op, y ++ z⟩ :: rest) a b := by
  obtain ⟨rfl, rfl⟩ := h
  cases op with
  | delete => constructor <;> simp [Script.before, Script.after]
  | equal => constructor <;> simp [Script.before, Script.after]
  | insert => constructor <;> simp [Script.before, Script.after]

end Script.Turns

/-! ## Common ends -/

section

variable [DecidableEq α]

/-- Two sequences begin with what `commonStart` counts. -/
theorem eq_append_commonStart (a b : List α) :
    ∃ both a' b', a = both ++ a' ∧ b = both ++ b' ∧ both.length = commonStart a b := by
  fun_induction commonStart a b with
  | case1 a x b ih =>
      obtain ⟨both, a', b', ha, hb, hlen⟩ := ih
      exact ⟨x :: both, a', b', by rw [ha]; rfl, by rw [hb]; rfl, by rw [← hlen]; rfl⟩
  | case2 x a y b hne => exact ⟨[], x :: a, y :: b, rfl, rfl, rfl⟩
  | case3 a b hne => exact ⟨[], a, b, rfl, rfl, rfl⟩

/-- Two sequences end with what `commonEnd` counts. -/
theorem eq_append_commonEnd (a b : List α) :
    ∃ a' b' both, a = a' ++ both ∧ b = b' ++ both ∧ both.length = commonEnd a b := by
  obtain ⟨both, a', b', ha, hb, hlen⟩ := eq_append_commonStart a.reverse b.reverse
  refine ⟨a'.reverse, b'.reverse, both.reverse, ?_, ?_, ?_⟩
  · rw [← List.reverse_append, ← ha, List.reverse_reverse]
  · rw [← List.reverse_append, ← hb, List.reverse_reverse]
  · rw [List.length_reverse, hlen]
    rfl

end

/-! ## Gathering -/

/-- The counts of a stretch tell the truth: where nothing is counted nothing is held. -/
structure Stretch.Counted (s : Stretch α) : Prop where
  deleted : s.deletions = 0 → s.deleted = []
  inserted : s.insertions = 0 → s.inserted = []

theorem Stretch.Counted.empty : Stretch.Counted ({} : Stretch α) := ⟨fun _ => rfl, fun _ => rfl⟩

theorem Stretch.Counted.edits {s : Stretch α} (h : s.Counted) :
    Script.Turns s.edits s.deleted s.inserted := by
  have hdelete : Script.Turns (if s.deletions = 0 then [] else [⟨.delete, s.deleted⟩])
      s.deleted [] := by
    split
    · rename_i hnone
      rw [h.deleted hnone]
      exact .nil
    · exact .deletion s.deleted
  have hinsert : Script.Turns (if s.insertions = 0 then [] else [⟨.insert, s.inserted⟩])
      [] s.inserted := by
    split
    · rename_i hnone
      rw [h.inserted hnone]
      exact .nil
    · exact .insertion s.inserted
  have hboth := hdelete.append hinsert
  rw [List.append_nil, List.nil_append] at hboth
  exact hboth

namespace Script.Turns

variable [DecidableEq α] {s done : Script α} {a b c d : List α}

/-- What the two sides of a stretch share at their ends may as well be kept. -/
theorem settle (h : Turns done a b) {s : Stretch α} (hs : s.Counted) (items : List α) :
    Turns (Diff.settle done s items) (a ++ s.deleted ++ items) (b ++ s.inserted ++ items) := by
  rw [Diff.settle]
  split
  · -- an empty stretch
    rename_i hnone
    rw [hs.deleted (by omega), hs.inserted (by omega), List.append_nil, List.append_nil]
    exact h.keepAfter items
  · split
    · exact (h.append hs.edits).append (.kept items)
    · obtain ⟨start, inserted, deleted, hins, hdel, hstart⟩ :=
        eq_append_commonStart s.inserted s.deleted
      obtain ⟨ins, del, last, hins', hdel', hlast⟩ := eq_append_commonEnd inserted deleted
      have hdone : Turns
          (if commonStart s.inserted s.deleted = 0 then done
            else Diff.keepAfter done (s.inserted.take (commonStart s.inserted s.deleted)))
          (a ++ start) (b ++ start) := by
        rw [← hstart]
        split
        · rename_i hnil
          rw [List.length_eq_zero_iff.1 hnil, List.append_nil, List.append_nil]
          exact h
        · rw [hins, List.take_left]
          exact h.keepAfter start
      have hrest := (hdone.append ((deletion del).append (insertion ins))).append
        (kept (last ++ items))
      have hold : a ++ start ++ (del ++ []) ++ (last ++ items) = a ++ s.deleted ++ items := by
        rw [hdel, hdel']
        simp
      have hnew : b ++ start ++ ([] ++ ins) ++ (last ++ items) = b ++ s.inserted ++ items := by
        rw [hins, hins']
        simp
      have hdropped : s.deleted.drop (commonStart s.inserted s.deleted) = del ++ last
          ∧ s.inserted.drop (commonStart s.inserted s.deleted) = ins ++ last := by
        rw [← hstart, ← hdel', ← hins']
        constructor
        · rw [hdel, List.drop_left]
        · rw [hins, List.drop_left]
      rw [hold, hnew, List.append_assoc] at hrest
      rw [hins', hdel'] at hlast
      dsimp only
      rw [hdropped.1, hdropped.2, ← hlast, List.length_append, List.length_append,
        Nat.add_sub_cancel, Nat.add_sub_cancel, List.take_left, List.take_left, List.drop_left]
      exact hrest

/-- **The loop over a script** carries what is settled, a stretch and what is to come. -/
theorem gatherFrom {rest : Script α} (h : Turns done a b) {s : Stretch α} (hs : s.Counted)
    (hrest : Turns rest c d) :
    Turns (Diff.gatherFrom done s rest) (a ++ s.deleted ++ c) (b ++ s.inserted ++ d) := by
  induction rest generalizing done s a b c d with
  | nil =>
      obtain ⟨rfl, rfl⟩ := hrest
      have hend := h.append hs.edits
      rw [Diff.gatherFrom]
      show Turns _ (a ++ s.deleted ++ []) (b ++ s.inserted ++ [])
      rw [List.append_nil, List.append_nil]
      exact hend
  | cons e rest ih =>
      obtain ⟨rfl, rfl⟩ := hrest
      obtain ⟨op, items⟩ := e
      cases op with
      | delete =>
          have hgrown : Stretch.Counted
              { s with deletions := s.deletions + 1, deleted := s.deleted ++ items } :=
            ⟨fun hzero => absurd hzero (Nat.succ_ne_zero _), hs.inserted⟩
          have hnext := ih h hgrown ⟨rfl, rfl⟩
          rw [← List.append_assoc a, List.append_assoc (a ++ s.deleted)] at hnext
          exact hnext
      | insert =>
          have hgrown : Stretch.Counted
              { s with insertions := s.insertions + 1, inserted := s.inserted ++ items } :=
            ⟨hs.deleted, fun hzero => absurd hzero (Nat.succ_ne_zero _)⟩
          have hnext := ih h hgrown ⟨rfl, rfl⟩
          rw [← List.append_assoc b, List.append_assoc (b ++ s.inserted)] at hnext
          exact hnext
      | equal =>
          have hnext := ih (h.settle hs items) .empty ⟨rfl, rfl⟩
          rw [List.append_nil, List.append_nil, List.append_assoc _ items,
            List.append_assoc _ items] at hnext
          exact hnext

theorem gather (h : Turns s a b) : Turns (Diff.gather s) a b := by
  have hend := h.append (.kept [])
  rw [List.append_nil, List.append_nil] at hend
  exact (gatherFrom .nil .empty hend).dropEmptyEnd

/-! ## Sliding -/

/-- **An edit may slide** over a kept run that it ends or begins with. -/
theorem slide (h : Turns s a b) : Turns (Diff.slide s).1 a b := by
  fun_induction Diff.slide s generalizing a b with
  | case1 e₁ e₂ e₃ rest hops hend moved tail more htail =>
      rename_i ih
      obtain ⟨op₁, x⟩ := e₁
      obtain ⟨op, items⟩ := e₂
      obtain ⟨op₃, z⟩ := e₃
      obtain ⟨rfl, rfl⟩ := hops
      obtain ⟨y, rfl⟩ := List.isSuffixOf_iff_suffix.1 hend
      have hmoved : moved = x ++ y := by simp [moved]
      rw [hmoved]
      obtain ⟨c, d, hrest, hback⟩ := h.slide_back.of_cons
      have hslid := ih hrest
      rw [htail] at hslid
      exact hback tail hslid
  | case2 e₁ e₂ e₃ rest hops hend hstart moved tail more htail =>
      rename_i ih
      obtain ⟨op₁, x⟩ := e₁
      obtain ⟨op, items⟩ := e₂
      obtain ⟨op₃, z⟩ := e₃
      obtain ⟨rfl, rfl⟩ := hops
      obtain ⟨y, rfl⟩ := List.isPrefixOf_iff_prefix.1 hstart
      have hmoved : moved = y ++ z := by simp [moved]
      rw [hmoved] at ih htail
      obtain ⟨c, d, hrest, hback⟩ := h.slide_forward.of_cons
      have hslid := ih hrest
      rw [htail] at hslid
      exact hback tail hslid
  | case3 e₁ e₂ e₃ rest hops hend hstart tail more htail ih =>
      obtain ⟨c, d, hrest, hback⟩ := h.of_cons
      have hslid := ih hrest
      rw [htail] at hslid
      exact hback tail hslid
  | case4 e₁ e₂ e₃ rest hops tail more htail ih =>
      obtain ⟨c, d, hrest, hback⟩ := h.of_cons
      have hslid := ih hrest
      rw [htail] at hslid
      exact hback tail hslid
  | case5 s hshort => exact h

/-! ## Repeating both -/

theorem tidyWithin (n : Nat) (h : Turns s a b) : Turns (Diff.tidyWithin n s) a b := by
  induction n generalizing s with
  | zero => exact h
  | succ n ih =>
      have hslid := h.gather.slide
      rw [Diff.tidyWithin]
      split
      · rename_i s' heq
        rw [heq] at hslid
        exact ih hslid
      · rename_i s' heq
        rw [heq] at hslid
        exact hslid

/-- **Tidying keeps what a script does.** -/
theorem tidy (h : Turns s a b) : Turns (Diff.tidy s) a b := h.tidyWithin _

end Script.Turns

end ImportBlock.Diff
