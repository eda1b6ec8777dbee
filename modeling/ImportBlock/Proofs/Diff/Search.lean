import Mathlib
import ImportBlock.Diff.Search
import ImportBlock.Proofs.Diff.Tidy

/-! # The search finds a script

    Whatever the search decides, the script that it gives leads from the first sequence to the
    second: `search_turns`.  How short the script is depends on where the sequences are split,
    but that it is right does not: it is enough that a plan is made of parts of the two
    sequences in their order (`Plan.Sound`), with the same run in the middle of both.

    So of the search for a long shared run only `sharedHalf_fits` is needed, that the run stands
    in both sequences where it is said to, and of the search from both ends nothing at all. -/

namespace ImportBlock.Diff

open Script

variable {α : Type} [DecidableEq α]

/-! ## Occurrences -/

theorem prefix_of_mem_occurrencesFrom {part s : List α} {i j : Nat}
    (h : j ∈ occurrencesFrom part i s) : ∃ k, j = i + k ∧ k < s.length ∧ part <+: s.drop k := by
  induction s generalizing i with
  | nil => cases h
  | cons x s ih =>
      have hlater : j ∈ occurrencesFrom part (i + 1) s →
          ∃ k, j = i + k ∧ k < (x :: s).length ∧ part <+: (x :: s).drop k := by
        intro hmem
        obtain ⟨k, rfl, hk, hpart⟩ := ih hmem
        exact ⟨k + 1, by omega, Nat.succ_lt_succ hk, hpart⟩
      rw [occurrencesFrom] at h
      split at h
      · rename_i hhere
        rcases List.mem_cons.1 h with rfl | h
        · exact ⟨0, rfl, Nat.succ_pos _, List.isPrefixOf_iff_prefix.1 hhere⟩
        · exact hlater h
      · exact hlater h

/-- A sequence occurs where it is found. -/
theorem prefix_of_mem_occurrences {part s : List α} {i : Nat} (h : i ∈ occurrences part s) :
    i < s.length ∧ part <+: s.drop i := by
  obtain ⟨k, rfl, hk, hpart⟩ := prefix_of_mem_occurrencesFrom h
  rw [Nat.zero_add]
  exact ⟨hk, hpart⟩

/-! ## Shared runs -/

/-- The run stands in both sequences where it is said to. -/
def Shared.Fits (s : Shared) (a b : List α) : Prop :=
  ∃ a₁ b₁ run a₂ b₂, a = a₁ ++ run ++ a₂ ∧ b = b₁ ++ run ++ b₂
    ∧ a₁.length = s.left ∧ b₁.length = s.right ∧ run.length = s.length

omit [DecidableEq α] in
/-- The empty run fits everywhere. -/
theorem Shared.fits_empty (a b : List α) : Shared.Fits ⟨0, 0, 0⟩ a b :=
  ⟨[], [], [], a, b, rfl, rfl, rfl, rfl, rfl⟩

omit [DecidableEq α] in
theorem Shared.Fits.swap {s : Shared} {a b : List α} (h : s.Fits a b) :
    Shared.Fits ⟨s.right, s.left, s.length⟩ b a := by
  obtain ⟨a₁, b₁, run, a₂, b₂, ha, hb, hleft, hright, hlen⟩ := h
  exact ⟨b₁, a₁, run, b₂, a₂, hb, ha, hright, hleft, hlen⟩

/-- The run around two positions goes as far as the sequences agree on either side. -/
theorem sharedAt_fits {long short : List α} {i j : Nat} (hi : i ≤ long.length)
    (hj : j ≤ short.length) : (sharedAt long short i j).Fits long short := by
  obtain ⟨n, a₂, b₂, ha₂, hb₂, hforward⟩ := eq_append_commonStart (long.drop i) (short.drop j)
  obtain ⟨a₁, b₁, m, ha₁, hb₁, hbackward⟩ := eq_append_commonEnd (long.take i) (short.take j)
  have hi' : a₁.length + m.length = i := by
    rw [← List.length_append, ← ha₁, List.length_take_of_le hi]
  have hj' : b₁.length + m.length = j := by
    rw [← List.length_append, ← hb₁, List.length_take_of_le hj]
  refine ⟨a₁, b₁, m ++ n, a₂, b₂, ?_, ?_, ?_, ?_, ?_⟩
  · calc long = long.take i ++ long.drop i := (List.take_append_drop i long).symm
      _ = a₁ ++ (m ++ n) ++ a₂ := by rw [ha₁, ha₂]; simp
  · calc short = short.take j ++ short.drop j := (List.take_append_drop j short).symm
      _ = b₁ ++ (m ++ n) ++ b₂ := by rw [hb₁, hb₂]; simp
  · show a₁.length = i - commonEnd (long.take i) (short.take j)
    omega
  · show b₁.length = j - commonEnd (long.take i) (short.take j)
    omega
  · show (m ++ n).length = commonEnd (long.take i) (short.take j)
      + commonStart (long.drop i) (short.drop j)
    rw [List.length_append, hbackward, hforward]

theorem sharedFrom_fits {long short : List α} {i : Nat} {s : Shared} (hi : i ≤ long.length)
    (h : sharedFrom long short i = some s) : s.Fits long short := by
  -- the best run so far fits, whichever positions were tried
  have hbest : ∀ (js : List Nat) (best : Shared), (∀ j ∈ js, j ≤ short.length) →
      best.Fits long short →
      (js.foldl (fun best j => if best.length < (sharedAt long short i j).length
        then sharedAt long short i j else best) best).Fits long short := by
    intro js
    induction js with
    | nil => intro best _ hfits; exact hfits
    | cons j js ih =>
        intro best hjs hfits
        refine ih _ (fun k hk => hjs k (List.mem_cons_of_mem j hk)) ?_
        dsimp only
        split
        · exact sharedAt_fits hi (hjs j List.mem_cons_self)
        · exact hfits
  simp only [sharedFrom] at h
  split at h
  · cases h
  · cases h
    refine hbest _ _ ?_ (Shared.fits_empty long short)
    intro j hj
    exact (prefix_of_mem_occurrences hj).1.le

theorem sharedHalf_fits {long short : List α} {s : Shared} (h : sharedHalf long short = some s) :
    s.Fits long short := by
  rw [sharedHalf] at h
  split at h
  · cases h
  · rename_i hlong
    have hquarter : (long.length + 3) / 4 ≤ long.length := by omega
    have hhalf : (long.length + 1) / 2 ≤ long.length := by omega
    split at h
    · rename_i s₁ s₂ h₁ h₂
      split at h
      · cases h
        exact sharedFrom_fits hquarter h₁
      · cases h
        exact sharedFrom_fits hhalf h₂
    · rename_i s₁ h₁ h₂
      cases h
      exact sharedFrom_fits hquarter h₁
    · exact sharedFrom_fits hhalf h

/-! ## Plans -/

/-- A plan for two sequences: a script between them, or parts that they are made of. -/
def Plan.Sound (a b : List α) : Plan α → Prop
  | .done s => Turns s a b
  | .split a₁ b₁ middle a₂ b₂ => a = a₁ ++ middle ++ a₂ ∧ b = b₁ ++ middle ++ b₂

omit [DecidableEq α] in
theorem Plan.sound_around {a b : List α} {s : Shared} (h : s.Fits a b) :
    (Plan.around a b s).Sound a b := by
  obtain ⟨a₁, b₁, run, a₂, b₂, rfl, rfl, hleft, hright, hlen⟩ := h
  simp only [around, Sound, ← hleft, ← hright, ← hlen]
  simp

/-- A shorter sequence that occurs in a longer one is kept, and what stands around it is
    edited. -/
theorem turns_around {long short : List α} {i : Nat} (h : i ∈ occurrences short long) :
    Turns [⟨.delete, long.take i⟩, ⟨.equal, short⟩, ⟨.delete, long.drop (i + short.length)⟩]
        long short
      ∧ Turns [⟨.insert, long.take i⟩, ⟨.equal, short⟩, ⟨.insert, long.drop (i + short.length)⟩]
        short long := by
  obtain ⟨-, rest, hrest⟩ := prefix_of_mem_occurrences h
  have hdrop : long.drop (i + short.length) = rest := by
    rw [← List.drop_drop, ← hrest, List.drop_left]
  have hlong : long.take i ++ (short ++ rest) = long := by
    rw [hrest, List.take_append_drop]
  rw [hdrop]
  constructor
  · constructor
    · show long.take i ++ (short ++ (rest ++ [])) = long
      rw [List.append_nil, hlong]
    · exact List.append_nil short
  · constructor
    · exact List.append_nil short
    · show long.take i ++ (short ++ (rest ++ [])) = long
      rw [List.append_nil, hlong]

/-- Where the searches from both ends meet, both sequences are split. -/
theorem sound_meeting (a b : List α) :
    (match meeting a b with
      | some (x, y) => Plan.split (a.take x) (b.take y) [] (a.drop x) (b.drop y)
      | none => Plan.done (replace a b)).Sound a b := by
  split
  · rename_i x y hmeet
    constructor
    · rw [List.append_nil, List.take_append_drop]
    · rw [List.append_nil, List.take_append_drop]
  · exact .replace a b

/-- **Every plan is sound.** -/
theorem plan_sound (a b : List α) : (plan a b).Sound a b := by
  rw [plan]
  split
  · rename_i ha
    rw [ha]
    exact .insertion b
  · split
    · rename_i hb
      rw [hb]
      exact .deletion a
    · by_cases hlen : b.length < a.length
      · -- the first sequence is the longer one
        simp only [if_pos hlen]
        split
        · rename_i i rest hfound
          exact (turns_around (by rw [hfound]; exact List.mem_cons_self)).1
        · split
          · exact .replace a b
          · split
            · rename_i s hhalf
              exact Plan.sound_around (sharedHalf_fits hhalf)
            · exact sound_meeting a b
      · simp only [if_neg hlen]
        split
        · rename_i i rest hfound
          exact (turns_around (by rw [hfound]; exact List.mem_cons_self)).2
        · split
          · exact .replace a b
          · split
            · rename_i s hhalf
              exact Plan.sound_around (sharedHalf_fits hhalf).swap
            · exact sound_meeting a b

/-! ## The search -/

/-- **The search finds a script** that leads from the first sequence to the second. -/
theorem search_turns (a b : List α) : Turns (search a b) a b := by
  induction hn : a.length + b.length using Nat.strongRecOn generalizing a b with
  | ind n ih =>
      subst hn
      rw [search]
      split
      · rename_i hab
        rw [← hab]
        exact .keep a
      · obtain ⟨start, a', b', ha, hb, hstart⟩ := eq_append_commonStart a b
        obtain ⟨a'', b'', last, ha', hb', hlast⟩ := eq_append_commonEnd a' b'
        have hdropped : a.drop (commonStart a b) = a' ∧ b.drop (commonStart a b) = b' := by
          rw [← hstart, ha, hb, List.drop_left, List.drop_left]
          exact ⟨rfl, rfl⟩
        have hcut : a'.take (a'.length - commonEnd a' b') = a''
            ∧ b'.take (b'.length - commonEnd a' b') = b''
            ∧ a'.drop (a'.length - commonEnd a' b') = last := by
          rw [← hlast, ha', hb']
          simp
        have hfirst : a.take (commonStart a b) = start := by
          rw [← hstart, ha, List.take_left]
        dsimp only
        rw [hdropped.1, hdropped.2, hcut.1, hcut.2.1, hcut.2.2, hfirst]
        -- the parts between the common ends
        have hmiddle : Turns
            (match plan a'' b'' with
              | .done s => s
              | .split a₁ b₁ mid a₂ b₂ =>
                  if _h : a₁.length + b₁.length < a.length + b.length
                      ∧ a₂.length + b₂.length < a.length + b.length then
                    search a₁ b₁ ++ keep mid ++ search a₂ b₂
                  else replace a'' b'') a'' b'' := by
          have hsound := plan_sound a'' b''
          split
          · rename_i s hplan
            rw [hplan] at hsound
            exact hsound
          · rename_i a₁ b₁ mid a₂ b₂ hplan
            rw [hplan] at hsound
            obtain ⟨hold, hnew⟩ := hsound
            split
            · rename_i hsmaller
              rw [hold, hnew]
              exact ((ih _ hsmaller.1 a₁ b₁ rfl).append (.keep mid)).append
                (ih _ hsmaller.2 a₂ b₂ rfl)
            · exact .replace a'' b''
        have hall := (((Turns.keep start).append hmiddle).append (.keep last)).tidy
        rw [List.append_assoc start, List.append_assoc start, ← ha', ← hb', ← ha, ← hb] at hall
        exact hall

end ImportBlock.Diff
