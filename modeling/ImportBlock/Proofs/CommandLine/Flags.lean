import Mathlib
import ImportBlock.CommandLine.Help

/-! # The flags that a command line gives

    Reading a command line goes from argument to argument and adds a flag whenever it has found
    one with its value.  Each flag that it adds is a known one, with a value of its kind: a
    switch gives a truth value, an integer has 64 bits.  `typed_of_read` says so of all flags of
    a command line, by induction on its arguments. -/

namespace ImportBlock

open Text

/-- A value as a flag of the kind gives it. -/
def FlagKind.Gives : FlagKind → Value → Prop
  | .switch, v => ∃ b, v = .bool b
  | .integer, v => ∃ n, v = .int n ∧ -2 ^ 63 ≤ n ∧ n < 2 ^ 63
  | .text, v => ∃ t, v = .text t

/-- A computation of two parts gives a result if both parts do. -/
theorem exists_of_bind_ok {ε α β : Type} {x : Except ε α} {f : α → Except ε β} {b : β}
    (h : (x >>= f) = .ok b) : ∃ a, x = .ok a ∧ f a = .ok b := by
  cases x with
  | error e => cases h
  | ok a => exact ⟨a, rfl, h⟩

theorem exists_of_map_ok {ε α β : Type} {x : Except ε α} {f : α → β} {b : β}
    (h : x.map f = .ok b) : ∃ a, x = .ok a ∧ f a = b := by
  cases x with
  | error e => cases h
  | ok a => exact ⟨a, rfl, Except.ok.inj h⟩

/-! ## Single flags -/

/-- An integer that is read has 64 bits. -/
theorem Text.range_of_readInt {s : Text} {n : Int} (h : readInt s = .ok n) :
    -2 ^ 63 ≤ n ∧ n < 2 ^ 63 := by
  have hpow : Nat.pow 2 63 = 9223372036854775808 := by decide
  rw [readInt] at h
  generalize cutSign s = parts at h
  obtain ⟨negative, digits⟩ := parts
  obtain ⟨m, -, h⟩ := exists_of_bind_ok h
  split at h
  · split at h
    · cases h
    · cases h
      omega
  · split at h
    · cases h
    · cases h
      omega

theorem Flag.gives_of_read {f : Flag} {value : Text} {v : Value} (h : f.read value = .ok v) :
    f.kind.Gives v := by
  rw [read] at h
  split at h
  · rename_i hkind
    cases h
    rw [hkind]
    exact ⟨value, rfl⟩
  · rename_i hkind
    rw [hkind]
    split at h
    · cases h
      exact ⟨_, rfl⟩
    · cases h
  · rename_i hkind
    rw [hkind]
    split at h
    · rename_i n hn
      cases h
      exact ⟨n, rfl, range_of_readInt hn⟩
    · cases h
    · cases h

namespace Arguments

/-- The flags are known ones, with values of their kinds. -/
def Typed (known : List Flag) (a : Arguments) : Prop :=
  ∀ e ∈ a.flags, ∃ f ∈ known, f.name = e.1 ∧ f.kind.Gives e.2

section

variable {known : List Flag} {a a' : Arguments} {took : Bool} {next : Option Text}

/-! ## Single arguments -/

theorem typed_empty (known : List Flag) : Typed known {} := fun _ h => nomatch h

/-- **A flag that is added** keeps the flags typed. -/
theorem Typed.set (h : a.Typed known) {f : Flag} (hf : f ∈ known) {value : Text}
    (hset : a.set f value = .ok a') : a'.Typed known := by
  obtain ⟨v, hv, rfl⟩ := exists_of_map_ok hset
  intro e he
  rcases List.mem_cons.1 he with rfl | he
  · exact ⟨f, hf, rfl, Flag.gives_of_read hv⟩
  · exact h e he

theorem Typed.set_map (h : a.Typed known) {f : Flag} (hf : f ∈ known) {value : Text} {mark : Bool}
    (hset : (a.set f value).map (fun a => (a, mark)) = .ok (a', took)) : a'.Typed known := by
  obtain ⟨b, hb, heq⟩ := exists_of_map_ok hset
  cases heq
  exact h.set hf hb

theorem Typed.readLong (h : a.Typed known) {arg : Text}
    (hread : a.readLong known arg next = .ok (a', took)) : a'.Typed known := by
  rw [Arguments.readLong] at hread
  simp only [bind_pure_comp] at hread
  split at hread
  · cases hread
  · split at hread
    · cases hread
    · rename_i f hfind
      have hf : f ∈ known := List.mem_of_find?_eq_some hfind
      split at hread
      · exact h.set_map hf hread
      · split at hread
        · exact h.set_map hf hread
        · split at hread
          · exact h.set_map hf hread
          · cases hread

theorem Typed.readLetters (h : a.Typed known) {letters : Text}
    (hread : readLetters known next a letters = .ok (a', took)) : a'.Typed known := by
  induction letters generalizing a with
  | nil =>
      cases hread
      exact h
  | cons c rest ih =>
      rw [Arguments.readLetters] at hread
      split at hread
      · cases hread
        exact h
      · split at hread
        · cases hread
        · rename_i f hfind
          have hf : f ∈ known := List.mem_of_find?_eq_some hfind
          split at hread
          · exact h.set_map hf hread
          · split at hread
            · obtain ⟨b, hb, hrest⟩ := exists_of_bind_ok hread
              exact ih (h.set hf hb) hrest
            · split at hread
              · exact h.set_map hf hread
              · split at hread
                · exact h.set_map hf hread
                · cases hread

/-! ## All arguments -/

theorem Typed.readFrom (h : a.Typed known) {skip : Bool} {args : List Text}
    (hread : readFrom known skip a args = .ok a') : a'.Typed known := by
  induction args generalizing a skip with
  | nil =>
      cases hread
      exact h
  | cons arg rest ih =>
      unfold Arguments.readFrom at hread
      split at hread
      · exact ih h hread
      · split at hread
        · split at hread
          · cases hread
            exact h
          · obtain ⟨⟨b, took⟩, hb, hrest⟩ := exists_of_bind_ok hread
            exact ih (h.readLong hb) hrest
        · obtain ⟨⟨b, took⟩, hb, hrest⟩ := exists_of_bind_ok hread
          exact ih (h.readLetters hb) hrest
        · have hsame : Typed known { a with operands := a.operands ++ [arg] } := h
          exact ih hsame hread

/-- **The flags of a command line are typed.** -/
theorem typed_of_read {args : List Text} (hread : read known args = .ok a) : a.Typed known :=
  (typed_empty known).readFrom hread

end

end Arguments

end ImportBlock
