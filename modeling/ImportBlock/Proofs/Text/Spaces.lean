import Mathlib
import ImportBlock.Proofs.Text.Words
import ImportBlock.Text.Space

/-! # Trimming

    White space is a table of byte sequences, and trimming takes sequences of the
    table away from either end.  No sequence of the table starts or ends another
    one, so a text of white space can be taken apart in one way only, and trimming
    undoes any spacing: `trim_spaced` for a text that has none at its ends.

    Bytes next to white space matter as well, since nothing says that a text is
    valid UTF-8: a sequence of the table must not arise where two texts meet.
    `isInner` and `isOuter` are the bytes that could bring this about. -/

namespace ImportBlock
namespace Text

/-- No unit of the table is empty or the start of another one. -/
def PrefixFree (units : List Text) : Prop :=
  ∀ u ∈ units, u ≠ [] ∧ ∀ v ∈ units, u.isPrefixOf v = true → u = v

instance (units : List Text) : Decidable (PrefixFree units) :=
  inferInstanceAs (Decidable (∀ u ∈ units, u ≠ [] ∧ ∀ v ∈ units, u.isPrefixOf v = true → u = v))

/-- A text of white space only. -/
def Blank (w : Text) : Prop := ∃ us : List Text, (∀ u ∈ us, u ∈ spaceUnits) ∧ w = us.flatten

/-- There is no white space in front. -/
def StartsBare (s : Text) : Prop := ∀ u ∈ spaceUnits, ¬ u <+: s

/-- There is no white space at the end. -/
def EndsBare (s : Text) : Prop := ∀ u ∈ spaceUnits, ¬ u <:+ s

/-- There is no white space at either end. -/
def Trimmed (s : Text) : Prop := StartsBare s ∧ EndsBare s

/-- The bytes of white space. -/
def isSpaceByte (b : UInt8) : Bool := spaceUnits.any fun u => u.contains b

/-- The bytes of white space that follow another one. -/
def isInner (b : UInt8) : Bool := spaceUnits.any fun u => u.tail.contains b

/-- The bytes of white space that another one follows. -/
def isOuter (b : UInt8) : Bool := spaceUnits.any fun u => u.dropLast.contains b

/-! ## Tables of units -/

theorem prefixFree_spaceUnits : PrefixFree spaceUnits := by decide

theorem prefixFree_spaceUnits_reverse : PrefixFree (spaceUnits.map List.reverse) := by decide

theorem dropUnit?_eq_none_iff {units : List Text} (hfree : PrefixFree units) {s : Text} :
    dropUnit? units s = none ↔ ∀ u ∈ units, ¬ u <+: s := by
  rw [dropUnit?, List.findSome?_eq_none_iff]
  constructor
  · intro h u hu hpre
    have hnone := h u hu
    have hne : u.isEmpty = false := List.isEmpty_eq_false_iff.2 (hfree u hu).1
    rw [List.isPrefixOf_iff_prefix.2 hpre, hne] at hnone
    cases hnone
  · intro h u hu
    have hpre : u.isPrefixOf s = false := by
      rw [Bool.eq_false_iff]
      exact fun hp => h u hu (List.isPrefixOf_iff_prefix.1 hp)
    rw [hpre]
    rfl

theorem eq_append_of_dropUnit? {units : List Text} {s r : Text}
    (h : dropUnit? units s = some r) : ∃ u ∈ units, s = u ++ r := by
  obtain ⟨u, hu, hr⟩ := List.exists_of_findSome?_eq_some h
  split at hr
  · rename_i hc
    rw [Bool.and_eq_true, List.isPrefixOf_iff_prefix] at hc
    obtain ⟨⟨t, rfl⟩, -⟩ := hc
    rw [List.drop_left, Option.some.injEq] at hr
    exact ⟨u, hu, by rw [hr]⟩
  · cases hr

/-- A unit at the start of a text is the one that is taken away. -/
theorem dropUnit?_append {units : List Text} (hfree : PrefixFree units) {u : Text}
    (hu : u ∈ units) (s : Text) : dropUnit? units (u ++ s) = some s := by
  cases hd : dropUnit? units (u ++ s) with
  | none => exact absurd ⟨s, rfl⟩ ((dropUnit?_eq_none_iff hfree).1 hd u hu)
  | some r =>
      obtain ⟨v, hv, heq⟩ := eq_append_of_dropUnit? hd
      -- of two units in front of one text the shorter starts the longer
      have huv : u = v := by
        rcases Nat.le_total u.length v.length with hle | hle
        · have hpre : u <+: v := List.prefix_of_prefix_length_le ⟨s, rfl⟩ ⟨r, heq.symm⟩ hle
          exact (hfree u hu).2 v hv (List.isPrefixOf_iff_prefix.2 hpre)
        · have hpre : v <+: u := List.prefix_of_prefix_length_le ⟨r, heq.symm⟩ ⟨s, rfl⟩ hle
          exact ((hfree v hv).2 u hu (List.isPrefixOf_iff_prefix.2 hpre)).symm
      subst huv
      rw [List.append_cancel_left heq]

theorem dropUnits_of_none {units : List Text} {s : Text} (h : dropUnit? units s = none) :
    dropUnits units s = s := by
  rw [dropUnits]
  split
  · rename_i hsome
    rw [h] at hsome
    cases hsome
  · rfl

theorem dropUnits_of_some {units : List Text} {s r : Text} (h : dropUnit? units s = some r) :
    dropUnits units s = dropUnits units r := by
  rw [dropUnits]
  split
  · rename_i hsome
    rw [h, Option.some.injEq] at hsome
    rw [hsome]
  · rename_i hnone
    rw [h] at hnone
    cases hnone

/-- Units in front of a text are all taken away. -/
theorem dropUnits_flatten_append {units : List Text} (hfree : PrefixFree units)
    (us : List Text) (hus : ∀ u ∈ us, u ∈ units) (s : Text) :
    dropUnits units (us.flatten ++ s) = dropUnits units s := by
  induction us with
  | nil => rfl
  | cons u us ih =>
      rw [List.flatten_cons, List.append_assoc,
        dropUnits_of_some (dropUnit?_append hfree (hus u List.mem_cons_self) _)]
      exact ih fun v hv => hus v (List.mem_cons_of_mem u hv)

/-- Only units are taken away, and none is left in front. -/
theorem exists_eq_append_dropUnits (units : List Text) (s : Text) :
    ∃ us : List Text, (∀ u ∈ us, u ∈ units) ∧ s = us.flatten ++ dropUnits units s
      ∧ dropUnit? units (dropUnits units s) = none := by
  -- on the length, as each unit that is taken away leaves a shorter text
  induction hn : s.length using Nat.strongRecOn generalizing s with
  | ind n ih =>
      cases hd : dropUnit? units s with
      | none =>
          refine ⟨[], ?_, ?_, ?_⟩
          · intro u hu
            cases hu
          · rw [dropUnits_of_none hd]
            rfl
          · rw [dropUnits_of_none hd]
            exact hd
      | some r =>
          have hlt := length_lt_of_dropUnit? hd
          obtain ⟨u, hu, hs⟩ := eq_append_of_dropUnit? hd
          obtain ⟨us, hus, hr, hnone⟩ := ih r.length (by omega) r rfl
          rw [dropUnits_of_some hd]
          refine ⟨u :: us, ?_, ?_, hnone⟩
          · intro v hv
            rcases List.mem_cons.1 hv with rfl | hv
            · exact hu
            · exact hus v hv
          · rw [List.flatten_cons, List.append_assoc, ← hr, hs]

/-! ## White space -/

theorem blank_nil : Blank [] := by
  refine ⟨[], ?_, rfl⟩
  intro u hu
  cases hu

theorem blank_unit {u : Text} (hu : u ∈ spaceUnits) : Blank u := by
  refine ⟨[u], ?_, (List.append_nil u).symm⟩
  intro v hv
  rw [List.mem_singleton.1 hv]
  exact hu

theorem blank_space : Blank [32] := blank_unit (by decide)

theorem Blank.append {w w' : Text} (h : Blank w) (h' : Blank w') : Blank (w ++ w') := by
  obtain ⟨us, hus, rfl⟩ := h
  obtain ⟨us', hus', rfl⟩ := h'
  refine ⟨us ++ us', ?_, List.flatten_append.symm⟩
  intro u hu
  rcases List.mem_append.1 hu with hu | hu
  · exact hus u hu
  · exact hus' u hu

theorem isSpaceByte_of_mem {u : Text} (hu : u ∈ spaceUnits) {b : UInt8} (hb : b ∈ u) :
    isSpaceByte b = true := List.any_eq_true.2 ⟨u, hu, List.contains_iff_mem.2 hb⟩

theorem Blank.isSpaceByte {w : Text} (h : Blank w) : ∀ b ∈ w, isSpaceByte b = true := by
  obtain ⟨us, hus, rfl⟩ := h
  intro b hb
  obtain ⟨u, hu, hbu⟩ := List.mem_flatten.1 hb
  exact isSpaceByte_of_mem (hus u hu) hbu

/-- What holds for every byte of the table holds for every byte of white space. -/
theorem of_isSpaceByte {p : UInt8 → Prop} [DecidablePred p]
    (htable : ∀ u ∈ spaceUnits, (u.all fun b => decide (p b)) = true) {b : UInt8}
    (h : isSpaceByte b = true) : p b := by
  obtain ⟨u, hu, hbu⟩ := List.any_eq_true.1 h
  exact forall_mem_of_all (htable u hu) b (List.contains_iff_mem.1 hbu)

theorem isIdent_of_isSpaceByte {b : UInt8} (h : isSpaceByte b = true) : isIdent b = false :=
  of_isSpaceByte (p := fun b => isIdent b = false) (by decide) h

theorem isSpaceByte_of_isIdent {b : UInt8} (h : isIdent b = true) : isSpaceByte b = false := by
  cases hs : isSpaceByte b with
  | false => rfl
  | true =>
      rw [isIdent_of_isSpaceByte hs] at h
      cases h

theorem Blank.not_ident {w : Text} (h : Blank w) : ∀ b ∈ w, isIdent b = false :=
  fun b hb => isIdent_of_isSpaceByte (h.isSpaceByte b hb)

/-- White space parts what stands before it from what follows. -/
theorem Blank.parted_left {w : Text} (h : Blank w) (b : Text) : Parted w b :=
  Or.inl (endsIdent_eq_false h.not_ident)

theorem Blank.parted_right {w : Text} (h : Blank w) (a : Text) : Parted a w :=
  Or.inr (startsIdent_eq_false h.not_ident)

theorem Blank.startsIdent_append {w b : Text} (h : Blank w) (hb : startsIdent b = false) :
    startsIdent (w ++ b) = false := by
  by_cases hw : w = []
  · rw [hw]
    exact hb
  · rw [Text.startsIdent_append hw]
    exact startsIdent_eq_false h.not_ident

/-- White space around a text adds no word. -/
theorem hasWordFrom_spaced {word w t w' : Text} (hword : Ident word) (hw : Blank w)
    (hw' : Blank w') : HasWordFrom word 0 (w ++ t ++ w') ↔ HasWordFrom word 0 t := by
  have hnone : ¬ HasWordFrom word 0 w := not_hasWordFrom_of_not_ident hword hw.not_ident
  have hnone' : ¬ HasWordFrom word 0 w' := not_hasWordFrom_of_not_ident hword hw'.not_ident
  rw [hasWordFrom_append hword (hw'.parted_right _), hasWordFrom_append hword (hw.parted_left _)]
  simp only [Nat.zero_sub, hnone, hnone', false_or, or_false]

/-- White space does not start with a byte that goes on with white space before it. -/
theorem Blank.head_not_inner {w b : Text} (h : Blank w) (hb : ∀ c ∈ b.head?, isInner c = false) :
    ∀ c ∈ (w ++ b).head?, isInner c = false := by
  obtain ⟨us, hus, rfl⟩ := h
  cases us with
  | nil => exact hb
  | cons u us =>
      have htable : ∀ u ∈ spaceUnits,
          u ≠ [] ∧ (u.head?.all fun b => decide (isInner b = false)) = true := by decide
      obtain ⟨hne, hhead⟩ := htable u (hus u List.mem_cons_self)
      cases u with
      | nil => exact absurd rfl hne
      | cons c u => exact forall_mem_of_option_all hhead

/-! ## The ends of a text -/

theorem startsBare_of_head {s : Text} (h : ∀ c ∈ s.head?, isSpaceByte c = false) :
    StartsBare s := by
  rintro u hu ⟨t, rfl⟩
  cases u with
  | nil => exact (prefixFree_spaceUnits [] hu).1 rfl
  | cons c u =>
      have := h c rfl
      rw [isSpaceByte_of_mem hu List.mem_cons_self] at this
      cases this

theorem endsBare_of_last {s : Text} (h : ∀ c ∈ s.getLast?, isSpaceByte c = false) :
    EndsBare s := by
  rintro u hu ⟨t, rfl⟩
  obtain ⟨y, c, rfl⟩ := exists_eq_concat (prefixFree_spaceUnits u hu).1
  have := h c (by rw [← List.append_assoc, List.getLast?_concat]; rfl)
  rw [isSpaceByte_of_mem hu (List.mem_append_right y List.mem_cons_self)] at this
  cases this

theorem startsBare_cons {b : UInt8} (s : Text) (hb : isSpaceByte b = false) :
    StartsBare (b :: s) := by
  refine startsBare_of_head ?_
  intro c hc
  rw [← Option.mem_some.1 hc]
  exact hb

theorem endsBare_concat (s : Text) {b : UInt8} (hb : isSpaceByte b = false) :
    EndsBare (s ++ [b]) := by
  refine endsBare_of_last ?_
  intro c hc
  rw [List.getLast?_concat, Option.mem_some] at hc
  rw [← hc]
  exact hb

/-- Text behind a text makes no white space in front of it. -/
theorem StartsBare.append {a b : Text} (hstart : StartsBare a) (ha : a ≠ [])
    (hb : ∀ c ∈ b.head?, isInner c = false) : StartsBare (a ++ b) := by
  rintro u hu ⟨t, ht⟩
  obtain ⟨x, hx, -⟩ | ⟨x, rfl, rfl⟩ := List.append_eq_append_iff.1 ht
  · exact hstart u hu ⟨x, hx.symm⟩
  · -- the unit starts in the first text and ends in the second
    cases x with
    | nil => exact hstart _ hu ⟨[], by rw [List.append_nil, List.append_nil]⟩
    | cons c x =>
        have hinner : isInner c = true := by
          refine List.any_eq_true.2 ⟨_, hu, List.contains_iff_mem.2 ?_⟩
          rw [List.tail_append_of_ne_nil ha]
          exact List.mem_append_right _ List.mem_cons_self
        rw [hb c rfl] at hinner
        cases hinner

/-- Text in front of a text makes no white space behind it. -/
theorem EndsBare.append {a b : Text} (hend : EndsBare b) (hb : b ≠ [])
    (ha : ∀ c ∈ a.getLast?, isOuter c = false) : EndsBare (a ++ b) := by
  rintro u hu ⟨t, ht⟩
  obtain ⟨x, rfl, rfl⟩ | ⟨x, rfl, hx⟩ := List.append_eq_append_iff.1 ht
  · -- the unit starts in the first text and ends in the second
    by_cases hx : x = []
    · subst hx
      exact hend _ hu List.suffix_rfl
    · obtain ⟨y, c, rfl⟩ := exists_eq_concat hx
      have houter : isOuter c = true := by
        refine List.any_eq_true.2 ⟨_, hu, List.contains_iff_mem.2 ?_⟩
        rw [List.dropLast_append_of_ne_nil hb]
        exact List.mem_append_left _ (List.mem_append_right y List.mem_cons_self)
      rw [ha c (by rw [← List.append_assoc, List.getLast?_concat]; rfl)] at houter
      cases houter
  · exact hend u hu ⟨x, hx.symm⟩

theorem trimmed_nil : Trimmed [] := by
  refine ⟨startsBare_of_head ?_, endsBare_of_last ?_⟩
  · intro c hc
    cases hc
  · intro c hc
    cases hc

theorem Ident.trimmed {s : Text} (h : Ident s) : Trimmed s :=
  ⟨startsBare_of_head fun c hc => isSpaceByte_of_isIdent (h.2 c (List.mem_of_head? hc)),
    endsBare_of_last fun c hc => isSpaceByte_of_isIdent (h.2 c (List.mem_of_getLast? hc))⟩

/-! ## Trimming -/

theorem trimStart_append {w : Text} (hw : Blank w) (s : Text) :
    trimStart (w ++ s) = trimStart s := by
  obtain ⟨us, hus, rfl⟩ := hw
  exact dropUnits_flatten_append prefixFree_spaceUnits us hus s

theorem trimStart_eq_self {s : Text} (h : StartsBare s) : trimStart s = s :=
  dropUnits_of_none ((dropUnit?_eq_none_iff prefixFree_spaceUnits).2 h)

theorem trimEnd_append {w : Text} (hw : Blank w) (s : Text) :
    trimEnd (s ++ w) = trimEnd s := by
  obtain ⟨us, hus, rfl⟩ := hw
  rw [trimEnd, trimEnd, List.reverse_append, List.reverse_flatten,
    dropUnits_flatten_append prefixFree_spaceUnits_reverse]
  intro u hu
  obtain ⟨v, hv, rfl⟩ := List.mem_map.1 (List.mem_reverse.1 hu)
  exact List.mem_map.2 ⟨v, hus v hv, rfl⟩

theorem trimEnd_eq_self {s : Text} (h : EndsBare s) : trimEnd s = s := by
  have hnone : dropUnit? (spaceUnits.map List.reverse) s.reverse = none := by
    refine (dropUnit?_eq_none_iff prefixFree_spaceUnits_reverse).2 ?_
    intro u hu hpre
    obtain ⟨v, hv, rfl⟩ := List.mem_map.1 hu
    exact h v hv (List.reverse_prefix.1 hpre)
  rw [trimEnd, dropUnits_of_none hnone, List.reverse_reverse]

/-- **Trimming undoes spacing.** -/
theorem trim_spaced {w t w' : Text} (hw : Blank w) (ht : Trimmed t) (hw' : Blank w') :
    trim (w ++ t ++ w') = t := by
  rw [trim, List.append_assoc, trimStart_append hw]
  by_cases hnil : t = []
  · -- nothing keeps the two pieces of white space apart, so the first trim takes both
    subst hnil
    have hblank := trimStart_append hw' []
    rw [List.append_nil] at hblank
    rw [List.nil_append, hblank, trimStart_eq_self trimmed_nil.1]
    exact trimEnd_eq_self trimmed_nil.2
  · have hhead : ∀ c ∈ w'.head?, isInner c = false := by
      have := hw'.head_not_inner (b := []) (by simp)
      rw [List.append_nil] at this
      exact this
    rw [trimStart_eq_self (ht.1.append hnil hhead), trimEnd_append hw']
    exact trimEnd_eq_self ht.2

theorem trim_eq_self {t : Text} (ht : Trimmed t) : trim t = t := by
  have := trim_spaced blank_nil ht blank_nil
  rw [List.nil_append, List.append_nil] at this
  exact this

theorem trim_blank {w : Text} (hw : Blank w) : trim w = [] := by
  have := trim_spaced hw trimmed_nil blank_nil
  rw [List.append_nil, List.append_nil] at this
  exact this

/-- **Trimming takes away nothing but spacing**, and all of it. -/
theorem exists_eq_spaced_trim (s : Text) :
    Trimmed (trim s) ∧ ∃ w w' : Text, Blank w ∧ Blank w' ∧ s = w ++ trim s ++ w' := by
  obtain ⟨us, hus, hs, hstart⟩ := exists_eq_append_dropUnits spaceUnits s
  obtain ⟨vs, hvs, ht, hend⟩ :=
    exists_eq_append_dropUnits (spaceUnits.map List.reverse) (trimStart s).reverse
  -- the end is trimmed in the reversed text, with reversed units
  have hsplit : trimStart s = trim s ++ (vs.map List.reverse).reverse.flatten := by
    have := congrArg List.reverse ht
    rw [List.reverse_reverse, List.reverse_append, List.reverse_flatten] at this
    exact this
  have hblank : Blank (vs.map List.reverse).reverse.flatten := by
    refine ⟨_, fun v hv => ?_, rfl⟩
    obtain ⟨u, hu, rfl⟩ := List.mem_map.1 (List.mem_reverse.1 hv)
    obtain ⟨x, hx, rfl⟩ := List.mem_map.1 (hvs u hu)
    rw [List.reverse_reverse]
    exact hx
  have hfirst : StartsBare (trimStart s) :=
    (dropUnit?_eq_none_iff prefixFree_spaceUnits).1 hstart
  refine ⟨⟨fun u hu hpre => ?_, fun u hu hsuf => ?_⟩, us.flatten, _, ⟨us, hus, rfl⟩, hblank, ?_⟩
  · exact hfirst u hu (hsplit ▸ hpre.trans (List.prefix_append _ _))
  · refine (dropUnit?_eq_none_iff prefixFree_spaceUnits_reverse).1 hend u.reverse
      (List.mem_map.2 ⟨u, hu, rfl⟩) ?_
    have := List.reverse_prefix.2 hsuf
    rw [trim, trimEnd, List.reverse_reverse] at this
    exact this
  · rw [List.append_assoc, ← hsplit]
    exact hs

theorem trimmed_trim (s : Text) : Trimmed (trim s) := (exists_eq_spaced_trim s).1

/-- Bytes that are no white space stay. -/
theorem mem_trim {s : Text} {b : UInt8} (hb : b ∈ s) (hspace : isSpaceByte b = false) :
    b ∈ trim s := by
  obtain ⟨-, w, w', hw, hw', hs⟩ := exists_eq_spaced_trim s
  have hnot : ∀ {v : Text}, Blank v → b ∉ v := by
    intro v hv hmem
    rw [hv.isSpaceByte b hmem] at hspace
    cases hspace
  rw [hs] at hb
  rcases List.mem_append.1 hb with hb | hb
  · rcases List.mem_append.1 hb with hb | hb
    · exact absurd hb (hnot hw)
    · exact hb
  · exact absurd hb (hnot hw')

theorem mem_of_mem_trim {s : Text} {b : UInt8} (hb : b ∈ trim s) : b ∈ s := by
  obtain ⟨-, w, w', -, -, hs⟩ := exists_eq_spaced_trim s
  rw [hs]
  exact List.mem_append_left w' (List.mem_append_right w hb)

end Text
end ImportBlock
