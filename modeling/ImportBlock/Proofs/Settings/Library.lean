import Mathlib
import ImportBlock.Settings.Standard

/-! # What the settings library is relied on for

    A program leaves it to a library where the value of a key comes from: from the flag that
    the key is bound to, else from its environment variable, else from the settings file, else
    it is the default.  `Settings.Library.Documented` says this of a library, and how it
    converts values of the kinds that settings have.

    It is said of `Plain` sources only.  A settings file may be written in many ways, and an
    environment may do odd things; here the sections of the file hold mappings without nulls,
    no key is written outside of its section, and no variable stands for a whole section.

    The standard library does what it is relied on for, whatever other decoders are added to
    it: `documented_withDecoders`. -/

namespace ImportBlock

open Text

/-! ## Plain sources -/

/-- Is it a small letter, a digit or an underscore? -/
def isWordByte (b : UInt8) : Bool := (97 ≤ b && b ≤ 122) || (48 ≤ b && b ≤ 57) || b == 95

/-- Small letters, digits and underscores. -/
def IsWord (w : Text) : Prop := w ≠ [] ∧ w.all isWordByte = true

instance (w : Text) : Decidable (IsWord w) :=
  inferInstanceAs (Decidable (w ≠ [] ∧ w.all isWordByte = true))

/-- Each key is registered once, and is made of two words. -/
structure Registry.Regular (r : Registry) : Prop where
  defaults : (r.defaults.map Prod.fst).Nodup
  bound : (r.bound.map Prod.fst).Nodup
  keys : ∀ key ∈ r.keys,
    key = dotted (partOf key) (nameOf key) ∧ IsWord (partOf key) ∧ IsWord (nameOf key)
  ascii : r.variablePrefix ≠ [] ∧ ∀ b ∈ r.variablePrefix, b < 128

/-- The value of an environment variable that is set and not empty. -/
def setVariable (environment : List (Text × Text)) (name : Text) : Option Text :=
  (environment.lookup name).filter fun value => value ≠ []

/-- A key that may be spelled in any case has one place: no spelling of it stands twice, and at
    most one is not in lower case.  Between two of those the library may choose. -/
def Definite (es : List (Text × Value)) (key : Text) : Prop :=
  es.Pairwise fun e e' => lower e.1 = key → lower e'.1 = key →
    e.1 ≠ e'.1 ∧ (e.1 = key ∨ e'.1 = key)

instance (es : List (Text × Value)) (key : Text) : Decidable (Definite es key) :=
  inferInstanceAs (Decidable (es.Pairwise _))

/-- Is the value null? -/
def Value.isNull : Value → Bool
  | .null => true
  | _ => false

/-- A mapping without nulls. -/
def Value.IsFullMap : Value → Prop
  | .map es => ∀ e ∈ es, e.2.isNull = false
  | _ => False

instance (v : Value) : Decidable v.IsFullMap :=
  match v with
  | .map es => inferInstanceAs (Decidable (∀ e ∈ es, e.2.isNull = false))
  | .null | .bool _ | .int _ | .number _ | .text _ | .date | .list _ => isFalse not_false

/-- The sections that some keys stand in are mappings without nulls, each key has one place in its
    section, and none stands outside of it. -/
structure SectionedBy (keys : List Text) (file : List (Text × Value)) : Prop where
  mappings : ∀ key ∈ keys, ∀ e ∈ file, lower e.1 = partOf key →
    e.2.IsFullMap ∧ Definite e.2.entries (nameOf key)
  sections : ∀ key ∈ keys, Definite file (partOf key)
  undotted : ∀ key ∈ keys, ∀ e ∈ file, lower e.1 ≠ key

instance (keys : List Text) (file : List (Text × Value)) : Decidable (SectionedBy keys file) :=
  decidable_of_iff
    ((∀ key ∈ keys, ∀ e ∈ file, lower e.1 = partOf key →
        e.2.IsFullMap ∧ Definite e.2.entries (nameOf key))
      ∧ (∀ key ∈ keys, Definite file (partOf key)) ∧ ∀ key ∈ keys, ∀ e ∈ file, lower e.1 ≠ key)
    ⟨fun h => ⟨h.1, h.2.1, h.2.2⟩, fun h => ⟨h.mappings, h.sections, h.undotted⟩⟩

theorem SectionedBy.of_subset {keys keys' : List Text} {file : List (Text × Value)}
    (h : SectionedBy keys file) (hsub : keys' ⊆ keys) : SectionedBy keys' file where
  mappings := fun key hkey => h.mappings key (hsub hkey)
  sections := fun key hkey => h.sections key (hsub hkey)
  undotted := fun key hkey => h.undotted key (hsub hkey)

/-- Sources in which each key has one place. -/
structure Sources.Plain (s : Sources) : Prop where
  registry : s.registry.Regular
  environment : ∀ key ∈ s.registry.keys,
    setVariable s.environment (s.registry.variableName (partOf key)) = none
  file : SectionedBy s.registry.keys s.file

/-! ## The value of a key -/

/-- The value under a key in any case; an entry that spells the key otherwise counts before one
    that spells it so. -/
def valueUnder (es : List (Text × Value)) (key : Text) : Option Value :=
  ((es.find? fun e => e.1 ≠ key ∧ lower e.1 = key).or (es.find? fun e => e.1 = key)).map Prod.snd

/-- The value of a settings file under a key of a section. -/
def fileValue (file : List (Text × Value)) (part name : Text) : Option Value :=
  (valueUnder file part).bind fun v => valueUnder v.entries name

/-- The first value that the sources have for a key. -/
def Sources.firstValue (s : Sources) (key : Text) (default : Value) : Value :=
  (((s.registry.flag? key).or
    ((setVariable s.environment (s.registry.variableName key)).map .text)).or
    (fileValue s.file (partOf key) (nameOf key))).getD default

/-- **What the library is relied on for**: each registered key has the first value that its
    sources have; values of the kinds that settings have are converted to themselves; and texts
    are read as switches and integers, and split at commas into lists. -/
structure Settings.Library.Documented (lib : Settings.Library) : Prop where
  value?_eq : ∀ s : Sources, s.Plain → ∀ key default,
    s.registry.defaults.lookup key = some default →
      lib.value? s key = some (s.firstValue key default)
  toBool?_bool : ∀ b, lib.toBool? (.bool b) = some b
  toBool?_text : ∀ t, t ≠ [] → lib.toBool? (.text t) = readBool? t
  toInt?_int : ∀ n, -2 ^ 63 ≤ n → n < 2 ^ 63 → lib.toInt? (.int n) = some n
  toInt?_text : ∀ t, t ≠ [] → lib.toInt? (.text t) = (readInt t).toOption
  toText?_text : ∀ t, lib.toText? (.text t) = some t
  toTexts?_list : ∀ ts : List Text, lib.toTexts? (.list (ts.map .text)) = some ts
  toTexts?_text : ∀ t, t ≠ [] → lib.toTexts? (.text t) = some (split comma t)

/-! ## Looking up -/

theorem map_snd_find? {α : Type} (es : List (Text × α)) (key : Text) :
    (es.find? fun e => e.1 == key).map Prod.snd = es.lookup key := by
  induction es with
  | nil => rfl
  | cons e es ih =>
      obtain ⟨name, v⟩ := e
      by_cases h : name = key
      · subst h
        simp
      · have h' : (key == name) = false := by simpa using Ne.symm h
        simp [h, h', List.lookup_cons, ih]

theorem mem_of_lookup_eq_some {α : Type} {es : List (Text × α)} {key : Text} {v : α}
    (h : es.lookup key = some v) : (key, v) ∈ es := by
  rw [← map_snd_find?] at h
  obtain ⟨e, hfound, rfl⟩ := Option.map_eq_some_iff.1 h
  have hkey := List.find?_some hfound
  rw [← beq_iff_eq.1 hkey]
  exact List.mem_of_find?_eq_some hfound

/-- **Keys in lower case** are looked up as keys in any case. -/
theorem Sources.lookup_lowerKeys (es : List (Text × Value)) {key : Text} (hkey : lower key = key) :
    Value.lookup (lowerKeys es) key = valueUnder es key := by
  have hother : ∀ e : Text × Value, decide ((!lower e.1 == e.1) = true ∧ (lower e.1 == key) = true)
      = decide (e.1 ≠ key ∧ lower e.1 = key) := by
    intro e
    grind
  have hplain : ∀ e : Text × Value, decide ((lower e.1 == e.1) = true ∧ (lower e.1 == key) = true)
      = decide (e.1 = key) := by
    intro e
    grind
  rw [Value.lookup, lowerKeys, valueUnder, List.partition_eq_filter_filter]
  simp only [List.map_append, List.find?_append, List.find?_map, List.find?_filter,
    Function.comp_def, hother, hplain, Option.map_or, Option.map_map]

theorem exists_of_valueUnder {es : List (Text × Value)} {key : Text} (hkey : lower key = key)
    {v : Value} (h : valueUnder es key = some v) : ∃ e ∈ es, lower e.1 = key ∧ e.2 = v := by
  obtain ⟨e, he, rfl⟩ := Option.map_eq_some_iff.1 h
  rcases Option.or_eq_some_iff.1 he with he | ⟨-, he⟩
  · have hother : e.1 ≠ key ∧ lower e.1 = key := by simpa using List.find?_some he
    exact ⟨e, List.mem_of_find?_eq_some he, hother.2, rfl⟩
  · have hplain : e.1 = key := by simpa using List.find?_some he
    exact ⟨e, List.mem_of_find?_eq_some he, hplain ▸ hkey, rfl⟩

/-- Without nulls, null need not count as absent. -/
theorem Sources.lookupSome_lowerKeys {es : List (Text × Value)}
    (hnull : ∀ e ∈ es, e.2.isNull = false) {key : Text} (hkey : lower key = key) :
    Value.lookupSome (lowerKeys es) key = valueUnder es key := by
  rw [Value.lookupSome, lookup_lowerKeys es hkey]
  split
  · rename_i hv
    obtain ⟨e, he, -, hv⟩ := exists_of_valueUnder hkey hv
    have hfull := hnull e he
    rw [hv] at hfull
    cases hfull
  · rfl

/-- A text of ASCII without capitals is in lower case. -/
theorem lower_eq_self {w : Text} (h : ∀ b ∈ w, b < 128 ∧ ¬ (65 ≤ b ∧ b ≤ 90)) : lower w = w := by
  fun_induction lower w with
  | case1 s ih => exact absurd (h 0xC4 List.mem_cons_self).1 (by decide)
  | case2 s ih => exact absurd (h 0xE2 List.mem_cons_self).1 (by decide)
  | case3 b s _ _ ih =>
      have hb : ¬ (65 ≤ b && b ≤ 90) = true := by simpa using (h b List.mem_cons_self).2
      rw [if_neg hb, ih fun c hc => h c (List.mem_cons_of_mem b hc)]
  | case4 => rfl

theorem IsWord.small {w : Text} (h : IsWord w) : ∀ b ∈ w, b < 128 ∧ ¬ (65 ≤ b ∧ b ≤ 90) := by
  intro b hb
  have hword := List.all_eq_true.1 h.2 b hb
  rw [isWordByte] at hword
  grind

/-! ## Registered keys -/

section

variable {r : Registry} (hr : r.Regular) {key : Text} (hkey : key ∈ r.keys)

include hr hkey

theorem Registry.Regular.lower_part : lower (partOf key) = partOf key :=
  lower_eq_self (hr.keys key hkey).2.1.small

theorem Registry.Regular.lower_name : lower (nameOf key) = nameOf key :=
  lower_eq_self (hr.keys key hkey).2.2.small

theorem Registry.Regular.lower_key : lower key = key := by
  obtain ⟨hsplit, hpart, hname⟩ := hr.keys key hkey
  refine lower_eq_self fun b hb => ?_
  rw [hsplit, dotted, List.mem_append, List.mem_append] at hb
  rcases hb with (hb | hb) | hb
  · exact hpart.small b hb
  · rw [List.mem_singleton.1 hb]
    decide
  · exact hname.small b hb

end

/-! ## The standard library -/

namespace Sources

variable {s : Sources}

theorem fromEnvironment?_eq (name : Text) :
    s.fromEnvironment? name = setVariable s.environment name := by
  rw [fromEnvironment?, setVariable, ← map_snd_find?]
  cases s.environment.find? fun e => e.1 == name with
  | none => rfl
  | some e =>
      obtain ⟨_, value⟩ := e
      by_cases h : value = [] <;> simp [h, Option.filter]

section

variable (hs : s.Plain) {key : Text} (hkey : key ∈ s.registry.keys)

include hs hkey

/-- **A section of the file** is missing, or a mapping without nulls. -/
theorem section?_cases :
    s.section? (partOf key) = none
      ∨ ∃ es, s.section? (partOf key) = some (.map es) ∧ ∀ e ∈ es, e.2.isNull = false := by
  rw [section?, lookup_lowerKeys _ (hs.registry.lower_part hkey)]
  cases h : valueUnder s.file (partOf key) with
  | none => exact .inl rfl
  | some v =>
      obtain ⟨e, he, hpart, rfl⟩ := exists_of_valueUnder (hs.registry.lower_part hkey) h
      have hfull := (hs.file.mappings key hkey e he hpart).1
      revert hfull
      cases e.2 with
      | map es => exact fun hfull => .inr ⟨es, rfl, hfull⟩
      | _ => exact fun hfull => nomatch hfull

theorem isEmptySection_eq : s.isEmptySection (partOf key) = false := by
  rcases section?_cases hs hkey with h | ⟨es, h, -⟩ <;> rw [isEmptySection, h]

theorem isBrokenSection_eq : s.isBrokenSection (partOf key) = false := by
  rcases section?_cases hs hkey with h | ⟨es, h, -⟩ <;> rw [isBrokenSection, h]

theorem fallback_eq {default : Value} (hdefault : s.registry.defaults.lookup key = some default) :
    s.fallback key = default := by
  rcases section?_cases hs hkey with h | ⟨es, h, -⟩ <;> rw [fallback, h, hdefault] <;> rfl

theorem inFile?_eq : s.inFile? key = fileValue s.file (partOf key) (nameOf key) := by
  have hdotted : Value.lookup (lowerKeys s.file) key = none := by
    rw [lookup_lowerKeys _ (hs.registry.lower_key hkey), Option.eq_none_iff_forall_ne_some]
    intro v hv
    obtain ⟨e, he, hname, -⟩ := exists_of_valueUnder (hs.registry.lower_key hkey) hv
    exact hs.file.undotted key hkey e he hname
  have hsection := lookup_lowerKeys s.file (hs.registry.lower_part hkey)
  simp only [inFile?, Value.lookupSome, hdotted]
  rw [fileValue, ← hsection, ← section?]
  rcases section?_cases hs hkey with h | ⟨es, h, hnull⟩
  · rw [h]
    rfl
  · rw [h]
    exact lookupSome_lowerKeys hnull (hs.registry.lower_name hkey)

/-- **The value of a key** is the first one that its sources have. -/
theorem value_eq {default : Value} (hdefault : s.registry.defaults.lookup key = some default) :
    s.value key = s.firstValue key default := by
  rw [value, isEmptySection_eq hs hkey, fromEnvironment?_eq, fromEnvironment?_eq,
    hs.environment key hkey, inFile?_eq hs hkey, fallback_eq hs hkey hdefault, firstValue]
  cases s.registry.flag? key with
  | some v => rfl
  | none =>
      cases setVariable s.environment (s.registry.variableName key) with
      | some t => rfl
      | none => rfl

end

end Sources

/-- **The standard library does what it is relied on for.** -/
theorem documented_withDecoders (others : Decoders) :
    (Settings.Library.withDecoders others).Documented where
  value?_eq := by
    intro s hs key default hdefault
    have hkeys : ∀ d ∈ s.registry.defaults, d.1 ∈ s.registry.keys := fun d hd =>
      List.mem_append_left _ (List.mem_map_of_mem hd)
    have hbroken : ¬ (s.registry.defaults.any fun d => s.isBrokenSection (partOf d.1)) = true := by
      rw [List.any_eq_true]
      rintro ⟨d, hd, hbroken⟩
      rw [Sources.isBrokenSection_eq hs (hkeys d hd)] at hbroken
      cases hbroken
    have hkey : key ∈ s.registry.keys := hkeys _ (mem_of_lookup_eq_some hdefault)
    show (if _ then none else some (s.value key)) = _
    rw [if_neg hbroken, Sources.value_eq hs hkey hdefault]
  toBool?_bool := fun _ => rfl
  toBool?_text := fun t ht => if_neg ht
  toInt?_int := fun n _ hlt => congrArg some (if_pos hlt)
  toInt?_text := fun t ht => if_neg ht
  toText?_text := fun _ => rfl
  toTexts?_list := fun ts => by
    show (ts.map Value.text).mapM Value.toText? = some ts
    induction ts with
    | nil => rfl
    | cons t ts ih =>
        rw [List.map_cons, List.mapM_cons, ih]
        rfl
  toTexts?_text := fun t ht => by
    show some (if t = [] then [] else split comma t) = some (split comma t)
    rw [if_neg ht]

end ImportBlock
