import Mathlib
import ImportBlock.Proofs.CommandLine.Flags
import ImportBlock.Proofs.Settings.Library

/-! # Where each setting comes from

    A setting is what its flag says, else what its environment variable says, else what the
    settings file says, else its default.  `Chosen` says this of one setting, and
    `Settings.Ranked` of all seven, each with the flag, the variable and the key that it goes by.

    The library finds the first value of a key among the sources that were registered for it.
    So what is to be shown is that the right sources are: that each flag is bound to the key of
    its setting (`flag?_registry`), that prefix and key make the name of its variable, and that
    defaults and keys belong together.  Then converting the first value follows the order of
    precedence (`convert_firstValue_iff`).

    `settings_by_precedence` puts the seven settings together with the checks that follow, which
    `Settings.Completed` describes. -/

namespace ImportBlock

open Text

/-! ## The order of precedence -/

/-- The last value of a flag that was given on the command line. -/
def givenFlag (flags : Option FlagSet) (name : Text) : Option Value :=
  flags.bind fun fs => fs.given.lookup name

/-- How a setting is chosen: by its flag, whose value it has, else by the text of its variable,
    which is read, else by the value in the file, which is converted, else by default. -/
structure Chosen {α : Type} (ofFlag : α → Value) (read : Text → Option α)
    (convert : Value → Option α) (flag : Option Value) (inVariable : Option Text)
    (inFile : Option Value) (default x : α) : Prop where
  byFlag : ∀ v, flag = some v → v = ofFlag x
  byVariable : flag = none → ∀ t, inVariable = some t → read t = some x
  byFile : flag = none → inVariable = none → ∀ v, inFile = some v → convert v = some x
  byDefault : flag = none → inVariable = none → inFile = none → x = default

/-- The integer of 64 bits that a text spells. -/
def readInt? (t : Text) : Option Int := (readInt t).toOption

/-- Settings that follow the order of precedence. -/
@[mk_iff]
structure Settings.Ranked (lib : Settings.Library) (flags : Option FlagSet)
    (environment : List (Text × Text)) (file : List (Text × Value)) (r : Settings) : Prop where
  sort : Chosen .bool readBool? lib.toBool? (givenFlag flags (text "sort"))
    (setVariable environment (text "ESIO_RULES_SORT_IMPORTS"))
    (fileValue file (text "rules") (text "sort_imports")) false r.rules.sort
  dedupe : Chosen .bool readBool? lib.toBool? (givenFlag flags (text "dedupe"))
    (setVariable environment (text "ESIO_RULES_REMOVE_DUPLICATES"))
    (fileValue file (text "rules") (text "remove_duplicates")) false r.rules.dedupe
  merge : Chosen .bool readBool? lib.toBool? (givenFlag flags (text "merge"))
    (setVariable environment (text "ESIO_RULES_MERGE_IMPORTS"))
    (fileValue file (text "rules") (text "merge_imports")) false r.rules.merge
  keepMalformed : Chosen .bool readBool? lib.toBool? (givenFlag flags (text "keep-malformed"))
    (setVariable environment (text "ESIO_RULES_KEEP_MALFORMED"))
    (fileValue file (text "rules") (text "keep_malformed")) false r.rules.keepMalformed
  level : Chosen .text some lib.toText? (givenFlag flags (text "log-level"))
    (setVariable environment (text "ESIO_LOGGING_LEVEL"))
    (fileValue file (text "logging") (text "level")) (text "warn") r.level
  jobs : Chosen .int readInt? lib.toInt? (givenFlag flags (text "jobs"))
    (setVariable environment (text "ESIO_PROCESSING_JOBS"))
    (fileValue file (text "processing") (text "jobs")) 0 r.jobs
  -- The extensions have no flag.
  extensions : Chosen (fun es => .list (es.map .text)) (fun t => some (split comma t))
    lib.toTexts? none (setVariable environment (text "ESIO_PROCESSING_EXTENSIONS"))
    (fileValue file (text "processing") (text "extensions"))
    ([".js", ".jsx", ".mjs", ".cjs", ".ts", ".tsx", ".mts", ".cts"].map text) r.extensions

/-- The names of the levels of the log. -/
def levelNames : List Text := ["debug", "info", "warn", "error", "fatal"].map text

/-- An extension with a dot before it, if it lacks one. -/
def Dotted (e e' : Text) : Prop :=
  (e.head? = some dot ∧ e' = e) ∨ (e.head? ≠ some dot ∧ e' = dot :: e)

/-- Valid settings, which differ from the chosen ones only in the dots of the extensions. -/
structure Settings.Completed (r s : Settings) : Prop where
  rules : s.rules = r.rules
  level : s.level = r.level
  jobs : s.jobs = r.jobs
  extensions : List.Forall₂ Dotted r.extensions s.extensions
  validLevel : lower s.level ∈ levelNames
  validJobs : 0 ≤ s.jobs
  validExtensions : s.extensions ≠ []

/-! ## What is assumed of the sources -/

/-- The flags come from a command line that was read, or there is none. -/
inductive FlagsRead : Option FlagSet → Prop where
  | absent : FlagsRead none
  | read {known : List Flag} {args : List Text} {a : Arguments}
      (hknown : ∀ f ∈ known, f ∈ Command.flags) (hread : Arguments.read known args = .ok a) :
      FlagsRead (some { known := known, given := a.flags })

/-- No environment variable stands for a whole section. -/
def NoSectionVariable (environment : List (Text × Text)) : Prop :=
  ∀ name ∈ ["ESIO_RULES", "ESIO_LOGGING", "ESIO_PROCESSING"],
    setVariable environment (text name) = none

instance (environment : List (Text × Text)) : Decidable (NoSectionVariable environment) :=
  inferInstanceAs (Decidable (∀ name ∈ ["ESIO_RULES", "ESIO_LOGGING", "ESIO_PROCESSING"],
    setVariable environment (text name) = none))

/-- The sections of the file are mappings without nulls, each setting has one place in its
    section, and none is written at the top under its dotted key. -/
def Sectioned (file : List (Text × Value)) : Prop := SectionedBy (Setting.all.map Setting.path) file

instance (file : List (Text × Value)) : Decidable (Sectioned file) :=
  inferInstanceAs (Decidable (SectionedBy (Setting.all.map Setting.path) file))

/-! ## What is registered -/

/-- A key is bound to its flag, if the command line knows that. -/
theorem mem_boundKeys {fs : FlagSet} {e : Text × Option Value} :
    e ∈ boundKeys fs ↔ ∃ name, (name, e.1) ∈ flagKeys ∧ fs.knows name = true
      ∧ e.2 = fs.given.lookup name := by
  obtain ⟨key, v⟩ := e
  simp only [boundKeys, List.mem_map, List.mem_filter, Prod.exists, Prod.mk.injEq]
  constructor
  · rintro ⟨name, _, ⟨hkey, hknown⟩, rfl, rfl⟩
    exact ⟨name, hkey, hknown, rfl⟩
  · rintro ⟨name, hkey, hknown, rfl⟩
    exact ⟨name, key, ⟨hkey, hknown⟩, rfl, rfl⟩

/-- Every registered key is that of a setting. -/
theorem keys_registry_subset (flags : Option FlagSet) :
    (registry flags).keys ⊆ Setting.all.map Setting.path := by
  have htables : settingDefaults.map Prod.fst ++ flagKeys.map Prod.snd
      ⊆ Setting.all.map Setting.path := by decide
  intro key hkey
  refine htables (List.mem_append.2 ((List.mem_append.1 hkey).imp_right fun hbound => ?_))
  cases flags with
  | none => cases hbound
  | some fs =>
      obtain ⟨e, he, rfl⟩ := List.mem_map.1 hbound
      obtain ⟨name, hname, -⟩ := mem_boundKeys.1 he
      exact List.mem_map_of_mem hname

theorem regular_registry (flags : Option FlagSet) : (registry flags).Regular where
  defaults := by
    show (settingDefaults.map Prod.fst).Nodup
    decide
  bound := by
    cases flags with
    | none => exact List.nodup_nil
    | some fs =>
        have hkeys : (flagKeys.map Prod.snd).Nodup := by decide
        show ((boundKeys fs).map Prod.fst).Nodup
        rw [boundKeys, List.map_map]
        exact hkeys.sublist (List.filter_sublist.map Prod.snd)
  keys := by
    have hpaths : ∀ key ∈ Setting.all.map Setting.path, key = dotted (partOf key) (nameOf key)
        ∧ IsWord (partOf key) ∧ IsWord (nameOf key) := by decide +kernel
    exact fun key hkey => hpaths key (keys_registry_subset flags hkey)
  ascii := by
    show variablePrefix ≠ [] ∧ ∀ b ∈ variablePrefix, b < 128
    decide +kernel

theorem lookup_of_mem {α : Type} {es : List (Text × α)} {key : Text} {v : α} (h : (key, v) ∈ es)
    (hone : ∀ e ∈ es, e.1 = key → e.2 = v) : es.lookup key = some v := by
  obtain ⟨e, hfound⟩ : ∃ e, (es.find? fun e => e.1 == key) = some e :=
    Option.isSome_iff_exists.1 (List.find?_isSome.2 ⟨_, h, beq_self_eq_true key⟩)
  have hkey := List.find?_some hfound
  rw [← map_snd_find?, hfound, Option.map_some,
    hone e (List.mem_of_find?_eq_some hfound) (beq_iff_eq.1 hkey)]

/-- No two flags stand for the same key. -/
theorem fst_eq_of_mem_flagKeys {name name' key : Text} (h : (name, key) ∈ flagKeys)
    (h' : (name', key) ∈ flagKeys) : name = name' := by
  have hone : ∀ e ∈ flagKeys, ∀ e' ∈ flagKeys, e.2 = e'.2 → e.1 = e'.1 := by decide
  exact hone _ h _ h' rfl

/-- A key that no flag stands for is not bound. -/
theorem flag?_registry_of_not_mem (flags : Option FlagSet) {key : Text}
    (h : key ∉ flagKeys.map Prod.snd) : (registry flags).flag? key = none := by
  cases flags with
  | none => rfl
  | some fs =>
      have hbound : (boundKeys fs).lookup key = none := by
        rw [List.lookup_eq_none_iff]
        intro e he
        obtain ⟨name, hkey, -⟩ := mem_boundKeys.1 he
        exact bne_iff_ne.2 fun hsame => h (hsame ▸ List.mem_map_of_mem hkey)
      show ((boundKeys fs).lookup key).join = none
      rw [hbound]
      rfl

/-- **Each flag is bound to the key of its setting.** -/
theorem flag?_registry {flags : Option FlagSet} (h : FlagsRead flags) {name key : Text}
    (hkey : (name, key) ∈ flagKeys) : (registry flags).flag? key = givenFlag flags name := by
  cases h with
  | absent => rfl
  | @read known args a hknown hread =>
      show ((boundKeys { known, given := a.flags }).lookup key).join = a.flags.lookup name
      cases hname : FlagSet.knows { known, given := a.flags } name with
      | true =>
          rw [lookup_of_mem (mem_boundKeys.2 ⟨name, hkey, hname, rfl⟩) fun e he hsame => ?_]
          · rfl
          · obtain ⟨other, hother, -, hvalue⟩ := mem_boundKeys.1 he
            rw [hsame] at hother
            rw [hvalue, fst_eq_of_mem_flagKeys hother hkey]
      | false =>
          -- a flag that is not known is not given
          have hgiven : a.flags.lookup name = none := by
            rw [Option.eq_none_iff_forall_ne_some]
            intro v hv
            obtain ⟨f, hf, hfname, -⟩ :=
              Arguments.typed_of_read hread (name, v) (mem_of_lookup_eq_some hv)
            have hknows : FlagSet.knows { known, given := a.flags } name = true :=
              List.any_eq_true.2 ⟨f, hf, beq_iff_eq.2 hfname⟩
            rw [hname] at hknows
            cases hknows
          rw [hgiven]
          have hbound : (boundKeys { known, given := a.flags }).lookup key = none := by
            rw [List.lookup_eq_none_iff]
            intro e he
            obtain ⟨other, hother, hknows, -⟩ := mem_boundKeys.1 he
            refine bne_iff_ne.2 fun hsame => ?_
            rw [← hsame] at hother
            rw [fst_eq_of_mem_flagKeys hother hkey, hname] at hknows
            cases hknows
          rw [hbound]
          rfl

/-- The sources of a run are plain. -/
theorem plain_sources (flags : Option FlagSet) {environment : List (Text × Text)}
    {file : List (Text × Value)} (henv : NoSectionVariable environment) (hfile : Sectioned file) :
    Sources.Plain { registry := registry flags, environment, file } where
  registry := regular_registry flags
  environment := by
    have hnames : ∀ key ∈ Setting.all.map Setting.path,
        ∃ name ∈ ["ESIO_RULES", "ESIO_LOGGING", "ESIO_PROCESSING"],
          (registry none).variableName (partOf key) = text name := by decide
    intro key hkey
    obtain ⟨name, hname, hvariable⟩ := hnames key (keys_registry_subset flags hkey)
    show setVariable environment ((registry none).variableName (partOf key)) = none
    rw [hvariable]
    exact henv name hname
  file := hfile.of_subset (keys_registry_subset flags)

/-! ## Converting the first value -/

/-- **Converting the first value** follows the order of precedence, if a flag has a value that is
    converted to itself, and so has the default. -/
theorem chosen_iff {α : Type} {ofFlag : α → Value} {read : Text → Option α}
    {convert : Value → Option α} {flag inFile : Option Value} {inVariable : Option Text}
    {defaultValue : Value} {default x : α}
    (hflag : ∀ v, flag = some v → ∀ x, convert v = some x ↔ v = ofFlag x)
    (hread : ∀ t, inVariable = some t → convert (.text t) = read t)
    (hdefault : convert defaultValue = some default) :
    convert (((flag.or (inVariable.map .text)).or inFile).getD defaultValue) = some x
      ↔ Chosen ofFlag read convert flag inVariable inFile default x := by
  constructor
  · intro h
    constructor
    · rintro v rfl
      exact (hflag v rfl x).1 h
    · rintro rfl t rfl
      exact (hread t rfl).symm.trans h
    · rintro rfl rfl v rfl
      exact h
    · rintro rfl rfl rfl
      exact Option.some.inj (h.symm.trans hdefault)
  · intro h
    cases hf : flag with
    | some v => exact (hflag v hf x).2 (h.byFlag v hf)
    | none =>
        cases hv : inVariable with
        | some t => exact (hread t hv).trans (h.byVariable hf t hv)
        | none =>
            cases hfile : inFile with
            | some v => exact h.byFile hf hv v hfile
            | none => exact (h.byDefault hf hv hfile).symm ▸ hdefault

/-- **The value of a flag is of its kind**, if all flags of its name are of that kind. -/
theorem FlagsRead.gives {flags : Option FlagSet} (h : FlagsRead flags) {name : Text}
    {kind : FlagKind} (hkind : ∀ f ∈ Command.flags, f.name = name → f.kind = kind) {v : Value}
    (hv : givenFlag flags name = some v) : kind.Gives v := by
  cases h with
  | absent => cases hv
  | read hknown hread =>
      obtain ⟨f, hf, hname, hgives⟩ :=
        Arguments.typed_of_read hread (name, v) (mem_of_lookup_eq_some hv)
      exact hkind f (hknown f hf) hname ▸ hgives

theorem ne_nil_of_setVariable {environment : List (Text × Text)} {name t : Text}
    (h : setVariable environment name = some t) : t ≠ [] := by
  rw [setVariable, Option.filter_eq_some_iff] at h
  exact of_decide_eq_true h.2

/-- The default of a setting. -/
def Setting.default (k : Setting) : Value := (settingDefaults.lookup k.path).getD .null

theorem Setting.lookup_default (k : Setting) : settingDefaults.lookup k.path = some k.default := by
  cases k <;> rfl

/-- **A setting with a flag** follows the order of precedence. -/
theorem convert_firstValue_iff {flags : Option FlagSet} (hflags : FlagsRead flags)
    {environment : List (Text × Text)} {file : List (Text × Value)} {α : Type}
    {ofFlag : α → Value} {read : Text → Option α} {convert : Value → Option α} {kind : FlagKind}
    (hgives : ∀ v, kind.Gives v → ∀ x, convert v = some x ↔ v = ofFlag x)
    (hread : ∀ t, t ≠ [] → convert (.text t) = read t)
    (k : Setting) {flag inVariable part name : Text} (hflag : (flag, k.path) ∈ flagKeys)
    (hkind : ∀ f ∈ Command.flags, f.name = flag → f.kind = kind)
    (hnames : (registry none).variableName k.path = inVariable ∧ partOf k.path = part
      ∧ nameOf k.path = name)
    {default : α} (hdefault : convert k.default = some default) {x : α} :
    convert (Sources.firstValue { registry := registry flags, environment, file } k.path k.default)
        = some x
      ↔ Chosen ofFlag read convert (givenFlag flags flag) (setVariable environment inVariable)
        (fileValue file part name) default x := by
  obtain ⟨rfl, rfl, rfl⟩ := hnames
  rw [Sources.firstValue, flag?_registry hflags hflag]
  exact chosen_iff (fun v hv => hgives v (hflags.gives hkind hv))
    (fun t ht => hread t (ne_nil_of_setVariable ht)) hdefault

/-! ## All settings -/

theorem choose?_eq_some_iff {lib : Settings.Library} {s : Sources} {value : Setting → Value}
    (hvalue : ∀ k : Setting, lib.value? s k.path = some (value k)) {r : Settings} :
    lib.choose? s = some r ↔ lib.toBool? (value .sort) = some r.rules.sort
      ∧ lib.toBool? (value .dedupe) = some r.rules.dedupe
      ∧ lib.toBool? (value .merge) = some r.rules.merge
      ∧ lib.toBool? (value .keepMalformed) = some r.rules.keepMalformed
      ∧ lib.toText? (value .level) = some r.level
      ∧ lib.toInt? (value .jobs) = some r.jobs
      ∧ lib.toTexts? (value .extensions) = some r.extensions := by
  simp only [Settings.Library.choose?, hvalue, Option.pure_def, Option.bind_eq_bind,
    Option.bind_some, Option.bind_eq_some_iff]
  constructor
  · rintro ⟨_, hsort, _, hdedupe, _, hmerge, _, hkeep, _, hlevel, _, hjobs, _, hextensions, h⟩
    cases h
    exact ⟨hsort, hdedupe, hmerge, hkeep, hlevel, hjobs, hextensions⟩
  · rintro ⟨hsort, hdedupe, hmerge, hkeep, hlevel, hjobs, hextensions⟩
    exact ⟨_, hsort, _, hdedupe, _, hmerge, _, hkeep, _, hlevel, _, hjobs, _, hextensions, rfl⟩

/-- **The settings that the sources choose** follow the order of precedence. -/
theorem choose?_eq_some_iff_ranked {lib : Settings.Library} (hlib : lib.Documented)
    {flags : Option FlagSet} (hflags : FlagsRead flags) {environment : List (Text × Text)}
    {file : List (Text × Value)} (henv : NoSectionVariable environment) (hfile : Sectioned file)
    {r : Settings} :
    lib.choose? { registry := registry flags, environment, file } = some r
      ↔ r.Ranked lib flags environment file := by
  have hvalue : ∀ k : Setting, lib.value? { registry := registry flags, environment, file } k.path
      = some (Sources.firstValue { registry := registry flags, environment, file } k.path
          k.default) := fun k =>
    hlib.value?_eq _ (plain_sources flags henv hfile) k.path k.default k.lookup_default
  have hswitch : ∀ v, FlagKind.switch.Gives v → ∀ b, lib.toBool? v = some b ↔ v = .bool b := by
    rintro _ ⟨b, rfl⟩ b'
    simp [hlib.toBool?_bool]
  have htext : ∀ v, FlagKind.text.Gives v → ∀ t, lib.toText? v = some t ↔ v = .text t := by
    rintro _ ⟨t, rfl⟩ t'
    simp [hlib.toText?_text]
  have hinteger : ∀ v, FlagKind.integer.Gives v → ∀ n, lib.toInt? v = some n ↔ v = .int n := by
    rintro _ ⟨n, rfl, hlow, hhigh⟩ n'
    simp [hlib.toInt?_int n hlow hhigh]
  have hoff := hlib.toBool?_bool false
  rw [choose?_eq_some_iff hvalue, Settings.ranked_iff]
  refine and_congr (convert_firstValue_iff hflags hswitch hlib.toBool?_text .sort (by decide)
    (by decide) (by decide) hoff) ?_
  refine and_congr (convert_firstValue_iff hflags hswitch hlib.toBool?_text .dedupe (by decide)
    (by decide) (by decide) hoff) ?_
  refine and_congr (convert_firstValue_iff hflags hswitch hlib.toBool?_text .merge (by decide)
    (by decide) (by decide) hoff) ?_
  refine and_congr (convert_firstValue_iff hflags hswitch hlib.toBool?_text .keepMalformed
    (by decide) (by decide) (by decide) hoff) ?_
  refine and_congr (convert_firstValue_iff hflags htext (fun t _ => hlib.toText?_text t) .level
    (by decide) (by decide) (by decide) (hlib.toText?_text _)) ?_
  refine and_congr (convert_firstValue_iff hflags hinteger hlib.toInt?_text .jobs (by decide)
    (by decide) (by decide) (hlib.toInt?_int 0 (by decide) (by decide))) ?_
  rw [Sources.firstValue, flag?_registry_of_not_mem flags (by decide)]
  exact chosen_iff (fun _ h => (Option.some_ne_none _ h.symm).elim)
    (fun t ht => hlib.toTexts?_text t (ne_nil_of_setVariable ht))
    (hlib.toTexts?_list defaultExtensions)

/-! ## Valid settings -/

theorem isNone_ofName?_iff (name : Text) :
    (Level.ofName? name).isNone = true ↔ lower name ∉ levelNames := by
  rw [Level.ofName?, levelNames]
  grind

theorem dotted_iff {e e' : Text} : Dotted e e' ↔ withDot e = e' := by
  rw [Dotted, withDot]
  grind

theorem forall₂_dotted_iff {es es' : List Text} :
    List.Forall₂ Dotted es es' ↔ es.map withDot = es' := by
  simp only [funext₂ fun e e' => propext (@dotted_iff e e')]
  rw [← List.forall₂_map_left_iff, List.forall₂_eq_eq_eq]

theorem Settings.validate_eq_ok_iff {r s : Settings} : r.validate = .ok s
    ↔ lower r.level ∈ levelNames ∧ 0 ≤ r.jobs ∧ r.extensions ≠ []
      ∧ { r with extensions := r.extensions.map withDot } = s := by
  rw [validate]
  simp only [isNone_ofName?_iff]
  split
  · rename_i hlevel
    simp [hlevel]
  · rename_i hlevel
    split
    · rename_i hjobs
      simp [not_le.2 hjobs]
    · rename_i hjobs
      split
      · rename_i hext
        simp [hext]
      · rename_i hext
        simp [not_not.1 hlevel, not_lt.1 hjobs, hext]

/-- **Checking settings** completes them. -/
theorem Settings.validate_eq_ok_iff_completed {r s : Settings} :
    r.validate = .ok s ↔ r.Completed s := by
  rw [validate_eq_ok_iff]
  constructor
  · rintro ⟨hlevel, hjobs, hext, rfl⟩
    exact ⟨rfl, rfl, rfl, forall₂_dotted_iff.2 rfl, hlevel, hjobs, by simpa using hext⟩
  · intro h
    have hext := forall₂_dotted_iff.1 h.extensions
    refine ⟨h.level ▸ h.validLevel, h.jobs ▸ h.validJobs, ?_, ?_⟩
    · rintro hnil
      exact h.validExtensions (by rw [← hext, hnil, List.map_nil])
    · rw [hext, ← h.rules, ← h.level, ← h.jobs]

/-! ## Loading -/

/-- Another error makes no result. -/
theorem mapError_eq_ok_iff {ε ε' α : Type} {x : Except ε α} {f : ε → ε'} {a : α} :
    x.mapError f = .ok a ↔ x = .ok a := by
  constructor
  · intro h
    cases x with
    | error e => cases h
    | ok b => exact congrArg Except.ok (Except.ok.inj h)
  · rintro rfl
    rfl

theorem loadSettings_eq_ok_iff {lib : Settings.Library} {t : Tree} {cwd : Place} {path : Text}
    {dirs : List Text} {flags : Option FlagSet} {environment : List (Text × Text)} {s : Settings} :
    loadSettings lib t cwd path dirs flags environment = .ok s
      ↔ ∃ (file : List (Text × Value)) (r : Settings),
        lib.entries t cwd path dirs environment = .ok file
          ∧ lib.choose? { registry := registry flags, environment, file } = some r
          ∧ r.validate = .ok s := by
  constructor
  · intro h
    obtain ⟨file, hfile, hchosen⟩ := exists_of_bind_ok h
    refine ⟨file, ?_⟩
    cases hchoose : lib.choose? { registry := registry flags, environment, file } with
    | none =>
        rw [hchoose] at hchosen
        cases hchosen
    | some r =>
        rw [hchoose] at hchosen
        exact ⟨r, mapError_eq_ok_iff.1 hfile, rfl, mapError_eq_ok_iff.1 hchosen⟩
  · rintro ⟨file, r, hfile, hchoose, hvalid⟩
    rw [loadSettings, hfile]
    dsimp only [Except.mapError, bind, Except.bind]
    rw [hchoose]
    exact mapError_eq_ok_iff.2 hvalid

/-- **Settings follow their order of precedence.**  Let the library do what it is relied on for.
    Settings are loaded if and only if a settings file was read, or there is none to read, and
    each setting is what its flag says, else what its environment variable says, else what the
    file says, else its default.  The level is then one of the log's, the number of jobs is not
    negative, and there are extensions; a dot stands before those that lack one, and nothing else
    differs from what was chosen. -/
theorem settings_by_precedence {lib : Settings.Library} (hlib : lib.Documented) {t : Tree}
    {cwd : Place} {path : Text} {dirs : List Text} {flags : Option FlagSet}
    {environment : List (Text × Text)} (hflags : FlagsRead flags)
    (henv : NoSectionVariable environment)
    (hfile : ∀ file, lib.entries t cwd path dirs environment = .ok file → Sectioned file)
    (s : Settings) :
    loadSettings lib t cwd path dirs flags environment = .ok s
      ↔ ∃ (file : List (Text × Value)) (r : Settings),
        lib.entries t cwd path dirs environment = .ok file
          ∧ r.Ranked lib flags environment file ∧ r.Completed s := by
  rw [loadSettings_eq_ok_iff]
  refine exists_congr fun file => exists_congr fun r => and_congr_right fun hentries => ?_
  exact and_congr (choose?_eq_some_iff_ranked hlib hflags henv (hfile file hentries))
    Settings.validate_eq_ok_iff_completed

/-- A settings file in the top directory, with a key in another case. -/
def rankedTree : Tree where
  entries :=
    [([text ".esio.yaml"], .file (Text.unlines (["rules:", "  Sort_Imports: true",
      "  merge_imports: true", "processing:", "  jobs: 2", "  extensions: [js, .vue]"].map text)))]

/-- An environment that sets a variable, and another one to nothing. -/
def rankedEnvironment : List (Text × Text) :=
  [(text "ESIO_PROCESSING_JOBS", text "0x10"), (text "ESIO_LOGGING_LEVEL", [])]

/-- The flag decides on merging, the variable on the jobs, the file on sorting and the
    extensions, and the level is the default. -/
def rankedSettings : Settings where
  rules := { sort := true }
  level := text "warn"
  jobs := 16
  extensions := [text ".js", text ".vue"]

theorem settings_by_precedence_rankedTree :
    ∃ (file : List (Text × Value)) (r : Settings),
      Settings.Library.standard.entries rankedTree [] [] [text "/"] rankedEnvironment = .ok file
        ∧ r.Ranked .standard (some ⟨Command.flags, [(text "merge", .bool false)]⟩)
          rankedEnvironment file
        ∧ r.Completed rankedSettings := by
  have hread : Arguments.read Command.flags [text "--merge=false"]
      = .ok { flags := [(text "merge", .bool false)] } := rfl
  have hsectioned : (match Settings.Library.standard.entries rankedTree [] [] [text "/"]
        rankedEnvironment with
      | .ok file => decide (Sectioned file)
      | .error _ => true) = true := by decide +kernel
  refine (settings_by_precedence (documented_withDecoders _)
    (FlagsRead.read (fun _ h => h) hread) (by decide) ?_ _).1 (by decide +kernel)
  intro file hfile
  rw [Settings.Library.standard] at hsectioned
  rw [hfile] at hsectioned
  exact of_decide_eq_true hsectioned

end ImportBlock
