import Mathlib
import ImportBlock.Proofs.Clause.Reading
import ImportBlock.Statement.Reader

/-! # Printed clauses are read back

    A clause can be printed faithfully when its names are trimmed, hold none of the
    bytes that shape a clause and no whole word `from`, and when its named bindings
    have distinct names that the reader does not cut at `as`.  `Clause.Printable`
    says so.

    `read?_render` is the round trip.  It is exact but for one case: a lone named
    binding without a namespace is printed without braces, and what is read back is
    one default binding, the whole text (`Clause.reread`). -/

namespace ImportBlock

open Text

theorem ident_fromWord : Ident fromWord := by decide

theorem Text.Blank.noFrom {w : Text} (h : Blank w) : ¬ HasWordFrom fromWord 0 w :=
  not_hasWordFrom_of_not_ident ident_fromWord h.not_ident

/-- A text that can be printed in the place of a name. -/
structure PlainName (t : Text) : Prop where
  trimmed : Trimmed t
  unmarked : ∀ b ∈ t, b ∉ clauseMarks
  noFrom : ¬ HasWordFrom fromWord 0 t

/-- A text that can be printed as a part of a clause. -/
structure Part (t : Text) : Prop where
  ne_nil : t ≠ []
  trimmed : Trimmed t
  noFrom : ¬ HasWordFrom fromWord 0 t

theorem PlainName.part {t : Text} (h : PlainName t) (hne : t ≠ []) : Part t :=
  ⟨hne, h.trimmed, h.noFrom⟩

theorem PlainName.eq_nil_or_part {t : Text} (h : PlainName t) : t = [] ∨ Part t :=
  or_iff_not_imp_left.2 h.part

theorem plainName_nil : PlainName [] := by
  refine ⟨trimmed_nil, ?_, not_hasWordFrom_of_not_ident ident_fromWord ?_⟩
  · intro b hb
    cases hb
  · intro b hb
    cases hb

theorem Text.Ident.plainName {s : Text} (h : Ident s) (hfrom : s ≠ fromWord) : PlainName s :=
  ⟨h.trimmed, h.not_mark, fun hw => hfrom (eq_of_hasWordFrom_ident h hw).2⟩

/-- Two parts of a clause and what stands between them, which holds no word `from`
    and joins with no identifier and no white space. -/
theorem Part.append {a sep b : Text} (ha : Part a) (hb : Part b)
    (hsep : sep ≠ []) (hstart : startsIdent sep = false) (hend : endsIdent sep = false)
    (hfrom : ¬ HasWordFrom fromWord 0 sep) (hinner : ∀ c ∈ sep.head?, isInner c = false)
    (houter : ∀ c ∈ sep.getLast?, isOuter c = false) : Part (a ++ sep ++ b) := by
  refine ⟨?_, ⟨?_, ?_⟩, ?_⟩
  · intro h
    exact hb.ne_nil (List.append_eq_nil_iff.1 h).2
  · rw [List.append_assoc]
    refine ha.trimmed.1.append ha.ne_nil fun c hc => hinner c ?_
    cases sep with
    | nil => exact absurd rfl hsep
    | cons d sep => exact hc
  · refine hb.trimmed.2.append hb.ne_nil fun c hc => houter c ?_
    rw [List.getLast?_append, List.getLast?_eq_some_getLast hsep] at hc
    rw [List.getLast?_eq_some_getLast hsep]
    exact hc
  · have hleft : Parted (a ++ sep) b := Or.inl (by rw [endsIdent_append hsep]; exact hend)
    exact not_hasWordFrom_append ident_fromWord hleft
      (not_hasWordFrom_append ident_fromWord (Or.inr hstart) ha.noFrom hfrom) hb.noFrom

theorem Part.comma_append {a b : Text} (ha : Part a) (hb : Part b) :
    Part (a ++ text ", " ++ b) :=
  ha.append hb (by decide) (by decide) (by decide)
    (not_hasWordFrom_of_not_ident ident_fromWord (forall_mem_of_all (by decide)))
    (forall_mem_of_option_all (by decide)) (forall_mem_of_option_all (by decide))

theorem Part.as_append {a b : Text} (ha : Part a) (hb : Part b) :
    Part (a ++ text " as " ++ b) :=
  ha.append hb (by decide) (by decide) (by decide)
    ((cutWordFrom_eq_none ident_fromWord.1).1 (by decide))
    (forall_mem_of_option_all (by decide)) (forall_mem_of_option_all (by decide))

/-- Parts with commas between them are a part. -/
theorem Part.join {ps : List Text} (hne : ps ≠ []) (h : ∀ p ∈ ps, Part p) :
    Part (Text.join (text ", ") ps) := by
  induction ps with
  | nil => exact absurd rfl hne
  | cons p ps ih =>
      have hp := h p List.mem_cons_self
      by_cases hps : ps = []
      · subst hps
        exact hp
      · rw [join_cons p hps]
        exact hp.comma_append (ih hps fun q hq => h q (List.mem_cons_of_mem p hq))

namespace Binding

/-! ## Bindings -/

/-- The names of a binding can be printed as parts of a clause. -/
structure Spelled (b : Binding) : Prop where
  name : Part b.name
  localName : b.localName = [] ∨ Part b.localName

theorem Spelled.part {b : Binding} (h : b.Spelled) : Part b.render := by
  rw [render]
  rcases h.localName with hl | hl
  · rw [if_pos hl]
    exact h.name
  · rw [if_neg hl.ne_nil]
    exact h.name.as_append hl

/-- The conditions under which a printed binding is read back. -/
structure Printable (b : Binding) : Prop where
  name_ne : b.name ≠ []
  name : PlainName b.name
  localName : PlainName b.localName
  noAs : ¬ HasWordFrom asWord 1 b.name

theorem Printable.spelled {b : Binding} (h : b.Printable) : b.Spelled :=
  ⟨h.name.part h.name_ne, h.localName.eq_nil_or_part⟩

theorem Printable.part {b : Binding} (h : b.Printable) : Part b.render := h.spelled.part

theorem Printable.unmarked {b : Binding} (h : b.Printable) : ∀ c ∈ b.render, c ∉ clauseMarks := by
  rw [render]
  by_cases hl : b.localName = []
  · rw [if_pos hl]
    exact h.name.unmarked
  · rw [if_neg hl]
    intro c hc
    rcases List.mem_append.1 hc with hc | hc
    · rcases List.mem_append.1 hc with hc | hc
      · exact h.name.unmarked c hc
      · have htable : ∀ c ∈ text " as ", c ∉ clauseMarks := forall_mem_of_all (by decide)
        exact htable c hc
    · exact h.localName.unmarked c hc

/-- **A printed binding is read back.** -/
theorem Printable.read_render {b : Binding} (h : b.Printable) : read b.render = b := by
  obtain ⟨n, l⟩ := b
  rw [render]
  by_cases hl : l = []
  · subst hl
    rw [if_pos rfl]
    exact read_name h.noAs
  · rw [if_neg hl]
    have hspaced : n ++ text " as " ++ l = n ++ [32] ++ asWord ++ [32] ++ l := by
      rw [show text " as " = [32] ++ asWord ++ [32] from rfl]
      simp only [List.append_assoc]
    rw [hspaced]
    exact read_renamed h.name_ne h.name.trimmed h.noAs blank_space (List.cons_ne_nil _ _)
      blank_space (List.cons_ne_nil _ _) h.localName.trimmed

/-- The interior of a printed list is a list of the printed bindings. -/
theorem listed_join : ∀ (t : Text) (ts : List Text),
    Listed (t :: ts) ([32] ++ Text.join (text ", ") (t :: ts) ++ [32])
  | t, [] => Listed.last blank_space blank_space
  | t, u :: ts => by
      have hmore := Listed.more (t := t) blank_space blank_nil (listed_join u ts)
      have heq : [32] ++ Text.join (text ", ") (t :: u :: ts) ++ [32]
          = [32] ++ t ++ [] ++ comma :: ([32] ++ Text.join (text ", ") (u :: ts) ++ [32]) := by
        rw [join_cons t (List.cons_ne_nil u ts), List.append_nil,
          show text ", " = comma :: [32] from rfl]
        simp only [List.append_assoc, List.cons_append, List.nil_append]
      rw [heq]
      exact hmore

/-- Listed bindings are read back if their names are distinct. -/
theorem readList_render {bs : List Binding} {s : Text} (h : ∀ b ∈ bs, b.Printable)
    (hnodup : (bs.map Binding.name).Nodup) (hs : Listed (bs.map render) s) : readList s = bs := by
  have hentries := hs.entries fun t ht => by
    obtain ⟨b, hb, rfl⟩ := List.mem_map.1 ht
    have hpart := (h b hb).part
    exact ⟨hpart.trimmed, hpart.ne_nil, not_mem_of_not_mark (h b hb).unmarked (by decide)⟩
  have hread : (bs.map render).map read = bs := by
    rw [List.map_map]
    calc bs.map (read ∘ render) = bs.map id :=
          List.map_congr_left fun b hb => (h b hb).read_render
      _ = bs := List.map_id bs
  rw [readList, hentries, hread, distinct_nil_eq fun b hb => (h b hb).name_ne]
  exact firstOfEachName_eq_self hnodup

end Binding

namespace Clause

/-! ## Clauses -/

/-- The names of a clause can be printed as parts of it. -/
structure Spelled (c : Clause) : Prop where
  defaultName : c.defaultName = [] ∨ Part c.defaultName
  namespaceName : c.namespaceName = [] ∨ Part c.namespaceName
  named : ∀ b ∈ c.named, b.Spelled

/-- The conditions under which a printed clause is read back. -/
structure Printable (c : Clause) : Prop where
  defaultName : PlainName c.defaultName
  namespaceName : PlainName c.namespaceName
  named : ∀ b ∈ c.named, b.Printable
  nodup : (c.named.map Binding.name).Nodup

theorem Printable.spelled {c : Clause} (h : c.Printable) : c.Spelled :=
  ⟨h.defaultName.eq_nil_or_part, h.namespaceName.eq_nil_or_part,
    fun b hb => (h.named b hb).spelled⟩

/-- What is read back from a printed clause: a lone named binding without a
    namespace is taken for a default binding, together with what stands before it. -/
def reread (c : Clause) : Clause :=
  if c.namespaceName = [] ∧ c.named.length = 1 then { defaultName := c.render } else c

/-- The interior of the braces that the named bindings are printed in. -/
def inner (bs : List Binding) : Text :=
  [32] ++ Text.join (text ", ") (bs.map Binding.render) ++ [32]

theorem renderNamed_braces (b b' : Binding) (bs : List Binding) :
    renderNamed (b :: b' :: bs) = [braceOpen :: inner (b :: b' :: bs) ++ [braceClose]] := by
  show [text "\x7b " ++ Text.join (text ", ") _ ++ text " \x7d"] = _
  rw [show text "\x7b " = braceOpen :: [32] from rfl,
    show text " \x7d" = [32, braceClose] from rfl, inner]
  simp only [List.append_assoc, List.cons_append, List.nil_append]

theorem listed_inner (b : Binding) (bs : List Binding) :
    Binding.Listed ((b :: bs).map Binding.render) (inner (b :: bs)) :=
  Binding.listed_join b.render (bs.map Binding.render)

theorem inner_not_mem {bs : List Binding} (h : ∀ b ∈ bs, b.Printable) {c : UInt8}
    (hmark : c ∈ clauseMarks) (hcomma : c ≠ comma) : c ∉ inner bs := by
  have hspace : isSpaceByte c = false := isSpaceByte_of_mark hmark
  cases bs with
  | nil =>
      have htable : ∀ c ∈ clauseMarks, c ∉ inner [] := forall_mem_of_all (by decide)
      exact htable c hmark
  | cons b bs =>
      refine (listed_inner b bs).not_mem hcomma hspace ?_
      intro t ht hmem
      obtain ⟨d, hd, rfl⟩ := List.mem_map.1 ht
      exact (h d hd).unmarked c hmem hmark

theorem Printable.readList_inner {c : Clause} (h : c.Printable) (hne : c.named ≠ []) :
    Binding.readList (inner c.named) = c.named := by
  refine Binding.readList_render h.named h.nodup ?_
  cases hn : c.named with
  | nil => exact absurd hn hne
  | cons b bs => exact listed_inner b bs

theorem Printable.readList_lone {c : Clause} (h : c.Printable) {b : Binding}
    (hb : c.named = [b]) : Binding.readList b.render = [b] := by
  have hlone : Binding.Listed ([b].map Binding.render) b.render := by
    have := Binding.Listed.last (t := b.render) blank_nil blank_nil
    rw [List.nil_append, List.append_nil] at this
    exact this
  refine Binding.readList_render ?_ ?_ hlone
  · rw [← hb]
    exact h.named
  · rw [← hb]
    exact h.nodup

/-- A printed namespace binding is a part. -/
theorem part_star {n : Text} (h : Part n) : Part (text "* as " ++ n) := by
  refine ⟨fun hnil => h.ne_nil (List.append_eq_nil_iff.1 hnil).2, ⟨?_, ?_⟩, ?_⟩
  · exact startsBare_cons (b := star) (text " as " ++ n) (by decide)
  · exact h.trimmed.2.append h.ne_nil (forall_mem_of_option_all (by decide))
  · exact not_hasWordFrom_append ident_fromWord (Or.inl (by decide))
      ((cutWordFrom_eq_none ident_fromWord.1).1 (by decide)) h.noFrom

/-- A printed brace list is a part. -/
theorem part_braces {bs : List Binding} (hne : bs ≠ []) (h : ∀ b ∈ bs, b.Spelled) :
    Part (braceOpen :: inner bs ++ [braceClose]) := by
  have hjoin : Part (Text.join (text ", ") (bs.map Binding.render)) := by
    refine Part.join (fun hnil => hne (List.map_eq_nil_iff.1 hnil)) ?_
    intro p hp
    obtain ⟨b, hb, rfl⟩ := List.mem_map.1 hp
    exact (h b hb).part
  refine ⟨List.cons_ne_nil _ _, ⟨?_, ?_⟩, ?_⟩
  · exact startsBare_cons _ (by decide)
  · exact endsBare_concat _ (by decide)
  · have heq : braceOpen :: inner bs ++ [braceClose] = [braceOpen, 32]
        ++ Text.join (text ", ") (bs.map Binding.render) ++ [32, braceClose] := by
      rw [inner]
      simp only [List.append_assoc, List.cons_append, List.nil_append]
    have hnone : ∀ s : Text, (∀ b ∈ s, isIdent b = false) → ¬ HasWordFrom fromWord 0 s :=
      fun s hs => not_hasWordFrom_of_not_ident ident_fromWord hs
    rw [heq]
    exact not_hasWordFrom_append ident_fromWord (Or.inr (by decide))
      (not_hasWordFrom_append ident_fromWord (Or.inl (by decide))
        (hnone _ (forall_mem_of_all (by decide))) hjoin.noFrom)
      (hnone _ (forall_mem_of_all (by decide)))

theorem Spelled.part_named {c : Clause} (h : c.Spelled) : ∀ p ∈ renderNamed c.named, Part p := by
  intro p hp
  cases hn : c.named with
  | nil =>
      rw [hn] at hp
      cases hp
  | cons b bs =>
      cases bs with
      | nil =>
          rw [hn] at hp
          rw [List.mem_singleton.1 hp]
          exact (h.named b (by rw [hn]; exact List.mem_cons_self)).part
      | cons b' bs =>
          rw [hn, renderNamed_braces] at hp
          rw [List.mem_singleton.1 hp]
          exact part_braces (List.cons_ne_nil _ _) (hn ▸ h.named)

/-- The printed forms of the three kinds of binding are parts. -/
theorem Spelled.parts {c : Clause} (h : c.Spelled) : ∀ p ∈ c.parts, Part p := by
  intro p hp
  rw [Clause.parts] at hp
  rcases List.mem_append.1 hp with hp | hp
  · rcases List.mem_append.1 hp with hp | hp
    · split at hp
      · cases hp
      · rename_i hne
        rw [List.mem_singleton.1 hp]
        exact h.defaultName.resolve_left hne
    · split at hp
      · cases hp
      · rename_i hne
        rw [List.mem_singleton.1 hp]
        exact part_star (h.namespaceName.resolve_left hne)
  · exact h.part_named p hp

/-- A printed clause is a part, unless it is empty. -/
theorem Spelled.part {c : Clause} (h : c.Spelled) (hne : c.render ≠ []) : Part c.render := by
  refine Part.join (fun hnil => hne ?_) h.parts
  rw [render, hnil]
  rfl

/-! ## The round trip -/

/-- The default binding and its comma, as they stand before other bindings. -/
def lead (d : Text) : Text := if d = [] then [] else d ++ text ", "

theorem join_lead (d : Text) {ps : List Text} (hps : ps ≠ []) :
    Text.join (text ", ") ((if d = [] then [] else [d]) ++ ps)
      = lead d ++ Text.join (text ", ") ps := by
  rw [lead]
  split
  · rfl
  · rw [List.singleton_append, join_cons d hps]

/-- The clause begins with its default binding. -/
theorem render_eq_lead {c : Clause} {ps : List Text} (hps : ps ≠ [])
    (hparts : (if c.namespaceName = [] then [] else [text "* as " ++ c.namespaceName])
      ++ renderNamed c.named = ps) :
    c.render = lead c.defaultName ++ Text.join (text ", ") ps := by
  rw [render, parts, List.append_assoc, hparts]
  exact join_lead c.defaultName hps

theorem lead_not_mem {d : Text} (h : PlainName d) {b : UInt8} (hmark : b ∈ clauseMarks)
    (hcomma : b ≠ comma) : b ∉ lead d := by
  rw [lead]
  split
  · exact List.not_mem_nil
  · intro hmem
    rcases List.mem_append.1 hmem with hmem | hmem
    · exact h.unmarked b hmem hmark
    · have htable : ∀ b ∈ text ", ", b = comma ∨ b ∉ clauseMarks :=
        forall_mem_of_all (by decide)
      rcases htable b hmem with heq | hnot
      · exact hcomma heq
      · exact hnot hmark

/-- The default binding is found before a `*`. -/
theorem readBeforeStar?_lead {d : Text} (h : PlainName d) :
    readBeforeStar? (lead d) = some d := by
  rw [lead]
  split
  · rename_i hd
    rw [hd]
    exact readBeforeStar?_blank blank_nil
  · rename_i hd
    have := readBeforeStar?_default hd h.trimmed h.unmarked blank_nil blank_space
    rw [List.append_nil] at this
    exact this

/-- The default binding is found before a `{`. -/
theorem trim_lead {d : Text} (h : PlainName d) (hd : d ≠ []) :
    trim (dropEndWhile (· == comma) (trim (lead d))) = d := by
  have := trim_dropEndWhile_default hd h.trimmed h.unmarked blank_nil blank_space
  rw [List.append_nil] at this
  rw [lead, if_neg hd]
  exact this

/-- The namespace binding is found behind its `*`, alone or before other bindings. -/
theorem trim_as {p : Text} (h : Part p) :
    trim (text " as " ++ p) = asWord ++ ([32] ++ p) ∧ trim ([32] ++ p) = p := by
  have htrimmed : Trimmed (asWord ++ [32] ++ p) := by
    constructor
    · exact startsBare_cons (b := 97) (115 :: 32 :: p) (by decide)
    · exact h.trimmed.2.append h.ne_nil (forall_mem_of_option_all (by decide))
  constructor
  · have := trim_spaced blank_space htrimmed blank_nil
    rw [List.append_nil, List.append_assoc] at this
    exact this
  · have := trim_spaced blank_space h.trimmed blank_nil
    rw [List.append_nil] at this
    exact this

theorem afterStar_alone {n : Text} (h : PlainName n) (hne : n ≠ []) :
    AfterStar (text " as " ++ n) n [] := by
  obtain ⟨hafter, hrest⟩ := trim_as (h.part hne)
  exact ⟨hne, h.unmarked, [32] ++ n, hafter, rfl, Or.inl ⟨hrest, rfl⟩⟩

theorem afterStar_named {n t : Text} (h : PlainName n) (hne : n ≠ []) (ht : Part t) :
    AfterStar (text " as " ++ (n ++ text ", " ++ t)) n t := by
  obtain ⟨hafter, hrest⟩ := trim_as ((h.part hne).comma_append ht)
  have hcomma : comma ∉ n := not_mem_of_not_mark h.unmarked (by decide)
  have ht' : trim (32 :: t) = t := (trim_as ht).2
  refine ⟨hne, h.unmarked, _, hafter, rfl, Or.inr ⟨n, 32 :: t, ?_, hcomma, ?_, ht', ht.ne_nil⟩⟩
  · rw [hrest, List.append_assoc]
    rfl
  · exact trim_eq_self h.trimmed

/-- The named bindings are read back behind a namespace binding. -/
theorem Printable.readAfterStar? {c : Clause} (h : c.Printable) {t : Text}
    (ht : renderNamed c.named = [t]) : Clause.readAfterStar? t = some c.named := by
  cases hn : c.named with
  | nil =>
      rw [hn] at ht
      cases ht
  | cons b bs =>
      cases bs with
      | nil =>
          rw [hn] at ht
          have hb := h.named b (by rw [hn]; exact List.mem_cons_self)
          rw [← List.singleton_inj.1 ht, readAfterStar?_lone hb.part.ne_nil hb.unmarked,
            h.readList_lone hn]
      | cons b' bs =>
          rw [hn, renderNamed_braces] at ht
          have hne : c.named ≠ [] := by
            rw [hn]
            exact List.cons_ne_nil _ _
          rw [← List.singleton_inj.1 ht, readAfterStar?_braces, ← hn, h.readList_inner hne]

theorem renderNamed_cases (bs : List Binding) :
    (bs = [] ∧ renderNamed bs = []) ∨ ∃ t, renderNamed bs = [t] := by
  cases bs with
  | nil => exact Or.inl ⟨rfl, rfl⟩
  | cons b bs =>
      cases bs with
      | nil => exact Or.inr ⟨_, rfl⟩
      | cons b' bs => exact Or.inr ⟨_, rfl⟩

/-- A clause with a namespace binding is read back as it is. -/
theorem Printable.read?_render_star {c : Clause} (h : c.Printable) (hns : c.namespaceName ≠ []) :
    read? c.render = some c := by
  have hstar : star ∉ lead c.defaultName := lead_not_mem h.defaultName (by decide) (by decide)
  have hlead := readBeforeStar?_lead h.defaultName
  rcases renderNamed_cases c.named with ⟨hnamed, hnil⟩ | ⟨t, ht⟩
  · have hrender : c.render = lead c.defaultName ++ star :: (text " as " ++ c.namespaceName) :=
      render_eq_lead (List.cons_ne_nil (text "* as " ++ c.namespaceName) [])
        (by rw [hnil, if_neg hns]; rfl)
    have hcut := cutStar?_eq hstar hlead (afterStar_alone h.namespaceName hns)
    rw [hrender, read?_star hcut]
    show some (⟨c.defaultName, c.namespaceName, []⟩ : Clause) = some c
    rw [← hnamed]
  · -- the comma behind the namespace binding is the first one behind the `*`
    have hpart : Part t := h.spelled.part_named t (by rw [ht]; exact List.mem_cons_self)
    have hrender : c.render = lead c.defaultName
        ++ star :: (text " as " ++ (c.namespaceName ++ text ", " ++ t)) := by
      have := render_eq_lead (c := c) (List.cons_ne_nil (text "* as " ++ c.namespaceName) [t])
        (by rw [ht, if_neg hns]; rfl)
      rw [join_cons _ (List.cons_ne_nil t []), List.append_assoc, List.append_assoc] at this
      rw [this, List.append_assoc]
      rfl
    have hcut := cutStar?_eq hstar hlead (afterStar_named h.namespaceName hns hpart)
    rw [hrender, read?_star hcut]
    dsimp only
    rw [h.readAfterStar? ht]
    rfl

/-- A brace list without a namespace binding is read back as it is. -/
theorem Printable.read?_render_braces {c : Clause} (h : c.Printable) (hns : c.namespaceName = [])
    (hlen : 1 < c.named.length) : read? c.render = some c := by
  have hne : c.named ≠ [] := List.ne_nil_of_length_pos (by omega)
  have hbraces : renderNamed c.named = [braceOpen :: inner c.named ++ [braceClose]] := by
    cases hn : c.named with
    | nil => exact absurd hn hne
    | cons b bs =>
        cases bs with
        | nil =>
            rw [hn, List.length_singleton] at hlen
            omega
        | cons b' bs => exact renderNamed_braces b b' bs
  have hrender : c.render
      = lead c.defaultName ++ braceOpen :: (inner c.named ++ [braceClose]) :=
    render_eq_lead (List.cons_ne_nil _ []) (by rw [hbraces, if_pos hns]; rfl)
  have hstar : star ∉ inner c.named := inner_not_mem h.named (by decide) (by decide)
  have hclause : c = { defaultName := c.defaultName, namespaceName := [], named := c.named } := by
    rw [← hns]
  rw [hrender]
  by_cases hd : c.defaultName = []
  · rw [lead, if_pos hd, List.nil_append, ← List.cons_append, read?_braces hstar,
      h.readList_inner hne, hclause, hd]
  · have hlead : lead c.defaultName ≠ [] := by
      rw [lead, if_neg hd]
      exact fun hnil => hd (List.append_eq_nil_iff.1 hnil).1
    rw [read?_default_braces hlead (lead_not_mem h.defaultName (by decide) (by decide))
      (lead_not_mem h.defaultName (by decide) (by decide)) hstar,
      trim_lead h.defaultName hd, h.readList_inner hne]
    rw [← hclause]

/-- A clause with at most one named binding and no namespace is read back as one
    default binding. -/
theorem Printable.read?_render_plain {c : Clause} (h : c.Printable) (hns : c.namespaceName = [])
    (hlen : c.named.length ≤ 1) (hne : c.render ≠ []) :
    read? c.render = some { defaultName := c.render } := by
  -- commas do not matter to the reader here, the other marks would
  have hmem : ∀ b ∈ clauseMarks, b ≠ comma → b ∉ c.render := by
    intro b hmark hcomma
    rcases renderNamed_cases c.named with ⟨hnamed, hnil⟩ | ⟨t, ht⟩
    · have hrender : c.render = Text.join (text ", ")
          (if c.defaultName = [] then [] else [c.defaultName]) := by
        rw [render, Clause.parts, hnil, if_pos hns, List.append_nil, List.append_nil]
      rw [hrender]
      split
      · exact List.not_mem_nil
      · exact not_mem_of_not_mark h.defaultName.unmarked hmark
    · have hrender : c.render = lead c.defaultName ++ t :=
        render_eq_lead (List.cons_ne_nil t []) (by rw [ht, if_pos hns]; rfl)
      rw [hrender, List.mem_append]
      rintro (hb | hb)
      · exact lead_not_mem h.defaultName hmark hcomma hb
      · -- a lone binding stands without braces
        cases hn : c.named with
        | nil =>
            rw [hn] at ht
            cases ht
        | cons d ds =>
            have hds : ds = [] := by
              rw [hn, List.length_cons] at hlen
              exact List.length_eq_zero_iff.1 (by omega)
            rw [hn, hds] at ht
            have hd := h.named d (by rw [hn]; exact List.mem_cons_self)
            rw [← List.singleton_inj.1 ht] at hb
            exact hd.unmarked b hb hmark
  exact read?_plain hne (hmem braceOpen (by decide) (by decide))
    (hmem braceClose (by decide) (by decide)) (hmem star (by decide) (by decide))

/-- **A printed clause is read back**, up to the case of a lone named binding. -/
theorem Printable.read?_render {c : Clause} (h : c.Printable) (hne : c.render ≠ []) :
    read? c.render = some c.reread := by
  rw [reread]
  by_cases hns : c.namespaceName = []
  · by_cases hone : c.named.length = 1
    · rw [if_pos ⟨hns, hone⟩]
      exact h.read?_render_plain hns (by omega) hne
    · rw [if_neg fun hboth => hone hboth.2]
      rcases Nat.lt_or_ge 1 c.named.length with hlt | hge
      · exact h.read?_render_braces hns hlt
      · -- a default binding alone: what is read back is the clause itself
        have hnamed : c.named = [] := List.length_eq_zero_iff.1 (by omega)
        have hrender : c.render = c.defaultName := by
          rw [render, Clause.parts, hns, hnamed, if_pos rfl, List.append_nil]
          show Text.join _ ((if c.defaultName = [] then [] else [c.defaultName]) ++ []) = _
          rw [List.append_nil]
          split
          · rename_i hd
            rw [hd]
            rfl
          · rfl
        rw [h.read?_render_plain hns (by omega) hne, hrender]
        show some (⟨c.defaultName, [], []⟩ : Clause) = some c
        rw [← hns, ← hnamed]
  · rw [if_neg fun hboth => hns hboth.1]
    exact h.read?_render_star hns

/-- What is read back is printed the same. -/
theorem reread_render {c : Clause} (hne : c.render ≠ []) : c.reread.render = c.render := by
  rw [reread]
  split
  · show Text.join _ ((if c.render = [] then [] else [c.render]) ++ [] ++ []) = c.render
    rw [if_neg hne, List.append_nil, List.append_nil]
    rfl
  · rfl

end Clause

/-! ## The bytes of a printed clause -/

/-- The names that a binding is written with. -/
def Binding.names (b : Binding) : List Text := [b.name, b.localName]

/-- The names that a clause is written with; an absent name counts as empty. -/
def Clause.names (c : Clause) : List Text :=
  c.defaultName :: c.namespaceName :: c.named.flatMap Binding.names

/-- The bytes that the printer puts between names. -/
def clauseGlue : Text := text "\x7b\x7d, *as"

theorem Binding.mem_render {d : Binding} {b : UInt8} (h : b ∈ d.render) :
    (∃ n ∈ d.names, b ∈ n) ∨ b ∈ clauseGlue := by
  rw [render] at h
  split at h
  · exact Or.inl ⟨d.name, List.mem_cons_self, h⟩
  · rcases List.mem_append.1 h with h | h
    · rcases List.mem_append.1 h with h | h
      · exact Or.inl ⟨d.name, List.mem_cons_self, h⟩
      · have hglue : ∀ b ∈ text " as ", b ∈ clauseGlue := forall_mem_of_all (by decide)
        exact Or.inr (hglue b h)
    · exact Or.inl ⟨d.localName, List.mem_cons_of_mem _ List.mem_cons_self, h⟩

/-- Text between commas consists of the texts and the glue. -/
theorem mem_join_comma {ps : List Text} {b : UInt8} (h : b ∈ Text.join (text ", ") ps) :
    (∃ p ∈ ps, b ∈ p) ∨ b ∈ clauseGlue := by
  rcases mem_join h with h | h
  · have hglue : ∀ b ∈ text ", ", b ∈ clauseGlue := forall_mem_of_all (by decide)
    exact Or.inr (hglue b h)
  · exact Or.inl h

theorem Clause.mem_renderNamed {bs : List Binding} {p : Text} {b : UInt8}
    (hp : p ∈ renderNamed bs) (hb : b ∈ p) :
    (∃ n ∈ bs.flatMap Binding.names, b ∈ n) ∨ b ∈ clauseGlue := by
  have hentry : ∀ {d : Binding}, d ∈ bs → b ∈ d.render →
      (∃ n ∈ bs.flatMap Binding.names, b ∈ n) ∨ b ∈ clauseGlue := by
    intro d hd hmem
    rcases Binding.mem_render hmem with ⟨n, hn, hbn⟩ | hglue
    · exact Or.inl ⟨n, List.mem_flatMap.2 ⟨d, hd, hn⟩, hbn⟩
    · exact Or.inr hglue
  match bs with
  | [] => cases hp
  | [d] =>
      rw [List.mem_singleton.1 hp] at hb
      exact hentry List.mem_cons_self hb
  | d :: d' :: ds =>
      rw [List.mem_singleton.1 hp] at hb
      have hopen : ∀ b ∈ text "\x7b ", b ∈ clauseGlue := forall_mem_of_all (by decide)
      have hclose : ∀ b ∈ text " \x7d", b ∈ clauseGlue := forall_mem_of_all (by decide)
      rcases List.mem_append.1 hb with hb | hb
      · rcases List.mem_append.1 hb with hb | hb
        · exact Or.inr (hopen b hb)
        · rcases mem_join_comma hb with ⟨q, hq, hbq⟩ | hglue
          · obtain ⟨e, he, rfl⟩ := List.mem_map.1 hq
            exact hentry he hbq
          · exact Or.inr hglue
      · exact Or.inr (hclose b hb)

/-- **A printed clause holds the bytes of its names** and those between them. -/
theorem Clause.mem_render {c : Clause} {b : UInt8} (h : b ∈ c.render) :
    (∃ n ∈ c.names, b ∈ n) ∨ b ∈ clauseGlue := by
  rcases mem_join_comma h with ⟨p, hp, hb⟩ | hglue
  · rw [parts] at hp
    rcases List.mem_append.1 hp with hp | hp
    · rcases List.mem_append.1 hp with hp | hp
      · split at hp
        · cases hp
        · rw [List.mem_singleton.1 hp] at hb
          exact Or.inl ⟨_, List.mem_cons_self, hb⟩
      · split at hp
        · cases hp
        · rw [List.mem_singleton.1 hp] at hb
          rcases List.mem_append.1 hb with hb | hb
          · have hglue : ∀ b ∈ text "* as ", b ∈ clauseGlue := forall_mem_of_all (by decide)
            exact Or.inr (hglue b hb)
          · exact Or.inl ⟨_, List.mem_cons_of_mem _ List.mem_cons_self, hb⟩
    · rcases mem_renderNamed hp hb with ⟨n, hn, hbn⟩ | hglue
      · exact Or.inl ⟨n, List.mem_cons_of_mem _ (List.mem_cons_of_mem _ hn), hbn⟩
      · exact Or.inr hglue
  · exact Or.inr hglue

end ImportBlock
