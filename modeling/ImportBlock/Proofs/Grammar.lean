import Mathlib
import ImportBlock.Proofs.Statement.Printing

/-! # The grammar of single-line imports

    The import statements that fit on a line, with any white space between their
    tokens, as relations between what is written and what it means: `ItemText`,
    `ListText`, `LeadText` and `ClauseText` for a clause, `LineText` for a line.
    Names are any identifiers, `as` and `from` included.

    The reader cuts a line at its first whole word `from`.  One fact decides what
    becomes of a line: its clause holds that word exactly if it is one of the names
    (`ClauseText.hasFrom_iff`).  Without it the statement is read as it was meant
    (`LineText.read`), with it the line is rejected (`LineText.read_from`). -/

namespace ImportBlock

open Text

/-- White space that keeps two words apart. -/
def Gap (w : Text) : Prop := Blank w ∧ w ≠ []

/-- An entry of a brace list: `n`, or `n as a`. -/
inductive ItemText : Binding → Text → Prop where
  | name {n : Text} : Ident n → ItemText ⟨n, []⟩ n
  | renamed {n w w' a : Text} : Ident n → Gap w → Gap w' → Ident a →
      ItemText ⟨n, a⟩ (n ++ w ++ asWord ++ w' ++ a)

/-- The entries between two braces, with a comma after each but the last, which may
    have one too; an entry may be blank. -/
inductive ListText : List Binding → Text → Prop where
  | blank {w : Text} : Blank w → ListText [] w
  | last {b : Binding} {t w w' : Text} : ItemText b t → Blank w → Blank w' →
      ListText [b] (w ++ t ++ w')
  | gap {bs : List Binding} {w rest : Text} : Blank w → ListText bs rest →
      ListText bs (w ++ comma :: rest)
  | more {b : Binding} {bs : List Binding} {t w w' rest : Text} : ItemText b t → Blank w →
      Blank w' → ListText bs rest → ListText (b :: bs) (w ++ t ++ w' ++ comma :: rest)

/-- What stands before a `*` or a `{`: nothing, or a default binding and a comma. -/
inductive LeadText : Text → Text → Prop where
  | none : LeadText [] []
  | default {d w w' : Text} : Ident d → Blank w → Blank w' → LeadText d (d ++ w ++ comma :: w')

/-- A clause: `D`, `* as N`, a brace list, or `D` and a comma before one of these. -/
inductive ClauseText : Clause → Text → Prop where
  | default {d : Text} : Ident d → ClauseText { defaultName := d } d
  | star {d lead w w' n : Text} : LeadText d lead → Blank w → Gap w' → Ident n →
      ClauseText { defaultName := d, namespaceName := n }
        (lead ++ star :: (w ++ asWord ++ w' ++ n))
  | braces {d lead inner : Text} {bs : List Binding} : LeadText d lead → ListText bs inner →
      ClauseText { defaultName := d, named := bs } (lead ++ braceOpen :: (inner ++ [braceClose]))

/-- What may follow the quoted source: nothing, or a semicolon. -/
inductive TailText : Text → Prop where
  | none {w : Text} : Blank w → TailText w
  | semicolon {w w' : Text} : Blank w → Blank w' → TailText (w ++ semicolon :: w')

/-- An import statement on a line.  White space may be missing where no two words
    would run into each other. -/
inductive LineText : Statement → Text → Prop where
  | mk {c : Clause} {source w₀ clause w₁ w₂ tail : Text} {q : UInt8} :
      ClauseText c clause → Blank w₀ → Blank w₁ → Blank w₂ → TailText tail →
      (startsIdent clause = true → w₀ ≠ []) → (endsIdent clause = true → w₁ ≠ []) →
      isQuote q = true → source ≠ [] → (∀ b ∈ source, isQuote b = false) →
      LineText ⟨source, c⟩ (importWord ++ (w₀ ++ clause ++ w₁) ++ fromWord
        ++ (w₂ ++ q :: (source ++ q :: tail)))

/-! ## White space and the word `from` -/

theorem Gap.startsIdent {w : Text} (h : Gap w) : startsIdent w = false :=
  startsIdent_eq_false h.1.not_ident

theorem Gap.endsIdent {w : Text} (h : Gap w) : endsIdent w = false :=
  endsIdent_eq_false h.1.not_ident

/-- An identifier holds the word `from` if it is that word. -/
theorem hasFrom_ident_iff {t : Text} (h : Ident t) :
    HasWordFrom fromWord 0 t ↔ fromWord = t := by
  constructor
  · intro hword
    exact (eq_of_hasWordFrom_ident h hword).2.symm
  · rintro rfl
    exact ⟨0, Nat.le_refl 0, by decide⟩

theorem fromWord_ne_nil : fromWord ≠ [] := by decide

theorem startsBare_of_startsIdent {t : Text} (h : startsIdent t = true) : StartsBare t := by
  cases t with
  | nil => cases h
  | cons d t => exact startsBare_cons t (isSpaceByte_of_isIdent h)

theorem endsBare_of_endsIdent {t : Text} (h : endsIdent t = true) : EndsBare t := by
  refine endsBare_of_last ?_
  intro c hc
  rw [endsIdent, Option.mem_def.1 hc] at h
  exact isSpaceByte_of_isIdent h

/-! ## Entries -/

namespace ItemText

variable {b : Binding} {t : Text}

theorem startsIdent (h : ItemText b t) : Text.startsIdent t = true := by
  cases h with
  | name hn => exact startsIdent_of_ident hn
  | renamed hn _ _ _ =>
      simp only [List.append_assoc]
      rw [startsIdent_append hn.1]
      exact startsIdent_of_ident hn

theorem ne_nil (h : ItemText b t) : t ≠ [] := by
  rintro rfl
  exact absurd h.startsIdent (by decide)

theorem endsIdent (h : ItemText b t) : Text.endsIdent t = true := by
  cases h with
  | name hn => exact endsIdent_of_ident hn
  | renamed _ _ _ ha =>
      rw [endsIdent_append ha.1]
      exact endsIdent_of_ident ha

theorem trimmed (h : ItemText b t) : Trimmed t :=
  ⟨startsBare_of_startsIdent h.startsIdent, endsBare_of_endsIdent h.endsIdent⟩

theorem unmarked (h : ItemText b t) : ∀ c ∈ t, c ∉ clauseMarks := by
  cases h with
  | name hn => exact hn.not_mark
  | renamed hn hw hw' ha =>
      intro c hc
      simp only [List.mem_append] at hc
      rcases hc with (((hc | hc) | hc) | hc) | hc
      · exact hn.not_mark c hc
      · exact hw.1.not_mark c hc
      · exact ident_asWord.not_mark c hc
      · exact hw'.1.not_mark c hc
      · exact ha.not_mark c hc

/-- An entry is read as it is meant. -/
theorem read (h : ItemText b t) : Binding.read t = b := by
  -- an identifier holds a word at its start only, so `as` may be the name itself
  have hnoAs : ∀ {n : Text}, Ident n → ¬ HasWordFrom asWord 1 n := by
    intro n hn hword
    exact absurd (eq_of_hasWordFrom_ident hn hword).1 (by decide)
  cases h with
  | name hn => exact Binding.read_name (hnoAs hn)
  | renamed hn hw hw' ha =>
      exact Binding.read_renamed hn.1 hn.trimmed (hnoAs hn) hw.1 hw.2 hw'.1 hw'.2 ha.trimmed

theorem name_ne_nil (h : ItemText b t) : b.name ≠ [] := by
  cases h with
  | name hn => exact hn.1
  | renamed hn _ _ _ => exact hn.1

theorem hasFrom_iff (h : ItemText b t) : HasWordFrom fromWord 0 t ↔ fromWord ∈ b.names := by
  cases h with
  | name hn =>
      rw [hasFrom_ident_iff hn]
      simp only [Binding.names, List.mem_cons, fromWord_ne_nil, List.not_mem_nil, or_false]
  | @renamed n w w' a hn hw hw' ha =>
      -- no identifier runs across the four places where the parts meet
      have has : ¬ HasWordFrom fromWord 0 asWord := by
        rw [hasFrom_ident_iff ident_asWord]
        decide
      have hgap : Parted (n ++ w ++ asWord) w' := Or.inr hw'.startsIdent
      have hgap' : Parted (n ++ w ++ asWord ++ w') a := by
        refine Or.inl ?_
        rw [endsIdent_append hw'.2]
        exact hw'.endsIdent
      have hgap'' : Parted (n ++ w) asWord := by
        refine Or.inl ?_
        rw [endsIdent_append hw.2]
        exact hw.endsIdent
      rw [hasWordFrom_append ident_fromWord hgap', hasWordFrom_append ident_fromWord hgap,
        hasWordFrom_append ident_fromWord hgap'',
        hasWordFrom_append ident_fromWord (hw.1.parted_right n)]
      simp only [Nat.zero_sub, hw.1.noFrom, hw'.1.noFrom, has, or_false, hasFrom_ident_iff hn,
        hasFrom_ident_iff ha, Binding.names, List.mem_cons, List.not_mem_nil]

end ItemText

/-! ## Lists -/

namespace ListText

variable {bs : List Binding} {s : Text}

/-- A list is made of the texts of its entries. -/
theorem listed (h : ListText bs s) : ∃ ts, Binding.Listed ts s ∧ ts.map Binding.read = bs
    ∧ ∀ t ∈ ts, ItemText (Binding.read t) t := by
  induction h with
  | blank hw => exact ⟨[], .blank hw, rfl, by simp⟩
  | @last b t w w' hb hw hw' =>
      refine ⟨[t], .last hw hw', congrArg ([·]) hb.read, fun u hu => ?_⟩
      rw [List.mem_singleton.1 hu, hb.read]
      exact hb
  | gap hw _ ih =>
      obtain ⟨ts, hts, hread, hitems⟩ := ih
      exact ⟨ts, .gap hw hts, hread, hitems⟩
  | @more b bs t w w' rest hb hw hw' _ ih =>
      obtain ⟨ts, hts, hread, hitems⟩ := ih
      refine ⟨t :: ts, .more hw hw' hts, by rw [List.map_cons, hb.read, hread], fun u hu => ?_⟩
      rcases List.mem_cons.1 hu with rfl | hu
      · rw [hb.read]
        exact hb
      · exact hitems u hu

theorem not_mem (h : ListText bs s) {c : UInt8} (hmark : c ∈ clauseMarks) (hcomma : c ≠ comma) :
    c ∉ s := by
  obtain ⟨ts, hts, -, hitems⟩ := h.listed
  refine hts.not_mem hcomma (isSpaceByte_of_mark hmark) ?_
  intro t ht hc
  exact (hitems t ht).unmarked c hc hmark

/-- A list is read as its entries, the first of each name. -/
theorem readList (h : ListText bs s) : Binding.readList s = Binding.firstOfEachName bs := by
  obtain ⟨ts, hts, hread, hitems⟩ := h.listed
  have hentries := hts.entries fun t ht =>
    ⟨(hitems t ht).trimmed, (hitems t ht).ne_nil,
      not_mem_of_not_mark (hitems t ht).unmarked (by decide)⟩
  rw [Binding.readList, hentries, ← hread]
  refine Binding.distinct_nil_eq ?_
  intro b hb
  obtain ⟨t, ht, rfl⟩ := List.mem_map.1 hb
  exact (hitems t ht).name_ne_nil

theorem hasFrom_iff (h : ListText bs s) :
    HasWordFrom fromWord 0 s ↔ fromWord ∈ bs.flatMap Binding.names := by
  have hcomma : isIdent comma = false := by decide
  induction h with
  | blank hw =>
      simp only [hw.noFrom, List.flatMap_nil, List.not_mem_nil]
  | last hb hw hw' =>
      rw [hasWordFrom_spaced ident_fromWord hw hw', hb.hasFrom_iff, List.flatMap_singleton]
  | gap hw _ ih =>
      rw [hasWordFrom_append_cons ident_fromWord hcomma]
      simp only [hw.noFrom, false_or]
      exact ih
  | more hb hw hw' _ ih =>
      rw [hasWordFrom_append_cons ident_fromWord hcomma,
        hasWordFrom_spaced ident_fromWord hw hw', hb.hasFrom_iff, List.flatMap_cons,
        List.mem_append]
      exact or_congr_right ih

end ListText

/-! ## Clauses -/

namespace LeadText

variable {d lead : Text}

theorem hasFrom_iff (h : LeadText d lead) : HasWordFrom fromWord 0 lead ↔ fromWord = d := by
  cases h with
  | none =>
      simp only [blank_nil.noFrom, fromWord_ne_nil]
  | default hd hw hw' =>
      have hspaced := hasWordFrom_spaced ident_fromWord (t := d) blank_nil hw
      rw [hasWordFrom_append_cons ident_fromWord (by decide), ← List.nil_append d, hspaced,
        hasFrom_ident_iff hd]
      simp only [hw'.noFrom, or_false, List.nil_append]

theorem not_mem (h : LeadText d lead) {c : UInt8} (hmark : c ∈ clauseMarks) (hcomma : c ≠ comma) :
    c ∉ lead := by
  cases h with
  | none => exact List.not_mem_nil
  | default hd hw hw' =>
      simp only [List.mem_append, List.mem_cons, not_or]
      exact ⟨⟨fun hc => hd.not_mark c hc hmark, fun hc => hw.not_mark c hc hmark⟩, hcomma,
        fun hc => hw'.not_mark c hc hmark⟩

/-- What follows begins the clause, or the default binding does. -/
theorem startsBare_append (h : LeadText d lead) {c : UInt8} {rest : Text}
    (hc : isSpaceByte c = false) : StartsBare (lead ++ c :: rest) := by
  cases h with
  | none => exact startsBare_cons rest hc
  | default hd _ _ =>
      refine startsBare_of_startsIdent ?_
      simp only [List.append_assoc]
      rw [startsIdent_append hd.1]
      exact startsIdent_of_ident hd

theorem readBeforeStar? (h : LeadText d lead) : Clause.readBeforeStar? lead = some d := by
  cases h with
  | none => exact Clause.readBeforeStar?_blank blank_nil
  | default hd hw hw' =>
      exact Clause.readBeforeStar?_default hd.1 hd.trimmed hd.not_mark hw hw'

/-- A brace list is read together with the default binding before it. -/
theorem read?_braces (h : LeadText d lead) {inner : Text} (hstar : star ∉ inner) :
    Clause.read? (lead ++ braceOpen :: (inner ++ [braceClose]))
      = some { defaultName := d, named := Binding.readList inner } := by
  have hopen := h.not_mem (c := braceOpen) (by decide) (by decide)
  have hlead := h.not_mem (c := star) (by decide) (by decide)
  cases h with
  | none => exact Clause.read?_braces hstar
  | @default d w w' hd hw hw' =>
      have hne : d ++ w ++ comma :: w' ≠ [] := fun hnil =>
        List.cons_ne_nil _ _ (List.append_eq_nil_iff.1 hnil).2
      rw [Clause.read?_default_braces hne hopen hlead hstar,
        Clause.trim_dropEndWhile_default hd.1 hd.trimmed hd.not_mark hw hw']

end LeadText

namespace ClauseText

variable {c : Clause} {t : Text}

theorem trimmed (h : ClauseText c t) : Trimmed t := by
  cases h with
  | default hd => exact hd.trimmed
  | @star d lead w w' n hlead hw hw' hn =>
      refine ⟨hlead.startsBare_append (by decide), endsBare_of_endsIdent ?_⟩
      rw [← List.cons_append, ← List.append_assoc, endsIdent_append hn.1]
      exact endsIdent_of_ident hn
  | @braces d lead inner bs hlead hlist =>
      refine ⟨hlead.startsBare_append (by decide), ?_⟩
      rw [← List.cons_append, ← List.append_assoc]
      exact endsBare_concat _ (by decide)

theorem ne_nil (h : ClauseText c t) : t ≠ [] := by
  cases h with
  | default hd => exact hd.1
  | star => exact fun hnil => List.cons_ne_nil _ _ (List.append_eq_nil_iff.1 hnil).2
  | braces => exact fun hnil => List.cons_ne_nil _ _ (List.append_eq_nil_iff.1 hnil).2

/-- The alias behind a `*`. -/
theorem afterStar {w w' n : Text} (hw : Blank w) (hw' : Gap w') (hn : Ident n) :
    Clause.AfterStar (w ++ asWord ++ w' ++ n) n [] := by
  have hword : Trimmed (asWord ++ (w' ++ n)) := by
    refine ⟨startsBare_of_startsIdent ?_, endsBare_of_endsIdent ?_⟩
    · rw [startsIdent_append ident_asWord.1]
      exact startsIdent_of_ident ident_asWord
    · rw [← List.append_assoc, endsIdent_append hn.1]
      exact endsIdent_of_ident hn
  have hafter := trim_spaced hw hword blank_nil
  have hrest := trim_spaced hw'.1 hn.trimmed blank_nil
  simp only [List.append_assoc, List.append_nil] at hafter hrest ⊢
  refine ⟨hn.1, hn.not_mark, w' ++ n, hafter, ?_, Or.inl ⟨hrest, rfl⟩⟩
  rw [startsIdent_append hw'.2]
  exact hw'.startsIdent

/-- A clause is read as it is meant, keeping the first named binding of each name. -/
theorem read? (h : ClauseText c t) :
    Clause.read? t = some { c with named := Binding.firstOfEachName c.named } := by
  cases h with
  | default hd =>
      exact Clause.read?_plain hd.1 (not_mem_of_not_mark hd.not_mark (by decide))
        (not_mem_of_not_mark hd.not_mark (by decide))
        (not_mem_of_not_mark hd.not_mark (by decide))
  | star hlead hw hw' hn =>
      have hcut := Clause.cutStar?_eq (hlead.not_mem (by decide) (by decide))
        hlead.readBeforeStar? (afterStar hw hw' hn)
      rw [Clause.read?_star hcut]
      rfl
  | braces hlead hlist =>
      rw [hlead.read?_braces (hlist.not_mem (by decide) (by decide)), hlist.readList]

/-- **The clause holds the word `from` exactly if it is one of the names.** -/
theorem hasFrom_iff (h : ClauseText c t) : HasWordFrom fromWord 0 t ↔ fromWord ∈ c.names := by
  cases h with
  | default hd =>
      simp only [hasFrom_ident_iff hd, Clause.names, List.mem_cons, List.flatMap_nil,
        List.not_mem_nil, fromWord_ne_nil, or_false]
  | @star d lead w w' n hlead hw hw' hn =>
      have has : ¬ HasWordFrom fromWord 0 (w ++ asWord ++ w') := by
        rw [hasWordFrom_spaced ident_fromWord hw hw'.1, hasFrom_ident_iff ident_asWord]
        decide
      have hgap : Parted (w ++ asWord ++ w') n := by
        refine Or.inl ?_
        rw [endsIdent_append hw'.2]
        exact hw'.endsIdent
      rw [hasWordFrom_append_cons ident_fromWord (by decide), hlead.hasFrom_iff,
        hasWordFrom_append ident_fromWord hgap]
      simp only [Nat.zero_sub, has, false_or, hasFrom_ident_iff hn, Clause.names, List.mem_cons,
        List.flatMap_nil, List.not_mem_nil, or_false]
  | @braces d lead inner bs hlead hlist =>
      rw [hasWordFrom_append_cons ident_fromWord (by decide), hlead.hasFrom_iff,
        hasWordFrom_append_cons ident_fromWord (by decide), hlist.hasFrom_iff]
      simp only [blank_nil.noFrom, or_false, Clause.names, List.mem_cons, fromWord_ne_nil,
        false_or]

/-! ### Clauses with a name `from`

    The line is cut inside the clause.  What stands before the cut is nothing, a `*`
    without its alias, or a brace list that is not closed. -/

/-- Nothing stands before a default binding. -/
theorem cut_default {lead : Text} (h : LeadText fromWord lead) {rest : Text}
    {w : Text} (hw : Blank w) : ∃ x y, cutWordFrom (lead ++ rest) fromWord 0 = some (x, y)
      ∧ Clause.read? (trim (w ++ x)) = none := by
  cases h with
  | @default _ w₁ w₂ _ hw₁ _ =>
      have hstart : startsIdent (w₁ ++ comma :: w₂ ++ rest) = false := by
        rw [List.append_assoc]
        exact hw₁.startsIdent_append rfl
      refine ⟨[], w₁ ++ comma :: w₂ ++ rest, ?_, ?_⟩
      · rw [List.append_assoc fromWord, List.append_assoc]
        exact cutWordFrom_eq_some ident_fromWord (Nat.le_refl 0) rfl hstart blank_nil.noFrom
      · rw [List.append_nil, trim_blank hw]
        rfl

/-- A `*` whose alias is cut off. -/
theorem cut_star {d lead w₁ w₂ : Text} (hlead : LeadText d lead) (hd : fromWord ≠ d)
    (hw₁ : Blank w₁) (hw₂ : Gap w₂) {w : Text} (hw : Blank w) :
    ∃ x y, cutWordFrom (lead ++ Text.star :: (w₁ ++ asWord ++ w₂ ++ fromWord)) fromWord 0
        = some (x, y)
      ∧ Clause.read? (trim (w ++ x)) = none := by
  refine ⟨lead ++ Text.star :: (w₁ ++ asWord ++ w₂), [], ?_, ?_⟩
  · -- the name `from` is the last thing in the clause and the first such word
    have hcut := cutWordFrom_eq_some (a := lead ++ Text.star :: (w₁ ++ asWord ++ w₂)) (b := [])
      ident_fromWord (Nat.zero_le _) ?_ rfl ?_
    · rw [List.append_nil, List.append_assoc] at hcut
      exact hcut
    · rw [← List.cons_append, ← List.append_assoc, endsIdent_append hw₂.2]
      exact hw₂.endsIdent
    · rw [hasWordFrom_append_cons ident_fromWord (by decide), hlead.hasFrom_iff,
        hasWordFrom_spaced ident_fromWord hw₁ hw₂.1, hasFrom_ident_iff ident_asWord]
      rintro (h | h)
      · exact hd h
      · exact absurd h (by decide)
  · -- what is left ends with the word `as`
    have hword : Trimmed (lead ++ Text.star :: (w₁ ++ asWord)) := by
      refine ⟨hlead.startsBare_append (by decide), endsBare_of_endsIdent ?_⟩
      rw [← List.cons_append, ← List.append_assoc, endsIdent_append ident_asWord.1]
      exact endsIdent_of_ident ident_asWord
    have htrim := trim_spaced hw hword hw₂.1
    have hafter := trim_spaced hw₁ ident_asWord.trimmed blank_nil
    have hmark : ∀ {b : UInt8}, b ∈ clauseMarks → b ≠ comma → b ≠ Text.star →
        b ∉ lead ++ Text.star :: (w₁ ++ asWord) := by
      intro b hb hcomma hstar
      simp only [List.mem_append, List.mem_cons, not_or]
      exact ⟨hlead.not_mem hb hcomma, hstar, fun hmem => hw₁.not_mark b hmem hb,
        fun hmem => ident_asWord.not_mark b hmem hb⟩
    simp only [List.append_assoc, List.cons_append, List.append_nil] at htrim hafter hmark ⊢
    rw [htrim]
    exact Clause.read?_star_alone (hlead.not_mem (by decide) (by decide))
      (hmark (by decide) (by decide) (by decide)) (hmark (by decide) (by decide) (by decide))
      hafter

/-- A brace list that is cut off in the middle. -/
theorem cut_braces {d lead inner : Text} {bs : List Binding} (hlead : LeadText d lead)
    (hd : fromWord ≠ d) (hlist : ListText bs inner) (hfrom : fromWord ∈ bs.flatMap Binding.names)
    {w : Text} (hw : Blank w) :
    ∃ x y, cutWordFrom (lead ++ braceOpen :: (inner ++ [braceClose])) fromWord 0 = some (x, y)
      ∧ Clause.read? (trim (w ++ x)) = none := by
  have hinner : cutWordFrom inner fromWord 0 ≠ none := fun hnone =>
    (cutWordFrom_eq_none ident_fromWord.1).1 hnone (hlist.hasFrom_iff.2 hfrom)
  obtain ⟨⟨x, y⟩, hcut⟩ := Option.ne_none_iff_exists'.1 hinner
  -- the cut of the list is the cut of the clause
  have hclosed := cutWordFrom_append_left (b := [braceClose]) ident_fromWord (Or.inr rfl) hcut
  have hends : endsIdent (lead ++ [braceOpen]) = false := endsIdent_concat lead braceOpen
  have hnone : ¬ HasWordFrom fromWord 0 (lead ++ [braceOpen]) := by
    rw [hasWordFrom_append_cons ident_fromWord (by decide), hlead.hasFrom_iff]
    exact fun h => h.elim hd blank_nil.noFrom
  have hline := cutWordFrom_append_right ident_fromWord (Or.inl hends) hnone hclosed
  -- before it stands the opening brace, and no closing one
  have hx : ∀ b ∈ x, b ∈ inner := by
    obtain ⟨heq, -⟩ := eq_of_cutWordFrom ident_fromWord hcut
    intro b hb
    rw [heq, List.append_assoc]
    exact List.mem_append_left _ hb
  have hmark : ∀ {b : UInt8}, b ∈ clauseMarks → b ≠ comma → b ≠ braceOpen →
      b ∉ trim (w ++ (lead ++ [braceOpen] ++ x)) := by
    intro b hb hcomma hopen hmem
    have hmem := mem_of_mem_trim hmem
    simp only [List.mem_append, List.mem_singleton] at hmem
    rcases hmem with hmem | (hmem | hmem) | hmem
    · exact hw.not_mark b hmem hb
    · exact hlead.not_mem hb hcomma hmem
    · exact hopen hmem
    · exact hlist.not_mem hb hcomma (hx b hmem)
  refine ⟨lead ++ [braceOpen] ++ x, y ++ [braceClose], ?_, ?_⟩
  · rw [List.append_assoc, List.singleton_append] at hline
    exact hline
  · refine Clause.read?_unclosed (mem_trim ?_ (by decide))
      (hmark (by decide) (by decide) (by decide)) (hmark (by decide) (by decide) (by decide))
    simp only [List.mem_append, List.mem_singleton, true_or, or_true]

/-- **A clause with a name `from` is cut there**, and what stands before the cut is no
    clause. -/
theorem cut_from (h : ClauseText c t) (hfrom : fromWord ∈ c.names) {w : Text} (hw : Blank w) :
    ∃ x y, cutWordFrom t fromWord 0 = some (x, y) ∧ Clause.read? (trim (w ++ x)) = none := by
  cases h with
  | default hd =>
      simp only [Clause.names, List.mem_cons, List.flatMap_nil, List.not_mem_nil,
        fromWord_ne_nil, or_false] at hfrom
      subst hfrom
      refine ⟨[], [], by decide, ?_⟩
      rw [List.append_nil, trim_blank hw]
      rfl
  | @star d lead w₁ w₂ n hlead hw₁ hw₂ hn =>
      by_cases hd : fromWord = d
      · subst hd
        exact cut_default hlead hw
      · simp only [Clause.names, List.mem_cons, List.flatMap_nil, List.not_mem_nil, hd, false_or,
          or_false] at hfrom
        subst hfrom
        exact cut_star hlead hd hw₁ hw₂ hw
  | @braces d lead inner bs hlead hlist =>
      by_cases hd : fromWord = d
      · subst hd
        exact cut_default hlead hw
      · simp only [Clause.names, List.mem_cons, hd, fromWord_ne_nil, false_or] at hfrom
        exact cut_braces hlead hd hlist hfrom hw

end ClauseText

/-! ## Lines -/

/-- The end of a line, without the white space behind it. -/
theorem TailText.parts {tail : Text} (h : TailText tail) :
    ∃ t w, tail = t ++ w ∧ Blank w ∧ (∀ c ∈ t, isQuote c = false)
      ∧ ∀ c ∈ t.getLast?, isSpaceByte c = false := by
  cases h with
  | none hw => exact ⟨[], _, rfl, hw, by simp, by simp⟩
  | @semicolon w w' hw hw' =>
      refine ⟨w ++ [Text.semicolon], w', ?_, hw', fun c hc => ?_, fun c hc => ?_⟩
      · rw [List.append_assoc, List.singleton_append]
      · rcases List.mem_append.1 hc with hc | hc
        · exact of_isSpaceByte (p := fun b => isQuote b = false) (by decide)
            (hw.isSpaceByte c hc)
        · rw [List.mem_singleton.1 hc]
          decide
      · rw [List.getLast?_concat, Option.mem_some] at hc
        rw [← hc]
        decide

namespace LineText

/-- No word runs from `import` into the clause. -/
theorem parted_import {w₀ clause w₁ : Text} (hw₀ : Blank w₀) (hw₁ : Blank w₁)
    (hstart : startsIdent clause = true → w₀ ≠ []) : Parted importWord (w₀ ++ clause ++ w₁) := by
  refine Or.inr ?_
  by_cases hne : w₀ = []
  · rw [hne, List.nil_append]
    by_cases hnil : clause = []
    · rw [hnil]
      exact startsIdent_eq_false hw₁.not_ident
    · rw [startsIdent_append hnil, ← Bool.not_eq_true]
      exact fun h => hstart h hne
  · rw [List.append_assoc, startsIdent_append hne]
    exact startsIdent_eq_false hw₀.not_ident

/-- No word runs from the clause into `from`. -/
theorem endsIdent_clause {w₀ clause w₁ : Text} (hne : clause ≠ []) (hw₁ : Blank w₁)
    (hend : endsIdent clause = true → w₁ ≠ []) :
    endsIdent (importWord ++ (w₀ ++ clause ++ w₁)) = false := by
  rw [endsIdent_append (by simp [hne])]
  by_cases hw : w₁ = []
  · rw [hw, List.append_nil, endsIdent_append hne, ← Bool.not_eq_true]
    exact fun h => hend h hw
  · rw [endsIdent_append hw]
    exact endsIdent_eq_false hw₁.not_ident

variable {s : Statement} {line : Text}

/-- A line is read as it is meant, if none of its names is `from`. -/
theorem read (h : LineText s line) (hfrom : fromWord ∉ s.clause.names) :
    Statement.read line = .ok ⟨s.source,
      { s.clause with named := Binding.firstOfEachName s.clause.named }⟩ := by
  cases h with
  | @mk c source w₀ clause w₁ w₂ tail q hclause hw₀ hw₁ hw₂ htail hstart hend hq hne _ =>
      obtain ⟨t, w₃, rfl, hw₃, hquotes, hlast⟩ := htail.parts
      have hclean : ¬ HasWordFrom fromWord 0 (importWord ++ (w₀ ++ clause ++ w₁)) := by
        refine not_hasWordFrom_append ident_fromWord (parted_import hw₀ hw₁ hstart)
          import_noFrom ?_
        rw [hasWordFrom_spaced ident_fromWord hw₀ hw₁, hclause.hasFrom_iff]
        exact hfrom
      have hregion : startsIdent (w₂ ++ q :: (source ++ q :: t) ++ w₃) = false := by
        rw [List.append_assoc]
        exact hw₂.startsIdent_append (isIdent_of_isQuote hq)
      have hread := Statement.read_spaced hw₀ hclause.trimmed hw₁
        (endsIdent_clause hclause.ne_nil hw₁ hend) hclean hregion hw₂ hq hq hquotes hlast hw₃ hne
      simp only [List.append_assoc, List.cons_append] at hread ⊢
      rw [hread, hclause.read?]
      rfl

/-- A line with a name `from` is rejected. -/
theorem read_from (h : LineText s line) (hfrom : fromWord ∈ s.clause.names) :
    ∃ e, Statement.read line = .error e := by
  cases h with
  | @mk c source w₀ clause w₁ w₂ tail q hclause hw₀ hw₁ hw₂ htail hstart hend hq hne _ =>
      obtain ⟨x, y, hcut, hread⟩ := hclause.cut_from hfrom hw₀
      -- from the clause to the clause with its spacing, and to the word `import` before it
      have hspaced := cutWordFrom_append_left (b := w₁) ident_fromWord (hw₁.parted_right _)
        (cutWordFrom_append_right ident_fromWord (hw₀.parted_left clause) hw₀.noFrom hcut)
      have himport := cutWordFrom_append_right ident_fromWord (parted_import hw₀ hw₁ hstart)
        import_noFrom hspaced
      -- the cut stays where it is when the rest of the line follows
      have hline := cutWordFrom_append_left
        (b := fromWord ++ (w₂ ++ q :: (source ++ q :: tail))) ident_fromWord
        (Or.inl (endsIdent_clause hclause.ne_nil hw₁ hend)) himport
      rw [Statement.read, List.append_assoc _ fromWord, hline]
      dsimp only
      rw [List.drop_left, hread]
      split
      · exact ⟨_, rfl⟩
      · exact ⟨_, rfl⟩

end LineText

/-- **The reader accepts the grammar.**  A line of the grammar, with any spacing, is
    read as a declaration of that line, at any position: with its source, its default
    and namespace bindings and its named bindings in order, the first of each name. -/
theorem read_grammatical_line {s : Statement} {line : Text} (k : Int) (h : LineText s line)
    (hfrom : fromWord ∉ s.clause.names) :
    Declaration.read line k = .ok
      { text := line
        line := k
        statement :=
          { source := s.source
            clause :=
              { defaultName := s.clause.defaultName
                namespaceName := s.clause.namespaceName
                named := Binding.firstOfEachName s.clause.named } } } := by
  rw [Declaration.read, h.read hfrom]
  rfl

/-- An ideographic space, `as` as a name, a name that starts with `from`, a name twice
    and a final comma. -/
theorem read_grammatical_line_list :
    Declaration.read (text "import d ,\x7b as\u3000as b,fromX ,as, \x7dfrom\"m\" ;") 7 = .ok
      { text := text "import d ,\x7b as\u3000as b,fromX ,as, \x7dfrom\"m\" ;"
        line := 7
        statement :=
          { source := text "m"
            clause :=
              { defaultName := text "d"
                named := [⟨text "as", text "b"⟩, ⟨text "fromX", []⟩] } } } := by
  have hlist : ListText [⟨text "as", text "b"⟩, ⟨text "fromX", []⟩, ⟨text "as", []⟩]
      (text " as\u3000as b,fromX ,as, ") :=
    .more (@ItemText.renamed _ (text "\u3000") [32] _ (by decide)
        ⟨blank_unit (by decide), by decide⟩ ⟨blank_space, by decide⟩ (by decide))
      blank_space blank_nil
      (.more (.name (by decide)) blank_nil blank_space
        (.more (.name (by decide)) blank_nil blank_nil (.blank blank_space)))
  have hclause : ClauseText
      { defaultName := text "d",
        named := [⟨text "as", text "b"⟩, ⟨text "fromX", []⟩, ⟨text "as", []⟩] }
      (text "d ,\x7b as\u3000as b,fromX ,as, \x7d") :=
    .braces (@LeadText.default _ [32] [] (by decide) blank_space blank_nil) hlist
  have hline : LineText
      ⟨text "m", { defaultName := text "d",
                   named := [⟨text "as", text "b"⟩, ⟨text "fromX", []⟩, ⟨text "as", []⟩] }⟩
      (text "import d ,\x7b as\u3000as b,fromX ,as, \x7dfrom\"m\" ;") :=
    @LineText.mk _ _ [32] _ [] [] _ 34 hclause blank_space blank_nil blank_nil
      (@TailText.semicolon [32] [] blank_space blank_nil) (by decide) (by decide) rfl
      (by decide) (forall_mem_of_all (by decide))
  exact read_grammatical_line 7 hline (by decide)

end ImportBlock
