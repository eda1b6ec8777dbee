import Mathlib
import ImportBlock.Proofs.Clause.Printing

/-! # Where the names of a clause come from

    Whatever text a clause is read from, each of its names was cut out of that text
    at places where no identifier is cut in two.  So no name holds a whole word that
    the text did not hold, and none holds a line feed if the text held none; `Clean`
    is closed under every cut that the reader makes.

    `Clause.AsRead` collects what holds of every clause that was read; without further
    marks in its names such a clause is printable. -/

namespace ImportBlock

open Text

/-- A text of one line without the word `from`. -/
structure Clean (t : Text) : Prop where
  noFrom : ¬ HasWordFrom fromWord 0 t
  oneLine : newline ∉ t

/-! ## Cuts -/

namespace Clean

variable {a b s t : Text}

theorem middle (h : Clean (a ++ t ++ b)) (ha : Parted a t) (hb : Parted t b) : Clean t := by
  refine ⟨not_hasWordFrom_middle ident_fromWord ha hb h.noFrom, fun hmem => h.oneLine ?_⟩
  exact List.mem_append_left b (List.mem_append_right a hmem)

theorem trim (h : Clean s) : Clean (Text.trim s) := by
  obtain ⟨-, w, w', hw, hw', hs⟩ := exists_eq_spaced_trim s
  rw [hs] at h
  exact h.middle (hw.parted_left _) (hw'.parted_right _)

theorem append_cons {c : UInt8} (h : Clean (a ++ c :: b)) (hc : isIdent c = false) :
    Clean a ∧ Clean b := by
  obtain ⟨hfrom, hline⟩ := h
  rw [hasWordFrom_append_cons ident_fromWord hc, not_or] at hfrom
  rw [List.mem_append, List.mem_cons, not_or, not_or] at hline
  exact ⟨⟨hfrom.1, hline.1⟩, ⟨hfrom.2, hline.2.2⟩⟩

/-- A cut at a byte that is in no identifier. -/
theorem cutFirst {c : UInt8} (h : Clean s) (hc : isIdent c = false)
    (hcut : Text.cutFirst (· == c) s = some (a, b)) : Clean a ∧ Clean b := by
  obtain ⟨rfl, -⟩ := eq_of_cutFirst_byte hcut
  exact h.append_cons hc

theorem cutLast {c : UInt8} (h : Clean s) (hc : isIdent c = false)
    (hcut : Text.cutLast (· == c) s = some (a, b)) : Clean a ∧ Clean b := by
  obtain ⟨d, hd, rfl, -⟩ := eq_of_cutLast hcut
  rw [eq_of_beq hd] at h
  exact h.append_cons hc

/-- A cut at a whole word. -/
theorem cutWord {word : Text} {k : Nat} (h : Clean s) (hword : Ident word)
    (hcut : cutWordFrom s word k = some (a, b)) : Clean a ∧ Clean b := by
  obtain ⟨rfl, -, ha, hb, -⟩ := eq_of_cutWordFrom hword hcut
  constructor
  · have h' : Clean ([] ++ a ++ (word ++ b)) := by
      rw [List.nil_append, ← List.append_assoc]
      exact h
    exact h'.middle (Or.inl rfl) (Or.inl ha)
  · have h' : Clean (a ++ word ++ b ++ []) := by
      rw [List.append_nil]
      exact h
    exact h'.middle (Or.inr hb) (Or.inr rfl)

theorem of_mem_split {sep : UInt8} (h : Clean s) (hsep : isIdent sep = false)
    (ht : t ∈ split sep s) : Clean t := by
  obtain ⟨-, a, b, rfl, ha, hb⟩ := exists_eq_of_mem_split ht
  refine h.middle (Or.inl ?_) (Or.inr ?_)
  · rcases ha with rfl | ha
    · rfl
    · rw [endsIdent, ha]
      exact hsep
  · rcases hb with rfl | hb
    · rfl
    · cases b with
      | nil => rfl
      | cons c b =>
          rw [Option.some.inj hb]
          exact hsep

theorem dropEndWhile {c : UInt8} (h : Clean s) (hc : isIdent c = false) :
    Clean (Text.dropEndWhile (· == c) s) := by
  have heq : s = Text.dropEndWhile (· == c) s ++ (s.reverse.takeWhile (· == c)).reverse := by
    rw [Text.dropEndWhile, ← List.reverse_append, List.takeWhile_append_dropWhile,
      List.reverse_reverse]
  have hdropped : ∀ d ∈ (s.reverse.takeWhile (· == c)).reverse, isIdent d = false := by
    intro d hd
    have hd := List.all_eq_true.1 List.all_takeWhile d (List.mem_reverse.1 hd)
    rw [eq_of_beq hd]
    exact hc
  have h' : Clean ([] ++ Text.dropEndWhile (· == c) s
      ++ (s.reverse.takeWhile (· == c)).reverse) := by
    rw [List.nil_append, ← heq]
    exact h
  exact h'.middle (Or.inl rfl) (Or.inr (startsIdent_eq_false hdropped))

theorem unbrace? (h : Clean s) (hcut : Clause.unbrace? s = some t) : Clean t := by
  rw [Clause.unbrace?] at hcut
  split at hcut
  · rename_i hboth
    obtain ⟨hhead, hlast⟩ := hboth
    cases s with
    | nil => cases hhead
    | cons c s =>
        -- one byte cannot be both braces, but the equation does not say so yet
        have htail : s.getLast? = some braceClose ∨ s = [] := by
          cases s with
          | nil => exact Or.inr rfl
          | cons d s => exact Or.inl hlast
        have hc : c = braceOpen := Option.some.inj hhead
        have hs : Clean s := (append_cons (a := []) h (by rw [hc]; decide)).2
        rw [← Option.some.inj hcut, List.tail_cons]
        rcases htail with htail | rfl
        · obtain ⟨u, rfl⟩ := List.getLast?_eq_some_iff.1 htail
          rw [List.dropLast_concat]
          exact (append_cons hs (by decide)).1
        · exact hs
  · cases hcut

end Clean

/-- A name that was cut out of a clause and trimmed. -/
structure CutName (t : Text) : Prop where
  trimmed : Trimmed t
  clean : Clean t

theorem Clean.cutName {s : Text} (h : Clean s) : CutName (Text.trim s) := ⟨trimmed_trim s, h.trim⟩

theorem cutName_nil : CutName [] :=
  ⟨trimmed_nil, blank_nil.noFrom, List.not_mem_nil⟩

theorem CutName.eq_nil_or_part {t : Text} (h : CutName t) : t = [] ∨ Part t :=
  or_iff_not_imp_left.2 fun hne => ⟨hne, h.trimmed, h.clean.noFrom⟩

theorem CutName.plainName {t : Text} (h : CutName t) (hmarks : ∀ b ∈ t, b ∉ clauseMarks) :
    PlainName t := ⟨h.trimmed, hmarks, h.clean.noFrom⟩

namespace Binding

/-! ## Named bindings -/

/-- What holds of every named binding that was read. -/
structure AsRead (b : Binding) : Prop where
  name_ne : b.name ≠ []
  name : CutName b.name
  localName : CutName b.localName
  noAs : ¬ HasWordFrom asWord 1 b.name
  name_comma : comma ∉ b.name
  localName_comma : comma ∉ b.localName

/-- The part of an entry before its alias holds no further word `as`. -/
theorem noAs_trim {item n rest : Text} (hitem : Trimmed item)
    (hcut : cutWordFrom item asWord 1 = some (n, rest)) : ¬ HasWordFrom asWord 1 (trim n) := by
  obtain ⟨heq, hlen, -, -, hfirst⟩ := eq_of_cutWordFrom ident_asWord hcut
  obtain ⟨-, w, w', hw, hw', hn⟩ := exists_eq_spaced_trim n
  -- the entry is trimmed, so no white space stands before the name
  have hnil : w = [] := by
    obtain ⟨us, hus, rfl⟩ := hw
    cases us with
    | nil => rfl
    | cons u us =>
        refine absurd ?_ (hitem.1 u (hus u List.mem_cons_self))
        rw [heq, hn, List.flatten_cons]
        simp only [List.append_assoc]
        exact List.prefix_append u _
  rw [hnil, List.nil_append] at hn
  rw [hn, hasWordFrom_append ident_asWord (hw'.parted_right _), not_or] at hfirst
  exact hfirst.1

theorem asRead_read {item : Text} (htrim : Trimmed item) (hclean : Clean item)
    (hcomma : comma ∉ item) (hne : (read item).name ≠ []) : (read item).AsRead := by
  rw [read] at hne ⊢
  cases hcut : cutWordFrom item asWord 1 with
  | none =>
      rw [hcut] at hne
      exact ⟨hne, ⟨htrim, hclean⟩, cutName_nil, (cutWordFrom_eq_none ident_asWord.1).1 hcut,
        hcomma, List.not_mem_nil⟩
  | some parts =>
      obtain ⟨n, a⟩ := parts
      rw [hcut] at hne
      obtain ⟨hn, ha⟩ := hclean.cutWord ident_asWord hcut
      obtain ⟨heq, -⟩ := eq_of_cutWordFrom ident_asWord hcut
      rw [heq, List.mem_append, List.mem_append, not_or, not_or] at hcomma
      exact ⟨hne, hn.cutName, ha.cutName, noAs_trim htrim hcut,
        fun hmem => hcomma.1.1 (mem_of_mem_trim hmem), fun hmem => hcomma.2 (mem_of_mem_trim hmem)⟩

theorem mem_of_mem_distinct {seen : List Text} {bs : List Binding} {b : Binding}
    (h : b ∈ distinct seen bs) : b ∈ bs ∧ b.name ≠ [] ∧ b.name ∉ seen := by
  induction bs generalizing seen with
  | nil => cases h
  | cons c bs ih =>
      rw [distinct] at h
      split at h
      · obtain ⟨hb, hrest⟩ := ih h
        exact ⟨List.mem_cons_of_mem c hb, hrest⟩
      · rename_i hnot
        rcases List.mem_cons.1 h with rfl | h
        · exact ⟨List.mem_cons_self, not_or.1 hnot⟩
        · obtain ⟨hb, hne, hseen⟩ := ih h
          exact ⟨List.mem_cons_of_mem c hb, hne, fun hmem => hseen (List.mem_cons_of_mem _ hmem)⟩

theorem nodup_distinct (seen : List Text) (bs : List Binding) :
    ((distinct seen bs).map Binding.name).Nodup := by
  induction bs generalizing seen with
  | nil => exact List.nodup_nil
  | cons b bs ih =>
      rw [distinct]
      split
      · exact ih seen
      · rw [List.map_cons, List.nodup_cons]
        refine ⟨fun hmem => ?_, ih (b.name :: seen)⟩
        obtain ⟨c, hc, hname⟩ := List.mem_map.1 hmem
        obtain ⟨-, -, hseen⟩ := mem_of_mem_distinct hc
        exact hseen (by rw [hname]; exact List.mem_cons_self)

theorem asRead_readList {inner : Text} (h : Clean inner) :
    ∀ b ∈ readList inner, b.AsRead := by
  intro b hb
  obtain ⟨hmem, hne, -⟩ := mem_of_mem_distinct hb
  obtain ⟨item, hitem, rfl⟩ := List.mem_map.1 hmem
  obtain ⟨piece, hpiece, rfl⟩ := List.mem_map.1 (List.mem_filter.1 hitem).1
  have hcomma := (exists_eq_of_mem_split hpiece).1
  have hclean := h.of_mem_split (by decide) hpiece
  exact asRead_read (trimmed_trim piece) hclean.trim (fun hc => hcomma (mem_of_mem_trim hc)) hne

end Binding

namespace Clause

/-! ## Clauses -/

/-- What holds of every clause that was read. -/
structure AsRead (c : Clause) : Prop where
  defaultName : CutName c.defaultName
  namespaceName : CutName c.namespaceName
  unmarked : ∀ b ∈ c.namespaceName, b ∉ clauseMarks
  named : ∀ b ∈ c.named, b.AsRead
  nodup : (c.named.map Binding.name).Nodup

/-- A clause that was read without an extra mark in its names can be printed. -/
theorem AsRead.printable {c : Clause} (h : c.AsRead)
    (hdefault : ∀ b ∈ c.defaultName, b ∉ clauseMarks)
    (hnamed : ∀ d ∈ c.named, ∀ b ∈ [braceOpen, braceClose, star],
      b ∉ d.name ∧ b ∉ d.localName) : c.Printable where
  defaultName := h.defaultName.plainName hdefault
  namespaceName := h.namespaceName.plainName h.unmarked
  named := fun d hd => by
    have hread := h.named d hd
    refine ⟨hread.name_ne, hread.name.plainName fun b hb hmark => ?_,
      hread.localName.plainName fun b hb hmark => ?_, hread.noAs⟩
    · rcases eq_comma_of_mark hmark with rfl | hmark
      · exact hread.name_comma hb
      · exact (hnamed d hd b hmark).1 hb
    · rcases eq_comma_of_mark hmark with rfl | hmark
      · exact hread.localName_comma hb
      · exact (hnamed d hd b hmark).2 hb
  nodup := h.nodup

theorem AsRead.spelled {c : Clause} (h : c.AsRead) : c.Spelled where
  defaultName := h.defaultName.eq_nil_or_part
  namespaceName := h.namespaceName.eq_nil_or_part
  named := fun b hb => by
    have hread := h.named b hb
    exact ⟨⟨hread.name_ne, hread.name.trimmed, hread.name.clean.noFrom⟩,
      hread.localName.eq_nil_or_part⟩

theorem cutName_of_readBeforeStar? {before d : Text} (h : Clean before)
    (hread : readBeforeStar? before = some d) : CutName d := by
  rw [readBeforeStar?] at hread
  dsimp only at hread
  split at hread
  · rw [← Option.some.inj hread]
    exact cutName_nil
  · split at hread
    · rename_i hlast
      split at hread
      · cases hread
      · obtain ⟨u, hu⟩ := List.getLast?_eq_some_iff.1 hlast
        have hclean := h.trim
        rw [hu] at hclean
        rw [← Option.some.inj hread, hu, List.dropLast_concat]
        exact (hclean.append_cons (by decide)).1.cutName
    · cases hread

/-- How a clause is cut at its namespace binding. -/
theorem exists_of_cutStar? {clause : Text} {cut : StarCut} (h : cutStar? clause = some cut) :
    ∃ before after rest, cutFirst (· == star) clause = some (before, after)
      ∧ readBeforeStar? before = some cut.defaultName
      ∧ trim after = asWord ++ rest ∧ startsIdent rest = false
      ∧ containsAny [braceOpen, braceClose, star] cut.namespaceName = false
      ∧ ((cutFirst (· == comma) (trim rest) = none ∧ cut.namespaceName = trim rest
            ∧ cut.named = [])
        ∨ ∃ l r, cutFirst (· == comma) (trim rest) = some (l, r) ∧ cut.namespaceName = trim l
            ∧ cut.named = trim r) := by
  rw [cutStar?] at h
  obtain ⟨⟨before, after⟩, hfirst, h⟩ := Option.bind_eq_some_iff.1 h
  obtain ⟨d, hd, h⟩ := Option.bind_eq_some_iff.1 h
  dsimp only at h
  split at h
  · rename_i hword
    obtain ⟨rest, hafter, hrest⟩ := startsWord_iff.1 hword
    rw [hafter, List.drop_left] at h
    have hfinal : ∀ {n named : Text},
        (if n = [] ∨ containsAny [braceOpen, braceClose, star] n = true then none
          else some (⟨n, d, named⟩ : StarCut)) = some cut →
        containsAny [braceOpen, braceClose, star] n = false ∧ cut = ⟨n, d, named⟩ := by
      intro n named hcut
      split at hcut
      · cases hcut
      · rename_i hclean
        exact ⟨Bool.eq_false_iff.2 (not_or.1 hclean).2, (Option.some.inj hcut).symm⟩
    refine ⟨before, after, rest, hfirst, ?_⟩
    split at h
    · rename_i hnone
      obtain ⟨hmarks, rfl⟩ := hfinal h
      exact ⟨hd, hafter, hrest, hmarks, Or.inl ⟨hnone, rfl, rfl⟩⟩
    · rename_i l r hsome
      split at h
      · cases h
      · obtain ⟨hmarks, rfl⟩ := hfinal h
        exact ⟨hd, hafter, hrest, hmarks, Or.inr ⟨l, r, hsome, rfl, rfl⟩⟩
  · cases h

/-- The name of a namespace binding ends before the first comma, and no other mark is in it. -/
theorem unmarked_of_cutStar? {clause : Text} {cut : StarCut} (h : cutStar? clause = some cut) :
    ∀ b ∈ cut.namespaceName, b ∉ clauseMarks := by
  obtain ⟨before, after, rest, -, -, -, -, hmarks, hcut⟩ := exists_of_cutStar? h
  have hcomma : comma ∉ cut.namespaceName := by
    rcases hcut with ⟨hnone, hname, -⟩ | ⟨l, r, hsome, hname, -⟩
    · rw [hname]
      exact cutFirst_byte_eq_none_iff.1 hnone
    · rw [hname]
      intro hmem
      exact (eq_of_cutFirst_byte hsome).2 (mem_of_mem_trim hmem)
  intro b hb hmark
  rcases eq_comma_of_mark hmark with rfl | hmark
  · exact hcomma hb
  · exact containsAny_eq_false_iff.1 hmarks b hb hmark

/-- The names and the rest that a cut at a namespace binding gives. -/
theorem cutName_of_cutStar? {clause : Text} {cut : StarCut} (hclean : Clean clause)
    (h : cutStar? clause = some cut) : CutName cut.defaultName ∧ CutName cut.namespaceName
      ∧ (∀ b ∈ cut.namespaceName, b ∉ clauseMarks) ∧ Clean cut.named := by
  have hmarks := unmarked_of_cutStar? h
  obtain ⟨before, after, rest, hfirst, hd, hafter, hrest, -, hcut⟩ := exists_of_cutStar? h
  obtain ⟨hbefore, hafterClean⟩ := hclean.cutFirst (by decide) hfirst
  have hrestClean : Clean rest := by
    have htrim := hafterClean.trim
    rw [hafter, ← List.append_nil (asWord ++ rest)] at htrim
    exact htrim.middle (Or.inr hrest) (Or.inr rfl)
  refine ⟨cutName_of_readBeforeStar? hbefore hd, ?_⟩
  rcases hcut with ⟨-, hname, hnamed⟩ | ⟨l, r, hsome, hname, hnamed⟩
  · exact ⟨hname ▸ hrestClean.cutName, hmarks, hnamed ▸ cutName_nil.clean⟩
  · obtain ⟨hl, hr⟩ := hrestClean.trim.cutFirst (by decide) hsome
    exact ⟨hname ▸ hl.cutName, hmarks, hnamed ▸ hr.trim⟩

theorem asRead_of_readPlain? {clause : Text} {c : Clause} (hclean : Clean clause)
    (htrim : Trimmed clause) (h : readPlain? clause = some c) : c.AsRead := by
  have hplain : ∀ {d inner : Text}, CutName d → Clean inner →
      (⟨d, [], Binding.readList inner⟩ : Clause).AsRead := by
    intro d inner hd hinner
    exact ⟨hd, cutName_nil, by simp, Binding.asRead_readList hinner,
      Binding.nodup_distinct [] _⟩
  rw [readPlain?] at h
  split at h
  · rename_i inner hbraces
    rw [← Option.some.inj h]
    exact hplain cutName_nil (hclean.unbrace? hbraces)
  · split at h
    · rename_i before rest hopen
      obtain ⟨⟨inner, tail⟩, hlast, hc⟩ := Option.map_eq_some_iff.1 h
      obtain ⟨hbefore, hrest⟩ := hclean.cutFirst (by decide) hopen
      rw [← hc]
      refine hplain ?_ (hrest.cutLast (by decide) hlast).1
      exact (hbefore.trim.dropEndWhile (by decide)).cutName
    · split at h
      · cases h
      · rw [← Option.some.inj h]
        exact ⟨⟨htrim, hclean⟩, cutName_nil, by simp, by simp,
          List.nodup_nil⟩

/-- **Every clause that is read is made of cuts of its text.** -/
theorem asRead_of_read? {clause : Text} {c : Clause} (hclean : Clean clause)
    (htrim : Trimmed clause) (h : read? clause = some c) : c.AsRead := by
  rw [read?] at h
  split at h
  · cases h
  · split at h
    · rename_i cut hstar
      obtain ⟨named, hnamed, hc⟩ := Option.map_eq_some_iff.1 h
      obtain ⟨hd, hn, hmarks, hrest⟩ := cutName_of_cutStar? hclean hstar
      have hlist : (∀ b ∈ named, b.AsRead) ∧ (named.map Binding.name).Nodup := by
        rw [readAfterStar?] at hnamed
        split at hnamed
        · rw [← Option.some.inj hnamed]
          exact ⟨by simp, List.nodup_nil⟩
        · split at hnamed
          · rename_i inner hbraces
            rw [← Option.some.inj hnamed]
            exact ⟨Binding.asRead_readList (hrest.unbrace? hbraces), Binding.nodup_distinct [] _⟩
          · split at hnamed
            · cases hnamed
            · rw [← Option.some.inj hnamed]
              exact ⟨Binding.asRead_readList hrest, Binding.nodup_distinct [] _⟩
      rw [← hc]
      exact ⟨hd, hn, hmarks, hlist.1, hlist.2⟩
    · exact asRead_of_readPlain? hclean htrim h

end Clause

end ImportBlock
