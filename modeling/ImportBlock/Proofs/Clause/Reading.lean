import Mathlib
import ImportBlock.Clause.Reader
import ImportBlock.Proofs.Text.Cuts
import ImportBlock.Proofs.Text.Spaces

/-! # What the clause reader does to each shape of clause

    One equation for each shape that `Clause.read?` tells apart, given by the
    bytes that the text holds and not by how it was written.  The printed form of a
    clause and the clauses of the grammar, with any spacing, are instances.

    Entries of a brace list stand between commas with white space around them;
    `Listed` says so, and `Listed.entries` that the reader finds the entries. -/

namespace ImportBlock

open Text

theorem ident_asWord : Ident asWord := by decide

/-- The bytes that give a clause its shape: `,` `{` `}` `*`. -/
def clauseMarks : Text := [comma, braceOpen, braceClose, star]

theorem Text.Blank.not_mark {w : Text} (h : Blank w) : ∀ b ∈ w, b ∉ clauseMarks :=
  fun b hb => of_isSpaceByte (p := fun b => b ∉ clauseMarks) (by decide) (h.isSpaceByte b hb)

theorem Text.Ident.not_mark {s : Text} (h : Ident s) : ∀ b ∈ s, b ∉ clauseMarks := by
  intro b hb hmark
  have htable : ∀ c ∈ clauseMarks, isIdent c = false := forall_mem_of_all (by decide)
  have := htable b hmark
  rw [h.2 b hb] at this
  cases this

/-- A text without marks holds none of them. -/
theorem not_mem_of_not_mark {s : Text} {b : UInt8} (h : ∀ c ∈ s, c ∉ clauseMarks)
    (hb : b ∈ clauseMarks) : b ∉ s := fun hs => h b hs hb

theorem containsAny_of_not_mark {bytes s : Text} (hbytes : ∀ b ∈ bytes, b ∈ clauseMarks)
    (h : ∀ b ∈ s, b ∉ clauseMarks) : containsAny bytes s = false :=
  containsAny_eq_false_iff.2 fun b hb hmem => h b hb (hbytes b hmem)

theorem isSpaceByte_of_mark {b : UInt8} (h : b ∈ clauseMarks) : isSpaceByte b = false := by
  have htable : ∀ b ∈ clauseMarks, isSpaceByte b = false := forall_mem_of_all (by decide)
  exact htable b h

/-- A mark is a comma or one of those that no name may hold. -/
theorem eq_comma_of_mark {b : UInt8} (h : b ∈ clauseMarks) :
    b = comma ∨ b ∈ [braceOpen, braceClose, star] := by
  have htable : ∀ b ∈ clauseMarks, b = comma ∨ b ∈ [braceOpen, braceClose, star] :=
    forall_mem_of_all (by decide)
  exact htable b h

namespace Binding

/-! ## Entries -/

/-- An entry without a further word `as` is a name. -/
theorem read_name {n : Text} (h : ¬ HasWordFrom asWord 1 n) : read n = ⟨n, []⟩ := by
  rw [read, (cutWordFrom_eq_none ident_asWord.1).2 h]

/-- An entry with white space around the first further word `as` is a name and an
    alias. -/
theorem read_renamed {n w w' a : Text} (hne : n ≠ []) (hn : Trimmed n)
    (has : ¬ HasWordFrom asWord 1 n) (hw : Blank w) (hwne : w ≠ []) (hw' : Blank w')
    (hwne' : w' ≠ []) (ha : Trimmed a) : read (n ++ w ++ asWord ++ w' ++ a) = ⟨n, a⟩ := by
  have hcut : cutWordFrom (n ++ w ++ asWord ++ (w' ++ a)) asWord 1 = some (n ++ w, w' ++ a) := by
    refine cutWordFrom_eq_some ident_asWord ?_ ?_ ?_ ?_
    · rw [List.length_append]
      have := List.length_pos_iff.2 hne
      omega
    · rw [endsIdent_append hwne]
      exact endsIdent_eq_false hw.not_ident
    · rw [startsIdent_append hwne']
      exact startsIdent_eq_false hw'.not_ident
    · rw [hasWordFrom_append ident_asWord (Or.inr (startsIdent_eq_false hw.not_ident))]
      rintro (h | h)
      · exact has h
      · exact not_hasWordFrom_of_not_ident ident_asWord hw.not_ident h
  have hname : trim (n ++ w) = n := trim_spaced blank_nil hn hw
  have hlocal : trim (w' ++ a) = a := by
    have := trim_spaced hw' ha blank_nil
    rw [List.append_nil] at this
    exact this
  rw [List.append_assoc, read, hcut]
  show (⟨trim (n ++ w), trim (w' ++ a)⟩ : Binding) = ⟨n, a⟩
  rw [hname, hlocal]

/-! ## Lists -/

/-- Entries between commas, each with white space around it; blank entries do not
    count. -/
inductive Listed : List Text → Text → Prop where
  | blank {w : Text} : Blank w → Listed [] w
  | last {w t w' : Text} : Blank w → Blank w' → Listed [t] (w ++ t ++ w')
  | gap {w rest : Text} {ts : List Text} :
      Blank w → Listed ts rest → Listed ts (w ++ comma :: rest)
  | more {w t w' rest : Text} {ts : List Text} :
      Blank w → Blank w' → Listed ts rest → Listed (t :: ts) (w ++ t ++ w' ++ comma :: rest)

/-- The reader finds the entries of a list. -/
theorem Listed.entries {ts : List Text} {s : Text} (h : Listed ts s)
    (hts : ∀ t ∈ ts, Trimmed t ∧ t ≠ [] ∧ comma ∉ t) :
    ((split comma s).map trim).filter (· ≠ []) = ts := by
  have hblank : ∀ {w : Text}, Blank w → comma ∉ w := fun hw =>
    not_mem_of_not_mark hw.not_mark (by decide)
  have hspaced : ∀ {w t w' : Text}, Blank w → Blank w' → comma ∉ t → comma ∉ w ++ t ++ w' := by
    intro w t w' hw hw' ht hmem
    rcases List.mem_append.1 hmem with hmem | hmem
    · rcases List.mem_append.1 hmem with hmem | hmem
      · exact hblank hw hmem
      · exact ht hmem
    · exact hblank hw' hmem
  induction h with
  | blank hw =>
      rw [split_eq_singleton (hblank hw), List.map_singleton, trim_blank hw]
      rfl
  | @last w t w' hw hw' =>
      obtain ⟨htrim, hne, hcomma⟩ := hts t List.mem_cons_self
      rw [split_eq_singleton (hspaced hw hw' hcomma), List.map_singleton,
        trim_spaced hw htrim hw', List.filter_cons, if_pos (decide_eq_true hne)]
      rfl
  | gap hw _ ih =>
      rw [split_append_cons _ (hblank hw), List.map_cons, trim_blank hw]
      exact ih hts
  | @more w t w' rest ts hw hw' _ ih =>
      obtain ⟨htrim, hne, hcomma⟩ := hts t List.mem_cons_self
      rw [split_append_cons _ (hspaced hw hw' hcomma), List.map_cons, trim_spaced hw htrim hw',
        List.filter_cons, if_pos (decide_eq_true hne),
        ih fun u hu => hts u (List.mem_cons_of_mem t hu)]

/-- The bytes of a list are those of its entries, white space and commas. -/
theorem Listed.not_mem {ts : List Text} {s : Text} (h : Listed ts s) {b : UInt8}
    (hb : b ≠ comma) (hspace : isSpaceByte b = false) (hts : ∀ t ∈ ts, b ∉ t) : b ∉ s := by
  have hblank : ∀ {w : Text}, Blank w → b ∉ w := by
    intro w hw hmem
    have := hw.isSpaceByte b hmem
    rw [hspace] at this
    cases this
  induction h with
  | blank hw => exact hblank hw
  | last hw hw' =>
      simp only [List.mem_append, not_or]
      exact ⟨⟨hblank hw, hts _ List.mem_cons_self⟩, hblank hw'⟩
  | gap hw _ ih =>
      simp only [List.mem_append, List.mem_cons, not_or]
      exact ⟨hblank hw, hb, ih hts⟩
  | more hw hw' _ ih =>
      simp only [List.mem_append, List.mem_cons, not_or]
      exact ⟨⟨⟨hblank hw, hts _ List.mem_cons_self⟩, hblank hw'⟩, hb,
        ih fun u hu => hts u (List.mem_cons_of_mem _ hu)⟩

/-- The first binding of each name, in order. -/
def firstOfEachName : List Binding → List Binding
  | [] => []
  | b :: rest => b :: (firstOfEachName rest).filter fun c => c.name ≠ b.name

theorem mem_of_mem_firstOfEachName {bs : List Binding} {b : Binding}
    (h : b ∈ firstOfEachName bs) : b ∈ bs := by
  induction bs with
  | nil => exact h
  | cons c rest ih =>
      rcases List.mem_cons.1 h with rfl | h
      · exact List.mem_cons_self
      · exact List.mem_cons_of_mem c (ih (List.mem_filter.1 h).1)

/-- The reader keeps the first entry of each name that is not seen before. -/
theorem distinct_eq {bs : List Binding} (hbs : ∀ b ∈ bs, b.name ≠ []) (seen : List Text) :
    distinct seen bs = (firstOfEachName bs).filter fun b => b.name ∉ seen := by
  -- the names seen so far filter the rest, whichever of the two passes sees them first
  induction bs generalizing seen with
  | nil => rfl
  | cons b rest ih =>
      have hrest := fun c hc => hbs c (List.mem_cons_of_mem b hc)
      have hname := hbs b List.mem_cons_self
      rw [distinct, firstOfEachName]
      by_cases hseen : b.name ∈ seen
      · rw [if_pos (Or.inr hseen), ih hrest, List.filter_cons_of_neg (by simpa using hseen),
          List.filter_filter]
        refine List.filter_congr ?_
        intro c _
        by_cases hc : c.name ∈ seen
        · simp [hc]
        · have hne : c.name ≠ b.name := fun heq => hc (heq ▸ hseen)
          simp [hc, hne]
      · rw [if_neg (not_or.2 ⟨hname, hseen⟩), ih hrest,
          List.filter_cons_of_pos (by simpa using hseen), List.filter_filter]
        refine congrArg (b :: ·) (List.filter_congr fun c _ => ?_)
        simp only [List.mem_cons, not_or, Bool.decide_and, ne_eq]
        exact Bool.and_comm _ _

theorem distinct_nil_eq {bs : List Binding} (hbs : ∀ b ∈ bs, b.name ≠ []) :
    distinct [] bs = firstOfEachName bs := by
  rw [distinct_eq hbs]
  exact List.filter_eq_self.2 fun b _ => by simp

theorem firstOfEachName_eq_self {bs : List Binding} (h : (bs.map Binding.name).Nodup) :
    firstOfEachName bs = bs := by
  induction bs with
  | nil => rfl
  | cons b rest ih =>
      rw [List.map_cons, List.nodup_cons] at h
      rw [firstOfEachName, ih h.2]
      refine congrArg (b :: ·) (List.filter_eq_self.2 fun c hc => ?_)
      refine decide_eq_true fun heq => h.1 ?_
      rw [← heq]
      exact List.mem_map.2 ⟨c, hc, rfl⟩

end Binding

namespace Clause

/-! ## Namespace bindings -/

theorem readBeforeStar?_blank {w : Text} (hw : Blank w) : readBeforeStar? w = some [] := by
  rw [readBeforeStar?, trim_blank hw]
  rfl

/-- A default binding and its comma, without the white space behind them. -/
theorem trim_default_comma {d w w' : Text} (hne : d ≠ []) (hd : Trimmed d) (hw : Blank w)
    (hw' : Blank w') : trim (d ++ w ++ comma :: w') = d ++ w ++ [comma] := by
  have htrimmed : Trimmed (d ++ w ++ [comma]) := by
    constructor
    · rw [List.append_assoc]
      exact hd.1.append hne (hw.head_not_inner (forall_mem_of_option_all (by decide)))
    · exact endsBare_concat _ (by decide)
  have := trim_spaced blank_nil htrimmed hw'
  rw [List.nil_append, List.append_assoc, List.singleton_append] at this
  exact this

/-- A name and a comma before the `*`. -/
theorem readBeforeStar?_default {d w w' : Text} (hne : d ≠ []) (hd : Trimmed d)
    (hmarks : ∀ b ∈ d, b ∉ clauseMarks) (hw : Blank w) (hw' : Blank w') :
    readBeforeStar? (d ++ w ++ comma :: w') = some d := by
  have hnot : ¬ d ++ w ++ [comma] = [] := by
    rw [List.append_eq_nil_iff]
    exact fun h => List.cons_ne_nil _ _ h.2
  have hclean : containsAny [braceOpen, braceClose, comma] d = false :=
    containsAny_of_not_mark (forall_mem_of_all (by decide)) hmarks
  rw [readBeforeStar?, trim_default_comma hne hd hw hw']
  dsimp only
  rw [if_neg hnot, List.getLast?_concat, if_pos rfl, List.dropLast_concat,
    show d ++ w = [] ++ d ++ w from rfl, trim_spaced blank_nil hd hw, hclean]
  rw [if_neg fun h => h.elim hne Bool.false_ne_true]

/-- A name and a comma before the `{`. -/
theorem trim_dropEndWhile_default {d w w' : Text} (hne : d ≠ []) (hd : Trimmed d)
    (hmarks : ∀ b ∈ d, b ∉ clauseMarks) (hw : Blank w) (hw' : Blank w') :
    trim (dropEndWhile (· == comma) (trim (d ++ w ++ comma :: w'))) = d := by
  have hdrop : dropEndWhile (· == comma) (d ++ w ++ [comma]) = d ++ w := by
    refine dropEndWhile_concat (beq_self_eq_true comma) (forall_beq_eq_false_iff.2 ?_)
    rw [List.mem_append, not_or]
    exact ⟨not_mem_of_not_mark hmarks (by decide), not_mem_of_not_mark hw.not_mark (by decide)⟩
  rw [trim_default_comma hne hd hw hw', hdrop]
  exact trim_spaced blank_nil hd hw

/-- What the namespace binding must look like behind its `*`. -/
structure AfterStar (after name named : Text) : Prop where
  ne_nil : name ≠ []
  unmarked : ∀ b ∈ name, b ∉ clauseMarks
  shape : ∃ rest, trim after = asWord ++ rest ∧ startsIdent rest = false ∧
    ((trim rest = name ∧ named = []) ∨
      ∃ l r, trim rest = l ++ comma :: r ∧ comma ∉ l ∧ trim l = name ∧ trim r = named
        ∧ named ≠ [])

/-- A well-formed namespace binding is cut out of the clause. -/
theorem cutStar?_eq {before after d n named : Text} (hstar : star ∉ before)
    (hd : readBeforeStar? before = some d) (h : AfterStar after n named) :
    cutStar? (before ++ star :: after)
      = some { namespaceName := n, defaultName := d, named := named } := by
  obtain ⟨hne, hmarks, rest, hafter, hstart, hrest⟩ := h
  have hword : startsWord asWord (asWord ++ rest) = true := startsWord_iff.2 ⟨rest, rfl, hstart⟩
  have hclean : containsAny [braceOpen, braceClose, star] n = false :=
    containsAny_of_not_mark (forall_mem_of_all (by decide)) hmarks
  have hfinal : ¬ (n = [] ∨ containsAny [braceOpen, braceClose, star] n = true) := by
    rw [hclean]
    exact fun h => h.elim hne Bool.false_ne_true
  rw [cutStar?, cutFirst_byte after hstar]
  simp only [Option.bind_eq_bind, Option.bind_some, hd, hafter, if_pos hword, List.drop_left]
  -- the name goes to the end, or a comma and the named bindings follow it
  rcases hrest with ⟨hrest, rfl⟩ | ⟨l, r, hrest, hl, hname, hnamed, hnamedne⟩
  · have hnone : cutFirst (· == comma) n = none :=
      cutFirst_byte_eq_none_iff.2 (not_mem_of_not_mark hmarks (by decide))
    simp only [hrest, hnone, if_neg hfinal]
  · simp only [hrest, cutFirst_byte r hl, hname, hnamed, if_neg hnamedne, if_neg hfinal]

theorem cutStar?_eq_none {s : Text} (h : star ∉ s) : cutStar? s = none := by
  rw [cutStar?, cutFirst_byte_eq_none_iff.2 h]
  rfl

/-! ## Braces -/

theorem unbrace?_braces (inner : Text) :
    unbrace? (braceOpen :: inner ++ [braceClose]) = some inner := by
  rw [unbrace?, List.getLast?_concat]
  rw [if_pos ⟨rfl, rfl⟩, List.cons_append, List.tail_cons, List.dropLast_concat]

theorem unbrace?_of_head {s : Text} (h : s.head? ≠ some braceOpen) : unbrace? s = none :=
  if_neg fun hboth => h hboth.1

theorem unbrace?_of_not_mem {s : Text} (h : braceClose ∉ s) : unbrace? s = none :=
  if_neg fun hboth => h (List.mem_of_getLast? hboth.2)

theorem readAfterStar?_braces (inner : Text) :
    readAfterStar? (braceOpen :: inner ++ [braceClose]) = some (Binding.readList inner) := by
  rw [readAfterStar?, unbrace?_braces]
  exact if_neg (List.cons_ne_nil _ _)

theorem readAfterStar?_lone {t : Text} (hne : t ≠ []) (hmarks : ∀ b ∈ t, b ∉ clauseMarks) :
    readAfterStar? t = some (Binding.readList t) := by
  have hclose : braceClose ∉ t := not_mem_of_not_mark hmarks (by decide)
  have hclean : containsAny [braceOpen, braceClose, star, comma] t = false :=
    containsAny_of_not_mark (forall_mem_of_all (by decide)) hmarks
  rw [readAfterStar?, if_neg hne, unbrace?_of_not_mem hclose, hclean]
  exact if_neg Bool.false_ne_true

/-! ## Clauses -/

theorem read?_star {clause : Text} {cut : StarCut} (h : cutStar? clause = some cut) :
    read? clause = (readAfterStar? cut.named).map fun named =>
      { defaultName := cut.defaultName, namespaceName := cut.namespaceName, named := named } := by
  have hne : clause ≠ [] := by
    rintro rfl
    cases h
  rw [read?, if_neg hne, h]

theorem read?_of_not_star {clause : Text} (hne : clause ≠ []) (h : star ∉ clause) :
    read? clause = readPlain? clause := by
  rw [read?, if_neg hne, cutStar?_eq_none h]

/-- A clause without braces and `*` is a default binding, whatever else it holds. -/
theorem read?_plain {t : Text} (hne : t ≠ []) (hopen : braceOpen ∉ t) (hclose : braceClose ∉ t)
    (hstar : star ∉ t) : read? t = some { defaultName := t } := by
  have hclean : containsAny [braceClose, star] t = false := by
    refine containsAny_eq_false_iff.2 ?_
    intro b hb hmem
    rcases List.mem_cons.1 hmem with rfl | hmem
    · exact hclose hb
    · rw [List.mem_singleton.1 hmem] at hb
      exact hstar hb
  rw [read?_of_not_star hne hstar, readPlain?, unbrace?_of_not_mem hclose,
    cutFirst_byte_eq_none_iff.2 hopen]
  dsimp only
  rw [hclean]
  exact if_neg Bool.false_ne_true

theorem read?_braces {inner : Text} (hstar : star ∉ inner) :
    read? (braceOpen :: inner ++ [braceClose]) = some { named := Binding.readList inner } := by
  have hnot : star ∉ braceOpen :: inner ++ [braceClose] := by
    rw [List.cons_append, List.mem_cons, List.mem_append, List.mem_singleton]
    rintro (h | h | h)
    · exact absurd h (by decide)
    · exact hstar h
    · exact absurd h (by decide)
  have hne : braceOpen :: inner ++ [braceClose] ≠ [] := List.cons_ne_nil _ _
  rw [read?_of_not_star hne hnot, readPlain?, unbrace?_braces]

/-- A brace list behind other text: the text is the default binding, less its final
    commas. -/
theorem read?_default_braces {before inner : Text} (hne : before ≠ [])
    (hopen : braceOpen ∉ before) (hstar : star ∉ before) (hstar' : star ∉ inner) :
    read? (before ++ braceOpen :: (inner ++ [braceClose]))
      = some { defaultName := trim (dropEndWhile (· == comma) (trim before))
               named := Binding.readList inner } := by
  have hnot : star ∉ before ++ braceOpen :: (inner ++ [braceClose]) := by
    rw [List.mem_append, List.mem_cons, List.mem_append, List.mem_singleton]
    rintro (h | h | h | h)
    · exact hstar h
    · exact absurd h (by decide)
    · exact hstar' h
    · exact absurd h (by decide)
  have hhead : (before ++ braceOpen :: (inner ++ [braceClose])).head? ≠ some braceOpen := by
    cases before with
    | nil => exact absurd rfl hne
    | cons c before =>
        intro h
        have hc : c = braceOpen := Option.some.inj h
        exact hopen (hc ▸ List.mem_cons_self)
  have hlast : cutLast (· == braceClose) (inner ++ [braceClose]) = some (inner, []) := by
    refine cutLast_append (beq_self_eq_true braceClose) ?_
    intro c hc
    cases hc
  rw [read?_of_not_star (fun h => hne (List.append_eq_nil_iff.1 h).1) hnot, readPlain?,
    unbrace?_of_head hhead, cutFirst_byte _ hopen]
  dsimp only
  rw [hlast]
  rfl

/-! ## Texts that are no clause -/

/-- A brace list that is not closed is no clause. -/
theorem read?_unclosed {s : Text} (hopen : braceOpen ∈ s) (hclose : braceClose ∉ s)
    (hstar : star ∉ s) : read? s = none := by
  rw [read?_of_not_star (List.ne_nil_of_mem hopen) hstar, readPlain?, unbrace?_of_not_mem hclose]
  cases hcut : cutFirst (· == braceOpen) s with
  | none => exact absurd hopen (cutFirst_byte_eq_none_iff.1 hcut)
  | some lr =>
      obtain ⟨l, r⟩ := lr
      obtain ⟨hs, -⟩ := eq_of_cutFirst_byte hcut
      have hlast : cutLast (· == braceClose) r = none := by
        refine cutLast_byte_eq_none_iff.2 fun hr => hclose ?_
        rw [hs]
        exact List.mem_append_right l (List.mem_cons_of_mem braceOpen hr)
      dsimp only
      rw [hlast]
      rfl

/-- A `*` whose alias is missing is no clause. -/
theorem read?_star_alone {before after : Text} (hstar : star ∉ before)
    (hopen : braceOpen ∉ before ++ star :: after) (hclose : braceClose ∉ before ++ star :: after)
    (hafter : trim after = asWord) : read? (before ++ star :: after) = none := by
  have hne : before ++ star :: after ≠ [] := fun h =>
    List.cons_ne_nil _ _ (List.append_eq_nil_iff.1 h).2
  -- the word `as` is all that follows, so the clause has no namespace binding
  have hnone : cutStar? (before ++ star :: after) = none := by
    rw [cutStar?, cutFirst_byte after hstar]
    simp only [Option.bind_eq_bind, Option.bind_some, hafter]
    cases readBeforeStar? before with
    | none => rfl
    | some d =>
        have hword : startsWord asWord asWord = true := by decide
        simp only [Option.bind_some, if_pos hword, List.drop_length, trim_eq_self trimmed_nil,
          cutFirst, true_or, if_true]
  -- and with the `*` in it, it is no default binding either
  have hmarked : containsAny [braceClose, star] (before ++ star :: after) = true := by
    rw [← Bool.not_eq_false, containsAny_eq_false_iff]
    intro h
    exact h star (List.mem_append_right before List.mem_cons_self) (by decide)
  rw [read?, if_neg hne, hnone]
  dsimp only
  rw [readPlain?, unbrace?_of_not_mem hclose, cutFirst_byte_eq_none_iff.2 hopen]
  dsimp only
  rw [hmarked]
  exact if_pos rfl

end Clause

end ImportBlock
