import Mathlib
import ImportBlock.Proofs.Text.Words

/-! # Cuts, splits and lines

    What the cutting functions do to a text that is given in parts, and the
    converse: which parts they give back.  Splitting undoes joining as long as the
    separator stands in none of the pieces, and the lines of joined lines are
    these lines, up to one empty line at the end and the carriage returns. -/

namespace ImportBlock
namespace Text

/-! ## Cutting at a byte -/

theorem cutFirst_append {p : UInt8 → Bool} {l r : Text} {b : UInt8}
    (hl : ∀ c ∈ l, p c = false) (hb : p b = true) :
    cutFirst p (l ++ b :: r) = some (l, r) := by
  induction l with
  | nil =>
      rw [List.nil_append, cutFirst, if_pos hb]
  | cons c l ih =>
      have hc : ¬ p c = true := by
        rw [hl c List.mem_cons_self]
        exact Bool.false_ne_true
      rw [List.cons_append, cutFirst, if_neg hc,
        ih fun d hd => hl d (List.mem_cons_of_mem c hd)]
      rfl

theorem cutFirst_eq_none_iff {p : UInt8 → Bool} {s : Text} :
    cutFirst p s = none ↔ ∀ c ∈ s, p c = false := by
  constructor
  · intro h c hc
    cases hp : p c with
    | false => rfl
    | true =>
        -- a byte of the kind is there, so is the first one
        induction s with
        | nil => cases hc
        | cons a s ih =>
            rw [cutFirst] at h
            split at h
            · cases h
            · rename_i ha
              rcases List.mem_cons.1 hc with rfl | hc
              · exact absurd hp ha
              · exact ih (Option.map_eq_none_iff.1 h) hc
  · intro h
    cases hcut : cutFirst p s with
    | none => rfl
    | some lr =>
        obtain ⟨l, r⟩ := lr
        obtain ⟨b, hb, hs, -⟩ := eq_of_cutFirst hcut
        have := h b (by rw [hs]; exact List.mem_append_right l List.mem_cons_self)
        rw [hb] at this
        cases this

theorem cutLast_eq_none_iff {p : UInt8 → Bool} {s : Text} :
    cutLast p s = none ↔ ∀ c ∈ s, p c = false := by
  refine ⟨cutLast_eq_none, fun h => ?_⟩
  cases hcut : cutLast p s with
  | none => rfl
  | some lr =>
      obtain ⟨l, r⟩ := lr
      obtain ⟨b, hb, hs, -⟩ := eq_of_cutLast hcut
      have := h b (by rw [hs]; exact List.mem_append_right l List.mem_cons_self)
      rw [hb] at this
      cases this

theorem cutLast_append {p : UInt8 → Bool} {l r : Text} {b : UInt8}
    (hb : p b = true) (hr : ∀ c ∈ r, p c = false) :
    cutLast p (l ++ b :: r) = some (l, r) := by
  induction l with
  | nil =>
      rw [List.nil_append, cutLast, cutLast_eq_none_iff.2 hr]
      exact if_pos hb
  | cons c l ih =>
      rw [List.cons_append, cutLast, ih]

theorem forall_beq_eq_false_iff {s : Text} {b : UInt8} :
    (∀ c ∈ s, (c == b) = false) ↔ b ∉ s := by
  constructor
  · intro h hb
    exact beq_eq_false_iff_ne.1 (h b hb) rfl
  · intro h c hc
    refine beq_eq_false_iff_ne.2 ?_
    rintro rfl
    exact h hc

/-- A cut at the first of the bytes that are equal to one. -/
theorem cutFirst_byte {b : UInt8} {l : Text} (r : Text) (h : b ∉ l) :
    cutFirst (· == b) (l ++ b :: r) = some (l, r) :=
  cutFirst_append (forall_beq_eq_false_iff.2 h) (beq_self_eq_true b)

theorem cutFirst_byte_eq_none_iff {b : UInt8} {s : Text} :
    cutFirst (· == b) s = none ↔ b ∉ s := by
  rw [cutFirst_eq_none_iff, forall_beq_eq_false_iff]

theorem eq_of_cutFirst_byte {b : UInt8} {s l r : Text}
    (h : cutFirst (· == b) s = some (l, r)) : s = l ++ b :: r ∧ b ∉ l := by
  obtain ⟨c, hc, hs, hl⟩ := eq_of_cutFirst h
  rw [eq_of_beq hc] at hs
  exact ⟨hs, forall_beq_eq_false_iff.1 hl⟩

theorem cutLast_byte_eq_none_iff {b : UInt8} {s : Text} :
    cutLast (· == b) s = none ↔ b ∉ s := by
  rw [cutLast_eq_none_iff, forall_beq_eq_false_iff]

theorem containsAny_eq_false_iff {bytes s : Text} :
    containsAny bytes s = false ↔ ∀ b ∈ s, b ∉ bytes := by
  rw [containsAny, List.any_eq_false]
  constructor
  · intro h b hb hmem
    exact h b hb (List.contains_iff_mem.2 hmem)
  · intro h b hb hc
    exact h b hb (List.contains_iff_mem.1 hc)

/-- A byte that is not in the text need not be looked for. -/
theorem containsAny_cons_of_not_mem {b : UInt8} {bytes s : Text} (h : b ∉ s) :
    containsAny (b :: bytes) s = containsAny bytes s := by
  rw [Bool.eq_iff_iff, ← not_iff_not, Bool.not_eq_true, Bool.not_eq_true,
    containsAny_eq_false_iff, containsAny_eq_false_iff]
  constructor
  · intro hnot c hc hmem
    exact hnot c hc (List.mem_cons_of_mem b hmem)
  · intro hnot c hc hmem
    rcases List.mem_cons.1 hmem with rfl | hmem
    · exact h hc
    · exact hnot c hc hmem

/-- Final bytes of a kind are dropped from a text that does not end with one. -/
theorem dropEndWhile_concat {p : UInt8 → Bool} {s : Text} {b : UInt8} (hb : p b = true)
    (hs : ∀ c ∈ s, p c = false) : dropEndWhile p (s ++ [b]) = s := by
  rw [dropEndWhile, List.reverse_append, List.reverse_singleton, List.singleton_append,
    List.dropWhile_cons_of_pos hb]
  cases hr : s.reverse with
  | nil =>
      rw [List.dropWhile_nil, ← hr, List.reverse_reverse]
  | cons c r =>
      have hc : ¬ p c = true := by
        have hmem : c ∈ s := List.mem_reverse.1 (by rw [hr]; exact List.mem_cons_self)
        rw [hs c hmem]
        exact Bool.false_ne_true
      rw [List.dropWhile_cons_of_neg hc, ← hr, List.reverse_reverse]

/-! ## Splitting -/

theorem split_eq_singleton {sep : UInt8} {s : Text} (h : sep ∉ s) : split sep s = [s] := by
  induction s with
  | nil => rfl
  | cons b s ih =>
      have hb : ¬ b = sep := fun heq => h (heq ▸ List.mem_cons_self)
      rw [split, if_neg hb, ih fun hs => h (List.mem_cons_of_mem b hs)]

/-- The pieces around a separator are the pieces on either side of it. -/
theorem split_append (sep : UInt8) (a b : Text) :
    split sep (a ++ sep :: b) = split sep a ++ split sep b := by
  induction a with
  | nil => exact if_pos rfl
  | cons c a ih =>
      rw [List.cons_append, split, split, ih]
      by_cases hc : c = sep
      · rw [if_pos hc, if_pos hc]
        rfl
      · rw [if_neg hc, if_neg hc]
        cases hs : split sep a with
        | nil => exact absurd hs (split_ne_nil sep a)
        | cons piece rest => rfl

theorem split_append_cons {sep : UInt8} {a : Text} (b : Text) (h : sep ∉ a) :
    split sep (a ++ sep :: b) = a :: split sep b := by
  rw [split_append, split_eq_singleton h]
  rfl

/-- A text is one piece, or a piece and a separator before the rest. -/
theorem eq_or_exists_split (sep : UInt8) (s : Text) :
    sep ∉ s ∨ ∃ a b, s = a ++ sep :: b ∧ sep ∉ a := by
  cases hcut : cutFirst (· == sep) s with
  | none => exact Or.inl (cutFirst_byte_eq_none_iff.1 hcut)
  | some lr =>
      obtain ⟨l, r⟩ := lr
      exact Or.inr ⟨l, r, eq_of_cutFirst_byte hcut⟩

/-- Each piece is cut out of the text at separators or at its ends. -/
theorem exists_eq_of_mem_split {sep : UInt8} {s piece : Text} (h : piece ∈ split sep s) :
    sep ∉ piece ∧ ∃ a b, s = a ++ piece ++ b ∧ (a = [] ∨ a.getLast? = some sep)
      ∧ (b = [] ∨ b.head? = some sep) := by
  -- on the length, from one separator to the next
  induction hn : s.length using Nat.strongRecOn generalizing s with
  | ind n ih =>
      rcases eq_or_exists_split sep s with hs | ⟨l, r, rfl, hl⟩
      · rw [split_eq_singleton hs, List.mem_singleton] at h
        subst h
        exact ⟨hs, [], [], by rw [List.nil_append, List.append_nil], Or.inl rfl, Or.inl rfl⟩
      · rw [split_append_cons r hl] at h
        rcases List.mem_cons.1 h with rfl | h
        · exact ⟨hl, [], sep :: r, by rw [List.nil_append], Or.inl rfl, Or.inr rfl⟩
        · have hlen : r.length < n := by
            rw [← hn, List.length_append, List.length_cons]
            omega
          obtain ⟨hpiece, a, b, hr, ha, hb⟩ := ih r.length hlen h rfl
          refine ⟨hpiece, l ++ sep :: a, b, ?_, Or.inr ?_, hb⟩
          · rw [hr, List.append_assoc, List.append_assoc, List.append_assoc, List.cons_append]
          · rw [List.getLast?_append]
            rcases ha with rfl | ha
            · rfl
            · rw [List.getLast?_cons, ha]
              rfl

theorem mem_of_mem_split {sep : UInt8} {s piece : Text} (h : piece ∈ split sep s) {b : UInt8}
    (hb : b ∈ piece) : b ∈ s := by
  obtain ⟨-, before, after, rfl, -⟩ := exists_eq_of_mem_split h
  exact List.mem_append_left after (List.mem_append_right before hb)

theorem join_cons {sep : Text} (piece : Text) {rest : List Text} (h : rest ≠ []) :
    join sep (piece :: rest) = piece ++ sep ++ join sep rest := by
  cases rest with
  | nil => exact absurd rfl h
  | cons next rest => rfl

theorem mem_join {sep : Text} {pieces : List Text} {b : UInt8} (h : b ∈ join sep pieces) :
    b ∈ sep ∨ ∃ piece ∈ pieces, b ∈ piece := by
  induction pieces with
  | nil => cases h
  | cons piece rest ih =>
      by_cases hrest : rest = []
      · subst hrest
        exact Or.inr ⟨piece, List.mem_cons_self, h⟩
      · rw [join_cons piece hrest] at h
        rcases List.mem_append.1 h with h | h
        · rcases List.mem_append.1 h with h | h
          · exact Or.inr ⟨piece, List.mem_cons_self, h⟩
          · exact Or.inl h
        · rcases ih h with h | ⟨next, hnext, h⟩
          · exact Or.inl h
          · exact Or.inr ⟨next, List.mem_cons_of_mem piece hnext, h⟩

/-- **Splitting undoes joining.** -/
theorem split_join {sep : UInt8} {pieces : List Text} (hne : pieces ≠ [])
    (h : ∀ piece ∈ pieces, sep ∉ piece) : split sep (join [sep] pieces) = pieces := by
  induction pieces with
  | nil => exact absurd rfl hne
  | cons piece rest ih =>
      have hpiece := h piece List.mem_cons_self
      by_cases hrest : rest = []
      · subst hrest
        exact split_eq_singleton hpiece
      · rw [join_cons piece hrest, List.append_assoc, List.singleton_append,
          split_append_cons _ hpiece, ih hrest fun p hp => h p (List.mem_cons_of_mem piece hp)]

/-! ## Lines -/

/-- The pieces of joined lines are these lines, but for an empty last one. -/
theorem dropFinalEmpty_split_unlines {ls : List Text} (h : ∀ l ∈ ls, newline ∉ l) :
    dropFinalEmpty (split newline (unlines ls)) = dropFinalEmpty ls := by
  by_cases hne : ls = []
  · subst hne
    rfl
  · rw [unlines, split_join hne h]

/-- **The lines of joined lines** are these lines. -/
theorem lines_unlines {ls : List Text} (h : ∀ l ∈ ls, newline ∉ l) :
    lines (unlines ls) = (dropFinalEmpty ls).map (chopEnd carriageReturn) := by
  rw [lines, dropFinalEmpty_split_unlines h]

theorem unlines_append {xs ys : List Text} (hx : xs ≠ []) (hy : ys ≠ []) :
    unlines (xs ++ ys) = unlines xs ++ newline :: unlines ys := by
  induction xs with
  | nil => exact absurd rfl hx
  | cons x xs ih =>
      rw [unlines, unlines, List.cons_append,
        join_cons x fun h => hy (List.append_eq_nil_iff.1 h).2]
      by_cases hxs : xs = []
      · subst hxs
        rw [List.nil_append, List.append_assoc]
        rfl
      · have := ih hxs
        rw [unlines, unlines] at this
        rw [this, join_cons x hxs, ← List.append_assoc]

theorem chopEnd_eq_self {b : UInt8} {s : Text} (h : s.getLast? ≠ some b) : chopEnd b s = s :=
  if_neg h

theorem dropFinalEmpty_eq_self {ls : List Text} (h : ls.getLast? ≠ some []) :
    dropFinalEmpty ls = ls := if_neg h

theorem dropFinalEmpty_append {xs ys : List Text} (hy : ys ≠ []) :
    dropFinalEmpty (xs ++ ys) = xs ++ dropFinalEmpty ys := by
  rw [dropFinalEmpty, dropFinalEmpty, List.getLast?_append, List.getLast?_eq_some_getLast hy,
    Option.some_or]
  split
  · rw [List.dropLast_append_of_ne_nil hy]
  · rfl

theorem dropFinalEmpty_cons (l : Text) {ls : List Text} (hls : ls ≠ []) :
    dropFinalEmpty (l :: ls) = l :: dropFinalEmpty ls := by
  rw [← List.singleton_append, dropFinalEmpty_append hls]
  rfl

theorem dropFinalEmpty_singleton {l : Text} (hl : l ≠ []) : dropFinalEmpty [l] = [l] :=
  dropFinalEmpty_eq_self fun hlast => hl (Option.some.inj hlast)

/-- A final line feed makes an empty last piece, and that is dropped. -/
theorem dropFinalEmpty_split_concat (s : Text) :
    dropFinalEmpty (split newline (s ++ [newline])) = split newline s := by
  have hsplit : split newline (s ++ [newline]) = split newline s ++ [[]] :=
    split_append newline s []
  rw [hsplit, dropFinalEmpty_append (List.cons_ne_nil _ _)]
  exact List.append_nil _

theorem mem_of_mem_chopEnd {b c : UInt8} {s : Text} (h : c ∈ chopEnd b s) : c ∈ s := by
  rw [chopEnd] at h
  split at h
  · exact (List.dropLast_sublist s).subset h
  · exact h

theorem mem_of_mem_dropFinalEmpty {ls : List Text} {l : Text} (h : l ∈ dropFinalEmpty ls) :
    l ∈ ls := by
  rw [dropFinalEmpty] at h
  split at h
  · exact (List.dropLast_sublist ls).subset h
  · exact h

/-- No line holds a line feed. -/
theorem newline_not_mem_of_mem_lines {src l : Text} (h : l ∈ lines src) : newline ∉ l := by
  obtain ⟨piece, hpiece, rfl⟩ := List.mem_map.1 h
  have hsplit := mem_of_mem_dropFinalEmpty hpiece
  intro hmem
  exact (exists_eq_of_mem_split hsplit).1 (mem_of_mem_chopEnd hmem)

/-- The last piece is empty only behind a line feed or in the empty text. -/
theorem getLast?_split_newline {s : Text} (hne : s ≠ []) (hs : s.getLast? ≠ some newline) :
    (split newline s).getLast? ≠ some [] := by
  intro hlast
  -- joined again, an empty last piece puts a line feed at the end
  have hjoin : s = unlines ((split newline s).dropLast ++ [[]]) := by
    have hsplit := split_ne_nil newline s
    rw [List.getLast?_eq_some_getLast hsplit, Option.some.injEq] at hlast
    rw [← hlast, List.dropLast_concat_getLast hsplit]
    exact (join_split newline s).symm
  by_cases hrest : (split newline s).dropLast = []
  · rw [hrest] at hjoin
    exact hne hjoin
  · rw [unlines_append hrest (List.cons_ne_nil _ _)] at hjoin
    refine hs ?_
    rw [hjoin]
    exact List.getLast?_concat

/-- A final line feed adds no line. -/
theorem lines_concat_newline {s : Text} (hne : s ≠ []) (hs : s.getLast? ≠ some newline) :
    lines (s ++ [newline]) = lines s := by
  rw [lines, lines, dropFinalEmpty_split_concat,
    dropFinalEmpty_eq_self (getLast?_split_newline hne hs)]

/-- The lines of a text that ends its last line are followed by those of the next text. -/
theorem lines_append {a : Text} (b : Text) (ha : a.getLast? = some newline) :
    lines (a ++ b) = lines a ++ lines b := by
  obtain ⟨s, rfl⟩ := List.getLast?_eq_some_iff.1 ha
  have hsplit : split newline (s ++ [newline] ++ b) = split newline s ++ split newline b := by
    rw [List.append_assoc, List.singleton_append]
    exact split_append newline s b
  rw [lines, lines, lines, hsplit, dropFinalEmpty_append (split_ne_nil newline b),
    dropFinalEmpty_split_concat, List.map_append]

/-- Joined again, the pieces of a text give it back without one final line feed. -/
theorem unlines_dropFinalEmpty_split (s : Text) :
    unlines (dropFinalEmpty (split newline s)) = chopEnd newline s := by
  by_cases hlast : s.getLast? = some newline
  · obtain ⟨t, rfl⟩ := List.getLast?_eq_some_iff.1 hlast
    rw [dropFinalEmpty_split_concat, chopEnd, if_pos hlast, List.dropLast_concat]
    exact join_split newline t
  · rw [chopEnd_eq_self hlast]
    by_cases hs : s = []
    · subst hs
      rfl
    · rw [dropFinalEmpty_eq_self (getLast?_split_newline hs hlast)]
      exact join_split newline s

theorem lines_ne_nil {s : Text} (hs : s ≠ []) : lines s ≠ [] := by
  intro hnil
  have hpieces : dropFinalEmpty (split newline s) = [] := List.map_eq_nil_iff.1 hnil
  have hchop : chopEnd newline s = [] := by
    rw [← unlines_dropFinalEmpty_split, hpieces]
    rfl
  -- only the lone line feed is chopped to nothing, and that is one empty line
  rw [chopEnd] at hchop
  split at hchop
  · rename_i hlast
    obtain ⟨t, rfl⟩ := List.getLast?_eq_some_iff.1 hlast
    rw [dropFinalEmpty_split_concat] at hpieces
    exact split_ne_nil newline t hpieces
  · exact hs hchop

end Text
end ImportBlock
