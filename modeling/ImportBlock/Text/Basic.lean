/-! # Texts

    A text is the byte sequence of a file, a line or a message.  Nothing assumes
    that the bytes are valid UTF-8, and every comparison is byte by byte.

    This module holds the cuts and joins that the rest of the library is written
    with: splitting at a separator, cutting at the first or last byte of a kind,
    dropping bytes from either end, and the stable sort on a byte-wise key. -/

namespace ImportBlock

/-- A text is a sequence of bytes. -/
abbrev Text := List UInt8

instance : LawfulBEq Text := inferInstanceAs (LawfulBEq (List UInt8))

/-- The bytes of a literal. -/
def text (s : String) : Text := s.toUTF8.data.toList

namespace Text

/-- The line feed byte. -/
def newline : UInt8 := 10

/-- The carriage return byte. -/
def carriageReturn : UInt8 := 13

/-- The byte `,`. -/
def comma : UInt8 := 44

/-- The byte `{`. -/
def braceOpen : UInt8 := 123

/-- The byte `}`. -/
def braceClose : UInt8 := 125

/-- The byte `*`. -/
def star : UInt8 := 42

/-- The byte `;`. -/
def semicolon : UInt8 := 59

/-- The byte `.`. -/
def dot : UInt8 := 46

/-- The byte `/`. -/
def slash : UInt8 := 47

/-- The two quote characters around a module source. -/
def isQuote (b : UInt8) : Bool := b == 39 || b == 34

/-! ## Splitting and joining -/

/-- The pieces of a text between the occurrences of a separator byte.  There is
    always one piece more than there are separators. -/
def split (sep : UInt8) : Text → List Text
  | [] => [[]]
  | b :: s =>
      if b = sep then [] :: split sep s
      else match split sep s with
        | [] => [[b]]
        | piece :: rest => (b :: piece) :: rest

/-- The pieces in order, with a separator text between neighbours. -/
def join (sep : Text) : List Text → Text
  | [] => []
  | [piece] => piece
  | piece :: next :: rest => piece ++ sep ++ join sep (next :: rest)

/-- There is always a piece. -/
theorem split_ne_nil (sep : UInt8) (s : Text) : split sep s ≠ [] := by
  cases s with
  | nil => exact List.cons_ne_nil _ _
  | cons b s =>
      rw [split]
      split
      · exact List.cons_ne_nil _ _
      · split <;> exact List.cons_ne_nil _ _

/-- Joining puts a byte in front of the first piece. -/
theorem join_cons_head (sep : Text) (b : UInt8) (piece : Text) (rest : List Text) :
    join sep ((b :: piece) :: rest) = b :: join sep (piece :: rest) := by
  cases rest <;> rfl

/-- Joining the pieces with the separator gives the text back. -/
theorem join_split (sep : UInt8) (s : Text) : join [sep] (split sep s) = s := by
  induction s with
  | nil => rfl
  | cons b s ih =>
      rw [split]
      cases hs : split sep s with
      | nil => exact absurd hs (split_ne_nil sep s)
      | cons piece rest =>
          rw [hs] at ih
          split
          · rename_i hb
            rw [join, ih, hb]
            rfl
          · rw [join_cons_head, ih]

/-- Joins lines with a line feed between neighbours. -/
def unlines (ls : List Text) : Text := join [newline] ls

/-- Drops one final byte if it is the given one. -/
def chopEnd (b : UInt8) (s : Text) : Text :=
  if s.getLast? = some b then s.dropLast else s

/-- Drops the last piece if it is empty. -/
def dropFinalEmpty (ls : List Text) : List Text :=
  if ls.getLast? = some [] then ls.dropLast else ls

/-- The lines of a text as an editor counts them: a final line feed does not
    start one more line, and one carriage return before a line feed is not part
    of the line. -/
def lines (src : Text) : List Text :=
  (dropFinalEmpty (split newline src)).map (chopEnd carriageReturn)

/-! ## Cutting at a byte -/

/-- The parts before and after the first byte that satisfies `p`. -/
def cutFirst (p : UInt8 → Bool) : Text → Option (Text × Text)
  | [] => none
  | b :: s => if p b then some ([], s) else (cutFirst p s).map fun (l, r) => (b :: l, r)

/-- The parts before and after the last byte that satisfies `p`. -/
def cutLast (p : UInt8 → Bool) : Text → Option (Text × Text)
  | [] => none
  | b :: s =>
      match cutLast p s with
      | some (l, r) => some (b :: l, r)
      | none => if p b then some ([], s) else none

/-- A cut takes the first byte of its kind out of the text. -/
theorem eq_of_cutFirst {p : UInt8 → Bool} {s l r : Text} (h : cutFirst p s = some (l, r)) :
    ∃ b, p b = true ∧ s = l ++ b :: r ∧ ∀ c ∈ l, p c = false := by
  induction s generalizing l with
  | nil => cases h
  | cons a s ih =>
      rw [cutFirst] at h
      split at h
      · rename_i ha
        cases h
        exact ⟨a, ha, rfl, fun c hc => nomatch hc⟩
      · rename_i ha
        obtain ⟨⟨l', r'⟩, hcut, heq⟩ := Option.map_eq_some_iff.1 h
        cases heq
        obtain ⟨b, hb, hs, hl⟩ := ih hcut
        refine ⟨b, hb, by rw [hs]; rfl, fun c hc => ?_⟩
        cases hc with
        | head => exact Bool.eq_false_iff.2 ha
        | tail _ hc => exact hl c hc

/-- Without a cut there is no byte of the kind. -/
theorem cutLast_eq_none {p : UInt8 → Bool} {s : Text} (h : cutLast p s = none) :
    ∀ c ∈ s, p c = false := by
  induction s with
  | nil => exact fun c hc => nomatch hc
  | cons a s ih =>
      rw [cutLast] at h
      split at h
      · cases h
      · rename_i hs
        split at h
        · cases h
        · rename_i ha
          intro c hc
          cases hc with
          | head => exact Bool.eq_false_iff.2 ha
          | tail _ hc => exact ih hs c hc

/-- A cut takes the last byte of its kind out of the text. -/
theorem eq_of_cutLast {p : UInt8 → Bool} {s l r : Text} (h : cutLast p s = some (l, r)) :
    ∃ b, p b = true ∧ s = l ++ b :: r ∧ ∀ c ∈ r, p c = false := by
  induction s generalizing l with
  | nil => cases h
  | cons a s ih =>
      rw [cutLast] at h
      split at h
      · rename_i hs
        cases h
        obtain ⟨b, hb, hs, hr⟩ := ih hs
        exact ⟨b, hb, by rw [hs]; rfl, hr⟩
      · rename_i hs
        split at h
        · rename_i ha
          cases h
          exact ⟨a, ha, rfl, cutLast_eq_none hs⟩
        · cases h

/-- Drops the longest run of final bytes that satisfy `p`. -/
def dropEndWhile (p : UInt8 → Bool) (s : Text) : Text := (s.reverse.dropWhile p).reverse

/-- Does the text hold one of these bytes? -/
def containsAny (bytes : Text) (s : Text) : Bool := s.any fun b => bytes.contains b

/-! ## Numbers -/

/-- A natural number in decimal. -/
def ofNat (n : Nat) : Text := text (toString n)

/-- An integer in decimal, with a minus sign if it is negative. -/
def ofInt : Int → Text
  | .ofNat n => ofNat n
  | .negSucc n => text "-" ++ ofNat (n + 1)

/-! ## Sorting -/

/-- Places an entry before the first one whose key is not smaller than its own. -/
def insertOn {α : Type} (key : α → Text) (a : α) : List α → List α
  | [] => [a]
  | b :: rest => if key b < key a then b :: insertOn key a rest else a :: b :: rest

/-- Stable sort by the byte-wise order of a key. -/
def sortOn {α : Type} (key : α → Text) (as : List α) : List α := as.foldr (insertOn key) []

/-- Placing an entry adds it and nothing else. -/
theorem insertOn_perm {α : Type} (key : α → Text) (a : α) (as : List α) :
    (insertOn key a as).Perm (a :: as) := by
  induction as with
  | nil => exact .refl _
  | cons b rest ih =>
      rw [insertOn]
      split
      · exact (ih.cons b).trans (.swap a b rest)
      · exact .refl _

/-- Sorting keeps the entries. -/
theorem sortOn_perm {α : Type} (key : α → Text) (as : List α) : (sortOn key as).Perm as := by
  induction as with
  | nil => exact .refl _
  | cons a rest ih => exact (insertOn_perm key a (sortOn key rest)).trans (ih.cons a)

end Text

end ImportBlock
