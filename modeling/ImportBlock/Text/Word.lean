import ImportBlock.Text.Basic

/-! # Whole words

    A word occurs in a text where its bytes stand and neither neighbour is an
    identifier byte.  `indexWordFrom` finds the first such place by one scan that
    remembers whether the byte just passed belongs to an identifier. -/

namespace ImportBlock
namespace Text

/-- The bytes of ASCII identifiers: digits, letters, `_` and `$`. -/
def isIdent (b : UInt8) : Bool :=
  (48 ≤ b && b ≤ 57) || (65 ≤ b && b ≤ 90) || (97 ≤ b && b ≤ 122) || b == 95 || b == 36

/-- Does the text start with an identifier byte? -/
def startsIdent : Text → Bool
  | [] => false
  | b :: _ => isIdent b

/-- Does the text end with an identifier byte? -/
def endsIdent (s : Text) : Bool := s.getLast?.any isIdent

/-- Does the text start with the word, and no identifier byte follow? -/
def startsWord (word s : Text) : Bool :=
  word.isPrefixOf s && !startsIdent (s.drop word.length)

/-- Does the word stand after the first `i` bytes as a whole word? -/
def wordStandsAt (s : Text) (i : Nat) (word : Text) : Bool :=
  startsWord word (s.drop i) && !endsIdent (s.take i)

/-- Does the word stand at position `i` as a whole word?  No word stands at a
    negative position. -/
def hasWordAt (s : Text) (i : Int) (word : Text) : Bool :=
  match i with
  | .ofNat n => wordStandsAt s n word
  | .negSucc _ => false

/-- Scans for the word; `inside` tells whether an identifier byte was just passed
    and `i` counts the bytes passed so far. -/
def scanWord (word : Text) : Bool → Nat → Text → Option Nat
  | inside, i, [] => if !inside && word.isEmpty then some i else none
  | inside, i, b :: s =>
      if !inside && startsWord word (b :: s) then some i
      else scanWord word (isIdent b) (i + 1) s

/-- The first position at or after `offset` where the word stands as a whole word. -/
def indexWordFrom (s word : Text) (offset : Nat) : Option Nat :=
  if s.length < offset then none
  else scanWord word (endsIdent (s.take offset)) offset (s.drop offset)

/-- The first position where the word stands as a whole word. -/
def indexWord (s word : Text) : Option Nat := indexWordFrom s word 0

/-- The parts before and after the first whole word at or after `offset`. -/
def cutWordFrom (s word : Text) (offset : Nat) : Option (Text × Text) :=
  (indexWordFrom s word offset).map fun i => (s.take i, s.drop (i + word.length))

end Text
end ImportBlock
