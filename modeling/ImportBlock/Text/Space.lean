import ImportBlock.Text.Basic

/-! # White space

    White space is the Unicode property, read from the UTF-8 bytes: a text is
    trimmed by taking away whole encoded characters from its ends.  A byte that is
    not part of such a character stops the trimming, so a stray `85` or `A0` stays. -/

namespace ImportBlock
namespace Text

/-- The encodings of the white space characters: the six of ASCII, U+0085, U+00A0,
    U+1680, U+2000 to U+200A, U+2028, U+2029, U+202F, U+205F and U+3000. -/
def spaceUnits : List Text :=
  [[0x20], [0x09], [0x0A], [0x0B], [0x0C], [0x0D],
   [0xC2, 0x85], [0xC2, 0xA0],
   [0xE1, 0x9A, 0x80],
   [0xE2, 0x80, 0x80], [0xE2, 0x80, 0x81], [0xE2, 0x80, 0x82], [0xE2, 0x80, 0x83],
   [0xE2, 0x80, 0x84], [0xE2, 0x80, 0x85], [0xE2, 0x80, 0x86], [0xE2, 0x80, 0x87],
   [0xE2, 0x80, 0x88], [0xE2, 0x80, 0x89], [0xE2, 0x80, 0x8A],
   [0xE2, 0x80, 0xA8], [0xE2, 0x80, 0xA9], [0xE2, 0x80, 0xAF],
   [0xE2, 0x81, 0x9F], [0xE3, 0x80, 0x80]]

/-- Takes one of the units away from the front of a text. -/
def dropUnit? (units : List Text) (s : Text) : Option Text :=
  units.findSome? fun u =>
    if u.isPrefixOf s && !u.isEmpty then some (s.drop u.length) else none

/-- Taking a unit away leaves a shorter text. -/
theorem length_lt_of_dropUnit? {units : List Text} {s r : Text}
    (h : dropUnit? units s = some r) : r.length < s.length := by
  obtain ⟨u, -, hu⟩ := List.exists_of_findSome?_eq_some h
  split at hu
  · rename_i hc
    rw [Bool.and_eq_true, List.isPrefixOf_iff_prefix] at hc
    obtain ⟨⟨t, rfl⟩, hne⟩ := hc
    cases u with
    | nil => cases hne
    | cons b u =>
        rw [List.drop_left, Option.some.injEq] at hu
        subst hu
        rw [List.cons_append, List.length_cons, List.length_append]
        omega
  · cases hu

/-- Takes units away from the front as long as there are any. -/
def dropUnits (units : List Text) (s : Text) : Text :=
  match _h : dropUnit? units s with
  | some r => dropUnits units r
  | none => s
termination_by s.length
decreasing_by exact length_lt_of_dropUnit? _h

/-- The text without its leading white space. -/
def trimStart (s : Text) : Text := dropUnits spaceUnits s

/-- The text without its final white space. -/
def trimEnd (s : Text) : Text :=
  (dropUnits (spaceUnits.map List.reverse) s.reverse).reverse

/-- The text without the white space at either end. -/
def trim (s : Text) : Text := trimEnd (trimStart s)

/-- The white space characters of ASCII. -/
def isAsciiSpace (b : UInt8) : Bool := b == 32 || (9 ≤ b && b ≤ 13)

end Text
end ImportBlock
