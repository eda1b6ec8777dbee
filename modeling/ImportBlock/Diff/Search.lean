import ImportBlock.Diff.Tidy

/-! # The search for a script

    Two sequences are compared by taking away their common ends and splitting what
    is left: at a shared run that is at least half as long as the longer sequence,
    or else where the paths of an edit-distance search from both ends meet.  The
    parts are compared in the same way and the outcome is tidied. -/

namespace ImportBlock.Diff

variable {α : Type} [DecidableEq α]

/-! ## A long shared run -/

/-- A run that two sequences share: where it starts in each, and how long it is. -/
structure Shared where
  left : Nat
  right : Nat
  length : Nat
  deriving Repr

/-- The shared run around position `i` of the longer and `j` of the shorter. -/
def sharedAt (long short : List α) (i j : Nat) : Shared :=
  let forward := commonStart (long.drop i) (short.drop j)
  let backward := commonEnd (long.take i) (short.take j)
  ⟨i - backward, j - backward, backward + forward⟩

/-- The longest shared run around a quarter of the longer sequence that starts at
    position `i`, the first of several; it counts only if it is long enough. -/
def sharedFrom (long short : List α) (i : Nat) : Option Shared :=
  let seed := (long.drop i).take (long.length / 4)
  let best := (occurrences seed short).foldl
    (fun (best : Shared) j =>
      let s := sharedAt long short i j
      if best.length < s.length then s else best) ⟨0, 0, 0⟩
  if 2 * best.length < long.length then none else some best

/-- A shared run that is at least half as long as the longer sequence. -/
def sharedHalf (long short : List α) : Option Shared :=
  if long.length < 4 ∨ 2 * short.length < long.length then none
  else
    match sharedFrom long short ((long.length + 3) / 4),
        sharedFrom long short ((long.length + 1) / 2) with
    | some s, some t => if t.length < s.length then some s else some t
    | some s, none => some s
    | none, t => t

/-! ## The meeting of two searches -/

/-- How far each diagonal has been followed from one end, and how many diagonals
    at either side have left the grid. -/
structure Frontier where
  reach : Array Int
  low : Int := 0
  high : Int := 0

/-- The reach of the diagonal at an index, `-1` outside. -/
def Frontier.reachAt (f : Frontier) (i : Int) : Int :=
  if i < 0 then -1 else f.reach.getD i.toNat (-1)

/-- Follows equal items along a diagonal. -/
def follow (a b : Array α) : Nat → Int → Int → Int
  | 0, x, _ => x
  | n + 1, x, y =>
      if x < 0 ∨ y < 0 then x
      else match a[x.toNat]?, b[y.toNat]? with
        | some p, some q => if p = q then follow a b n (x + 1) (y + 1) else x
        | _, _ => x

/-- Extends the diagonals `k`, `k + 2`, … that are reached with `d` edits, until a
    probe of the other side's frontier succeeds. -/
def sweep (a b : Array α) (offset d : Int) (probe : Int → Int → Option (Int × Int)) :
    Nat → Int → Frontier → Except (Int × Int) Frontier
  | 0, _, f => .ok f
  | n + 1, k, f =>
      if d - f.high < k then .ok f
      else
        let i := offset + k
        let start :=
          if k = -d ∨ (k ≠ d ∧ f.reachAt (i - 1) < f.reachAt (i + 1)) then f.reachAt (i + 1)
          else f.reachAt (i - 1) + 1
        let x := follow a b a.size start (start - k)
        let y := x - k
        let f := { f with reach := f.reach.setIfInBounds i.toNat x }
        if (a.size : Int) < x then
          sweep a b offset d probe n (k + 2) { f with high := f.high + 2 }
        else if (b.size : Int) < y then
          sweep a b offset d probe n (k + 2) { f with low := f.low + 2 }
        else match probe k x with
          | some meeting => .error meeting
          | none => sweep a b offset d probe n (k + 2) f

/-- Searches from both ends with `d`, `d + 1`, … edits, for at most so many rounds. -/
def meet (a b a' b' : Array α) (offset : Int) :
    Nat → Int → Frontier → Frontier → Option (Int × Int)
  | 0, _, _, _ => none
  | n + 1, d, forward, backward =>
      let width : Int := a.size
      let delta : Int := width - b.size
      let odd : Bool := delta % 2 != 0
      let fromStart (k x : Int) : Option (Int × Int) :=
        let other := backward.reachAt (offset + delta - k)
        if odd ∧ other ≠ -1 ∧ width - other ≤ x then some (x, x - k) else none
      match sweep a b offset d fromStart (d.toNat + 1) (-d + forward.low) forward with
      | .error meeting => some meeting
      | .ok forward =>
          let fromEnd (k x : Int) : Option (Int × Int) :=
            let other := forward.reachAt (offset + delta - k)
            if !odd ∧ other ≠ -1 ∧ width - x ≤ other then some (other, other - (delta - k))
            else none
          match sweep a' b' offset d fromEnd (d.toNat + 1) (-d + backward.low) backward with
          | .error meeting => some meeting
          | .ok backward => meet a b a' b' offset n (d + 1) forward backward

/-- Where the searches from both ends of two sequences meet. -/
def meeting (a b : List α) : Option (Nat × Nat) :=
  let rounds := (a.length + b.length + 1) / 2
  let start : Frontier :=
    { reach := (Array.replicate (2 * rounds) (-1 : Int)).setIfInBounds (rounds + 1) 0 }
  (meet a.toArray b.toArray a.reverse.toArray b.reverse.toArray rounds rounds 0 start start).map
    fun (x, y) => (x.toNat, y.toNat)

/-! ## The search -/

/-- How two sequences without common ends are compared: by a finished script, or by
    the parts before and after a shared run. -/
inductive Plan (α : Type) where
  | done (s : Script α)
  | split (a₁ b₁ middle a₂ b₂ : List α)

/-- The parts of two sequences around a shared run. -/
def Plan.around (a b : List α) (s : Shared) : Plan α :=
  .split (a.take s.left) (b.take s.right) ((a.drop s.left).take s.length)
    (a.drop (s.left + s.length)) (b.drop (s.right + s.length))

/-- Decides how to compare two sequences without common ends. -/
def plan (a b : List α) : Plan α :=
  if a = [] then .done [⟨.insert, b⟩]
  else if b = [] then .done [⟨.delete, a⟩]
  else
    let (long, short, op) := if b.length < a.length then (a, b, Op.delete) else (b, a, Op.insert)
    match occurrences short long with
    | i :: _ =>
        .done [⟨op, long.take i⟩, ⟨.equal, short⟩, ⟨op, long.drop (i + short.length)⟩]
    | [] =>
        if short.length = 1 then .done (replace a b)
        else match sharedHalf long short with
          | some s => .around a b (if b.length < a.length then s else ⟨s.right, s.left, s.length⟩)
          | none =>
              match meeting a b with
              | some (x, y) => .split (a.take x) (b.take y) [] (a.drop x) (b.drop y)
              | none => .done (replace a b)

/-- A script that turns `a` into `b`. -/
def search (a b : List α) : Script α :=
  if a = b then keep a
  else
    let start := commonStart a b
    let a' := a.drop start
    let b' := b.drop start
    let shared := commonEnd a' b'
    let a'' := a'.take (a'.length - shared)
    let b'' := b'.take (b'.length - shared)
    let middle :=
      match plan a'' b'' with
      | .done s => s
      | .split a₁ b₁ mid a₂ b₂ =>
          if _h : a₁.length + b₁.length < a.length + b.length
              ∧ a₂.length + b₂.length < a.length + b.length then
            search a₁ b₁ ++ keep mid ++ search a₂ b₂
          else replace a'' b''
    tidy (keep (a.take start) ++ middle ++ keep (a'.drop (a'.length - shared)))
termination_by a.length + b.length

end ImportBlock.Diff
