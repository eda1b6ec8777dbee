import Mathlib
import ImportBlock.Output

/-! # What an output gets

    What is delivered depends on where the output stops taking writes.  Without a limit it
    never stops: `deliver_none` gives the records and the printed bytes of all events, one
    after the other.

    With a limit, and without colour, each print is one write.  So an output that takes `n`
    writes gets the first `n` printed texts (`out_deliver_some`), the print after them fails
    (`failed_deliver_some`), and an output that takes as many writes as there are prints might
    as well take all (`deliver_enough`). -/

namespace ImportBlock

/-- The record that an event logs. -/
def Event.record? : Event → Option Record
  | .log r => some r
  | .print _ _ => none

/-- The bytes that an event prints. -/
def Event.printed (colour : Bool) : Event → Text
  | .log _ => []
  | .print _ p => (p.writes colour).flatMap Write.bytes

theorem writeAll_none (ws : List Write) :
    writeAll none ws = ⟨ws.flatMap Write.bytes, none, true⟩ := by
  induction ws with
  | nil => rfl
  | cons w ws ih =>
      rw [writeAll, ih]
      rfl

/-- **An output that takes all writes** gets everything that is to be printed. -/
theorem deliver_none (colour : Bool) (events : List Event) :
    deliver colour none events
      = { records := events.filterMap Event.record?
          out := events.flatMap (Event.printed colour)
          failed := none } := by
  induction events with
  | nil => rfl
  | cons e events ih =>
      cases e with
      | log r =>
          rw [deliver, ih]
          rfl
      | print purpose p =>
          rw [deliver, writeAll_none]
          dsimp only
          rw [if_pos rfl, ih]
          rfl

/-- Without colour a print is one write of its text. -/
theorem Event.printed_plain (purpose : Purpose) (p : Print) :
    (Event.print purpose p).printed false = p.text := List.append_nil _

/-! ## A limit, without colour -/

/-- The text that an event prints. -/
def Event.text? : Event → Option Text
  | .log _ => none
  | .print _ p => some p.text

/-- The texts that some events print. -/
def printedTexts (events : List Event) : List Text := events.filterMap Event.text?

@[simp] theorem printedTexts_log (r : Record) (events : List Event) :
    printedTexts (.log r :: events) = printedTexts events := rfl

@[simp] theorem printedTexts_print (purpose : Purpose) (p : Print) (events : List Event) :
    printedTexts (.print purpose p :: events) = p.text :: printedTexts events := rfl

/-- Everything that the event prints is part of the given thing. -/
def Event.For (purpose : Purpose) : Event → Prop
  | .log _ => True
  | .print q _ => q = purpose

section

variable {purpose : Purpose} {n : Nat} {events : List Event}

theorem deliver_log (colour : Bool) (left : Capacity) (r : Record) (events : List Event) :
    deliver colour left (.log r :: events)
      = { deliver colour left events with
          records := r :: (deliver colour left events).records } := rfl

theorem deliver_print_zero (purpose : Purpose) (p : Print) (events : List Event) :
    deliver false (some 0) (.print purpose p :: events)
      = { out := [], failed := some purpose } := rfl

theorem deliver_print_succ (n : Nat) (purpose : Purpose) (p : Print) (events : List Event) :
    deliver false (some (n + 1)) (.print purpose p :: events)
      = { deliver false (some n) events with
          out := p.text ++ (deliver false (some n) events).out } := by
  show { deliver false (some n) events with
    out := (p.text ++ []) ++ (deliver false (some n) events).out } = _
  rw [List.append_nil]

theorem deliver_print_none (purpose : Purpose) (p : Print) (events : List Event) :
    deliver false none (.print purpose p :: events)
      = { deliver false none events with out := p.text ++ (deliver false none events).out } := by
  show { deliver false none events with
    out := (p.text ++ []) ++ (deliver false none events).out } = _
  rw [List.append_nil]

/-- **An output that takes `n` writes** gets the first `n` printed texts. -/
theorem out_deliver_some (n : Nat) (events : List Event) :
    (deliver false (some n) events).out = ((printedTexts events).take n).flatten := by
  induction events generalizing n with
  | nil => simp [deliver, printedTexts]
  | cons e events ih =>
      cases e with
      | log r =>
          rw [deliver_log, printedTexts_log]
          exact ih n
      | print purpose p =>
          rw [printedTexts_print]
          cases n with
          | zero => rfl
          | succ n =>
              rw [deliver_print_succ, List.take_succ_cons, List.flatten_cons]
              show p.text ++ (deliver false (some n) events).out = _
              rw [ih n]

/-- The first print that is one too many fails. -/
theorem failed_deliver_some (hfor : ∀ e ∈ events, e.For purpose)
    (hn : n < (printedTexts events).length) :
    (deliver false (some n) events).failed = some purpose := by
  induction events generalizing n with
  | nil => cases hn
  | cons e events ih =>
      have hrest : ∀ e ∈ events, e.For purpose := fun k hk => hfor k (List.mem_cons_of_mem e hk)
      cases e with
      | log r =>
          rw [printedTexts_log] at hn
          exact ih hrest hn
      | print q p =>
          rw [printedTexts_print] at hn
          cases n with
          | zero =>
              have hq : q = purpose := hfor (.print q p) List.mem_cons_self
              rw [deliver_print_zero, hq]
          | succ n =>
              rw [deliver_print_succ]
              exact ih hrest (Nat.lt_of_succ_lt_succ hn)

/-- An output that takes as many writes as there are prints takes all. -/
theorem deliver_enough (hn : (printedTexts events).length ≤ n) :
    deliver false (some n) events = deliver false none events := by
  induction events generalizing n with
  | nil => rfl
  | cons e events ih =>
      cases e with
      | log r =>
          rw [printedTexts_log] at hn
          rw [deliver_log, deliver_log, ih hn]
      | print q p =>
          rw [printedTexts_print] at hn
          cases n with
          | zero => exact absurd hn (Nat.not_succ_le_zero _)
          | succ n =>
              rw [deliver_print_succ, deliver_print_none, ih (Nat.le_of_succ_le_succ hn)]

theorem out_deliver_none (events : List Event) :
    (deliver false none events).out = (printedTexts events).flatten := by
  rw [← deliver_enough (Nat.le_refl _), out_deliver_some, List.take_length]

end

/-! ## Closing words -/

/-- A record at the end is logged unless the output failed before, and changes nothing else. -/
theorem deliver_concat_log (colour : Bool) (left : Capacity) (events : List Event) (r : Record) :
    deliver colour left (events ++ [.log r])
      = { deliver colour left events with
          records := (deliver colour left events).records
            ++ if (deliver colour left events).failed = none then [r] else [] } := by
  induction events generalizing left with
  | nil => rfl
  | cons e events ih =>
      cases e with
      | log first =>
          rw [List.cons_append, deliver_log, deliver_log, ih]
          rfl
      | print purpose p =>
          rw [List.cons_append, deliver, deliver]
          dsimp only
          split
          · rw [ih]
          · rfl

end ImportBlock
