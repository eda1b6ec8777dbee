import ImportBlock.Diff.Patch
import ImportBlock.Trace

/-! # Output

    What a run has to say is a list of events: log records and prints.  A print is
    written to an output that may stop taking writes; the first print that cannot be
    written ends the delivery.  A coloured print is framed by two escape codes, and
    nobody notices when one of those is lost. -/

namespace ImportBlock

/-- How a print is coloured. -/
inductive Shade where
  | plain
  | bold
  | red
  | green
  deriving DecidableEq, Repr

/-- The terminal's code for a colour. -/
def Shade.code : Shade → Option Nat
  | .plain => none
  | .bold => some 1
  | .red => some 31
  | .green => some 32

/-- A text to be printed. -/
structure Print where
  shade : Shade := .plain
  text : Text
  deriving DecidableEq, Repr

/-- One write to the output.  Only the loss of a required write is noticed. -/
structure Write where
  bytes : Text
  required : Bool := true
  deriving DecidableEq, Repr

/-- The escape sequence of a terminal code. -/
def escapeCode (n : Nat) : Text := [27, 91] ++ Text.ofNat n ++ [109]

/-- The writes of a print. -/
def Print.writes (colour : Bool) (p : Print) : List Write :=
  match colour, p.shade.code with
  | true, some n => [⟨escapeCode n, false⟩, ⟨p.text, true⟩, ⟨escapeCode 0, false⟩]
  | _, _ => [⟨p.text, true⟩]

/-- The print of a patch line. -/
def Diff.PatchLine.print (l : Diff.PatchLine) : Print :=
  let shade : Shade := match l with
    | .header _ => .bold
    | .marker _ => .bold
    | .line ⟨.delete, _⟩ => .red
    | .line ⟨.insert, _⟩ => .green
    | .line ⟨.equal, _⟩ => .plain
  ⟨shade, l.render⟩

/-- What a print is part of. -/
inductive Purpose where
  | file
  | diff
  deriving DecidableEq, Repr

/-- Something a run has to say. -/
inductive Event where
  | log (r : Record)
  | print (purpose : Purpose) (p : Print)
  deriving DecidableEq, Repr

/-- A record of the run itself. -/
def Event.tell (level : Level) (message : Text) (fields : List (String × Record.Value)) : Event :=
  .log ⟨.main, level, message, fields⟩

/-- The writes that an output still takes; without a number it takes all. -/
abbrev Capacity := Option Nat

/-- The outcome of some writes. -/
structure Written where
  out : Text
  left : Capacity
  complete : Bool
  deriving DecidableEq, Repr

/-- Makes the writes one after the other, up to the first required one that fails. -/
def writeAll : Capacity → List Write → Written
  | left, [] => ⟨[], left, true⟩
  | some 0, w :: rest => if w.required then ⟨[], some 0, false⟩ else writeAll (some 0) rest
  | some (n + 1), w :: rest =>
      let r := writeAll (some n) rest
      { r with out := w.bytes ++ r.out }
  | none, w :: rest =>
      let r := writeAll none rest
      { r with out := w.bytes ++ r.out }

/-- The outcome of a list of events. -/
structure Delivery where
  records : List Record := []
  out : Text := []
  /-- What the print was part of that could not be written. -/
  failed : Option Purpose := none
  deriving DecidableEq, Repr

/-- Says the events one after the other, up to the first print that fails. -/
def deliver (colour : Bool) : Capacity → List Event → Delivery
  | _, [] => {}
  | left, .log r :: rest =>
      let d := deliver colour left rest
      { d with records := r :: d.records }
  | left, .print purpose p :: rest =>
      let w := writeAll left (p.writes colour)
      if w.complete then
        let d := deliver colour w.left rest
        { d with out := w.out ++ d.out }
      else { out := w.out, failed := some purpose }

end ImportBlock
