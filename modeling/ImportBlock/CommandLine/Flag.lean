import ImportBlock.Settings.Value
import ImportBlock.Text.Quoted

/-! # Flags

    A command line is a list of flags and arguments in any order.  A switch takes a
    value only after `=`, any other flag takes one after `=` or as the next
    argument; two dashes end the flags. -/

namespace ImportBlock

/-- What a flag takes. -/
inductive FlagKind where
  | switch
  | integer
  | text
  deriving DecidableEq, Repr

/-- A flag of the command line. -/
structure Flag where
  name : Text
  kind : FlagKind
  /-- What the flag is for. -/
  usage : Text
  /-- A single letter that also stands for the flag. -/
  letter : Option UInt8 := none
  deriving DecidableEq, Repr

/-- Why a command line cannot be read. -/
inductive FlagError where
  | badSpelling (arg : Text)
  | unknown (name : Text)
  | unknownLetter (letter : UInt8) (letters : Text)
  | missingValue (flag : Flag)
  | invalidValue (flag : Flag) (value : Text) (reason : Text)
  deriving DecidableEq, Repr

namespace Flag

/-- The flag as a reader writes it. -/
def label (f : Flag) : Text :=
  match f.letter with
  | some c => text "-" ++ [c] ++ text ", --" ++ f.name
  | none => text "--" ++ f.name

/-- A rejected spelling in words. -/
def spellingError (reader value reason : Text) : Text :=
  text "strconv." ++ reader ++ text ": parsing " ++ Text.quoted value ++ text ": " ++ reason

/-- The value of a flag from its spelling. -/
def read (f : Flag) (value : Text) : Except FlagError Value :=
  match f.kind with
  | .text => .ok (.text value)
  | .switch =>
      match Text.readBool? value with
      | some b => .ok (.bool b)
      | none =>
          .error (.invalidValue f value
            (spellingError (text "ParseBool") value (text "invalid syntax")))
  | .integer =>
      match Text.readInt value with
      | .ok n => .ok (.int n)
      | .error .malformed =>
          .error (.invalidValue f value
            (spellingError (text "ParseInt") value (text "invalid syntax")))
      | .error .outOfRange =>
          .error (.invalidValue f value
            (spellingError (text "ParseInt") value (text "value out of range")))

end Flag

/-- A letter in single quotes.  Of a letter beyond ASCII only the first byte of its
    encoding is shown, as the character of that number. -/
def quoteLetter (b : UInt8) : Text :=
  let shown := ((Text.ofCodePoint b.toNat).headD b).toNat
  let inner :=
    if shown = 39 ∨ shown = 92 then 92 :: Text.ofCodePoint shown
    else if Text.isPrintable shown then Text.ofCodePoint shown
    else Text.escape 0x80 shown
  [39] ++ inner ++ [39]

/-- A command line error in words. -/
def FlagError.message : FlagError → Text
  | .badSpelling arg => text "bad flag syntax: " ++ arg
  | .unknown name => text "unknown flag: --" ++ name
  | .unknownLetter c letters =>
      text "unknown shorthand flag: " ++ quoteLetter c ++ text " in -" ++ letters
  | .missingValue f => text "flag needs an argument: --" ++ f.name
  | .invalidValue f value reason =>
      text "invalid argument " ++ Text.quoted value ++ text " for " ++ Text.quoted f.label
        ++ text " flag: " ++ reason

/-- A command line that has been read. -/
structure Arguments where
  /-- The flags that were given, the last one first. -/
  flags : List (Text × Value) := []
  /-- The arguments that are no flags. -/
  operands : List Text := []

namespace Arguments

/-- Adds a flag. -/
def set (a : Arguments) (f : Flag) (value : Text) : Except FlagError Arguments :=
  (f.read value).map fun v => { a with flags := (f.name, v) :: a.flags }

/-- Reads an argument `--name` or `--name=value`; tells whether it took the next
    argument as its value. -/
def readLong (known : List Flag) (a : Arguments) (arg : Text) (next : Option Text) :
    Except FlagError (Arguments × Bool) := do
  let name := arg.drop 2
  if name = [] ∨ name.head? = some 45 ∨ name.head? = some 61 then throw (.badSpelling arg)
  let (name, value) := match Text.cutFirst (· == 61) name with
    | some (l, r) => (l, some r)
    | none => (name, none)
  match known.find? fun f => f.name == name with
  | none => throw (.unknown name)
  | some f =>
      match value with
      | some v => return (← a.set f v, false)
      | none =>
          if f.kind = .switch then return (← a.set f (text "true"), false)
          else match next with
            | some v => return (← a.set f v, true)
            | none => throw (.missingValue f)

/-- Letters that start like this belong to a test run and are passed over. -/
def testLetters : Text := text "test."

/-- Reads the letters after one dash; tells whether the last one took the next
    argument as its value. -/
def readLetters (known : List Flag) (next : Option Text) (a : Arguments) :
    Text → Except FlagError (Arguments × Bool)
  | [] => .ok (a, false)
  | c :: rest =>
      if testLetters.isPrefixOf (c :: rest) then .ok (a, false)
      else match known.find? fun f => f.letter == some c with
      | none => .error (.unknownLetter c (c :: rest))
      | some f =>
          match rest with
          | 61 :: b :: value => (a.set f (b :: value)).map fun a => (a, false)
          | _ =>
              if f.kind = .switch then do readLetters known next (← a.set f (text "true")) rest
              else if rest ≠ [] then (a.set f rest).map fun a => (a, false)
              else match next with
                | some v => (a.set f v).map fun a => (a, true)
                | none => .error (.missingValue f)

/-- Reads a command line; `skip` tells whether the next argument was already taken. -/
def readFrom (known : List Flag) (skip : Bool) (a : Arguments) :
    List Text → Except FlagError Arguments
  | [] => .ok a
  | arg :: rest =>
      if skip then readFrom known false a rest
      else match arg with
        | 45 :: 45 :: name =>
            if name = [] then .ok { a with operands := a.operands ++ rest }
            else do
              let (a, took) ← readLong known a arg rest.head?
              readFrom known took a rest
        | 45 :: c :: letters => do
            let (a, took) ← readLetters known rest.head? a (c :: letters)
            readFrom known took a rest
        | _ => readFrom known false { a with operands := a.operands ++ [arg] } rest

/-- Reads a command line. -/
def read (known : List Flag) (args : List Text) : Except FlagError Arguments :=
  readFrom known false {} args

/-- The last value given for a flag. -/
def value? (a : Arguments) (name : Text) : Option Value := Value.lookup a.flags name

/-- Is the switch on? -/
def isOn (a : Arguments) (name : Text) : Bool :=
  match a.value? name with
  | some (.bool b) => b
  | _ => false

/-- The text given for a flag, empty if there is none. -/
def textOf (a : Arguments) (name : Text) : Text :=
  match a.value? name with
  | some (.text t) => t
  | _ => []

end Arguments

end ImportBlock
