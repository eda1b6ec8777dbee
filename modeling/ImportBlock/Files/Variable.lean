import ImportBlock.Files.Tree

/-! # Variables in paths

    A directory may be named with environment variables: `$name` and `${name}` stand
    for the value of the variable, nothing if it is not set. -/

namespace ImportBlock
namespace Path

open Text

/-- The bytes of a variable's name. -/
def isNameByte (b : UInt8) : Bool :=
  b == 95 || (48 ≤ b && b ≤ 57) || (65 ≤ b && b ≤ 90) || (97 ≤ b && b ≤ 122)

/-- The bytes that are a name of their own. -/
def isSpecialName (b : UInt8) : Bool := (text "*#$@!?-").contains b || (48 ≤ b && b ≤ 57)

/-- The name in braces after an opening brace and the number of bytes that spell it,
    both braces counted.  Braces that hold nothing, or that are not closed, spell the
    empty name. -/
def bracedName (s : Text) : Text × Nat :=
  match s with
  | [] => ([], 1)
  | b :: rest =>
      if isSpecialName b && rest.head? == some braceClose then ([b], 3)
      else match cutFirst (· == braceClose) s with
        | some (name, _) => (name, name.length + 2)
        | none => ([], 1)

/-- The name after a dollar sign and the number of bytes that spell it. -/
def variableName (s : Text) : Text × Nat :=
  match s with
  | [] => ([], 0)
  | b :: rest =>
      if b == braceOpen then bracedName rest
      else if isSpecialName b then ([b], 1)
      else
        let name := s.takeWhile isNameByte
        (name, name.length)

/-- The names after the dollar signs of a path. -/
def variableNames : Text → List Text
  | [] => []
  | b :: s => if b = 36 then (variableName s).1 :: variableNames s else variableNames s

/-- Puts values in place of variables; `skip` bytes of the front belong to the
    variable before.  A dollar sign without a name stays. -/
def expandFrom (value : Text → Text) : Nat → Text → Text
  | _, [] => []
  | skip + 1, _ :: s => expandFrom value skip s
  | 0, b :: s =>
      if b = 36 ∧ s ≠ [] then
        let (name, size) := variableName s
        (if name ≠ [] then value name else if size = 0 then [b] else []) ++ expandFrom value size s
      else b :: expandFrom value 0 s

/-- The value of a variable, empty if it is not set. -/
def variableValue (environment : List (Text × Text)) (name : Text) : Text :=
  ((environment.find? fun e => e.1 == name).map Prod.snd).getD []

/-- The variable of the user's own directory, as a path starts with it. -/
def homeVariable : Text := text "$HOME"

/-- Puts values in place of the variables of a path.  The user's own directory at the
    front comes first, so that variables in it are replaced too. -/
def expand (environment : List (Text × Text)) (p : Text) : Text :=
  let value := variableValue environment
  let p :=
    if p = homeVariable ∨ (homeVariable ++ [slash]).isPrefixOf p then
      value (homeVariable.drop 1) ++ p.drop homeVariable.length
    else p
  expandFrom value 0 p

end Path
end ImportBlock
