import ImportBlock.Text.Basic

/-! # Paths

    Paths are texts with slashes between names.  The functions here look at the
    text alone; what a path leads to is a matter of the tree. -/

namespace ImportBlock
namespace Path

open Text

/-- Does the path start at the top directory? -/
def isAbsolute (p : Text) : Bool := p.head? == some slash

/-- The name that stands for the directory itself. -/
def here : Text := [dot]

/-- The name that stands for the directory above. -/
def above : Text := [dot, dot]

/-- Follows names from a place, where `..` goes back to the name before.  Above the
    start of a relative path `..` is kept, above the top directory it is nothing. -/
def follow (absolute : Bool) (place : List Text) : List Text → List Text
  | [] => place
  | name :: rest =>
      if name = [] ∨ name = here then follow absolute place rest
      else if name = above then
        match place.getLast? with
        | none => follow absolute (if absolute then [] else [above]) rest
        | some last =>
            if last = above then follow absolute (place ++ [above]) rest
            else follow absolute place.dropLast rest
      else follow absolute (place ++ [name]) rest

/-- The shortest path that means the same as far as its text tells. -/
def clean (p : Text) : Text :=
  let names := follow (isAbsolute p) [] (split slash p)
  if isAbsolute p then slash :: join [slash] names
  else if names = [] then here
  else join [slash] names

/-- The path of a name below another path. -/
def below (p name : Text) : Text := clean (if p = [] then name else p ++ [slash] ++ name)

/-- What follows the last slash of a path. -/
def lastName (p : Text) : Text :=
  match cutLast (· == slash) p with
  | some (_, name) => name
  | none => p

/-- The last name of a path. -/
def base (p : Text) : Text :=
  if p = [] then here
  else
    let p := dropEndWhile (· == slash) p
    if p = [] then [slash] else lastName p

/-- The end of a path's last name from its last dot on. -/
def extension (p : Text) : Text :=
  match cutLast (· == dot) (lastName p) with
  | some (_, ext) => dot :: ext
  | none => []

end Path
end ImportBlock
