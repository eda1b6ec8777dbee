import ImportBlock.Files.Tree

/-! # Projects

    The root of a project is the nearest directory that holds the project marker.  Whether
    a directory holds it is asked of the tree, at a place: a path that is too long to be
    followed does not end the search. -/

namespace ImportBlock

/-- The file that marks the root of a project. -/
def projectMarker : Text := text "package.json"

/-- The number of directories looked at before the search is given up. -/
def searchDepth : Nat := 64

namespace Tree

/-- The nearest directory at or above a place that holds the marker, if it is among
    the first so many. -/
def nearestProject (t : Tree) : Nat → Place → Option Place
  | 0, _ => none
  | n + 1, dir =>
      if t.hasFile (dir ++ [projectMarker]) then some dir
      else if dir = [] then none
      else nearestProject t n dir.dropLast

/-- The directory in which the search for a path's project starts: the path itself
    if it is a directory, else the one above it. -/
def searchStart (t : Tree) (cwd : Place) (path : Text) : Place :=
  let p := Place.ofPath cwd path
  if t.hasDirectory p then p else p.dropLast

/-- The working directory, if it has not been taken away. -/
def workingDirectory? (t : Tree) (cwd : Place) : Option Place :=
  if t.hasDirectory cwd then some cwd else none

/-- The root of the project that a path belongs to; a relative path belongs to none
    if the working directory was taken away. -/
def projectRoot (t : Tree) (cwd : Place) (path : Text) : Option Place :=
  if Path.isAbsolute path || (t.workingDirectory? cwd).isSome then
    t.nearestProject searchDepth (t.searchStart cwd path)
  else none

/-- The directories searched for settings: the working directory, then the root of
    the path's project if that is another one. -/
def settingsPlaces (t : Tree) (cwd : Place) (path : Text) : List Place :=
  let here := (t.workingDirectory? cwd).toList
  here ++ ((t.projectRoot cwd path).filter fun root => !here.contains root).toList

end Tree

end ImportBlock
