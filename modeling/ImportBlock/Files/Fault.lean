import ImportBlock.Text.Basic

/-! # Faults of paths

    Why a path could not be used, and the words for it. -/

namespace ImportBlock

/-- Why a path does not lead to what is asked for. -/
inductive Fault where
  /-- There is nothing at the path, or nothing at a directory on the way. -/
  | missing
  /-- A file stands where the path needs a directory. -/
  | notDirectory
  /-- A directory stands where a file is needed. -/
  | isDirectory
  /-- The path holds a byte that no path may hold. -/
  | invalid
  /-- The path, or a name in it, is longer than any may be. -/
  | tooLong
  /-- The file is there, but may not be used, or fails when it is used. -/
  | refused (reason : Text)
  deriving DecidableEq, Repr

/-- A fault in words. -/
def Fault.message : Fault → Text
  | .missing => text "no such file or directory"
  | .notDirectory => text "not a directory"
  | .isDirectory => text "is a directory"
  | .invalid => text "invalid argument"
  | .tooLong => text "file name too long"
  | .refused reason => reason

/-- What was being done with a path when it failed. -/
inductive Attempt where
  /-- Asking what the path leads to. -/
  | stat
  /-- Asking what stands at the path itself. -/
  | lstat
  /-- Opening a file. -/
  | opening
  /-- Reading a file. -/
  | read
  /-- Writing to a file. -/
  | write
  /-- Listing a directory. -/
  | list
  deriving DecidableEq, Repr

/-- The name of an attempt. -/
def Attempt.name : Attempt → Text
  | .stat => text "stat"
  | .lstat => text "lstat"
  | .opening => text "open"
  | .read => text "read"
  | .write => text "write"
  | .list => text "readdirent"

/-- A path that could not be used. -/
structure PathError where
  attempt : Attempt
  path : Text
  fault : Fault
  deriving DecidableEq, Repr

/-- A path error in words. -/
def PathError.message (e : PathError) : Text :=
  e.attempt.name ++ text " " ++ e.path ++ text ": " ++ e.fault.message

/-- Why a file cannot be written. -/
inductive WriteFault where
  /-- It cannot be opened, and keeps its content. -/
  | closed (fault : Fault)
  /-- It is emptied, and then takes only so many bytes of the new content. -/
  | cutShort (taken : Nat) (fault : Fault)
  deriving DecidableEq, Repr

/-- The error of a failed writing to a path. -/
def WriteFault.error (path : Text) : WriteFault → PathError
  | .closed fault => ⟨.opening, path, fault⟩
  | .cutShort _ fault => ⟨.write, path, fault⟩

/-- What a file holds after a failed writing; none if it keeps what it held. -/
def WriteFault.left? (content : Text) : WriteFault → Option Text
  | .closed _ => none
  | .cutShort taken _ => some (content.take taken)

end ImportBlock
