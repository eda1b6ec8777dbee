import ImportBlock.Files.Fault
import ImportBlock.Output

/-! # Failures of a run

    Each way in which a run may fail is a constructor; `message` is the one place
    that puts failures into words. -/

namespace ImportBlock

/-- Why a run, or the handling of one file, failed. -/
inductive Failure where
  /-- So many files are not in order. -/
  | filesChanged (count : Nat)
  /-- So many files could not be handled. -/
  | filesFailed (count : Nat)
  /-- Standard input has no place to be changed in. -/
  | inPlaceStdin
  /-- More than one way of output was asked for. -/
  | conflictingModes
  /-- The run was called off. -/
  | cancelled
  | checkPath (e : PathError)
  | findFiles (e : PathError)
  | unreachableFile (e : PathError)
  | unreadableFile (e : PathError)
  | unwritableFile (e : PathError)
  | unreadableInput (reason : Text)
  | write (purpose : Purpose) (reason : Text)
  deriving DecidableEq, Repr

namespace Failure

/-- A failure in words. -/
def message : Failure → Text
  | .filesChanged n =>
      text "files are not optimized: " ++ Text.ofNat n ++ text " files would be rewritten"
  | .filesFailed n =>
      text "files failed to process: " ++ Text.ofNat n ++ text " files failed to process"
  | .inPlaceStdin =>
      text "invalid output mode: --in-place cannot be used when reading standard input"
  | .conflictingModes =>
      text "invalid output mode: --in-place, --diff and --check are mutually exclusive"
  | .cancelled => text "context canceled"
  | .checkPath e => text "failed to check path: " ++ e.message
  | .findFiles e => text "failed to find source files in directory: " ++ e.message
  | .unreachableFile e => text "failed to stat file: " ++ e.message
  | .unreadableFile e => text "failed to read file: " ++ e.message
  | .unwritableFile e => text "failed to write file: " ++ e.message
  | .unreadableInput reason => text "failed to read standard input: " ++ reason
  | .write .file reason => text "failed to write file: " ++ reason
  | .write .diff reason => text "failed to write diff: " ++ reason

end Failure

end ImportBlock
