import ImportBlock.Text.Basic

/-! # Version information -/

namespace ImportBlock

/-- What a build of the program knows about itself. -/
structure Version where
  version : Text := text "dev"
  gitCommit : Text := text "unknown"
  buildDate : Text := text "unknown"
  /-- The version of the toolchain that built the program. -/
  toolchain : Text := text "unknown"
  platform : Text := text "unknown"
  deriving DecidableEq, Repr

/-- The version information for a reader. -/
def Version.render (v : Version) : Text :=
  text "esio version " ++ v.version ++ text "\nGit commit: " ++ v.gitCommit
    ++ text "\nBuild date: " ++ v.buildDate ++ text "\nGo version: " ++ v.toolchain
    ++ text "\nPlatform: " ++ v.platform

end ImportBlock
