import ImportBlock.CommandLine.Help

/-! # Completion in a shell

    A shell completes a command line with the help of a script.  The word `completion`
    as the first argument asks for such a script instead of a run, and the argument
    after it names the shell. -/

namespace ImportBlock

open Text

/-- A shell that has a script. -/
inductive Shell where
  | bash
  | fish
  | powershell
  | zsh
  deriving DecidableEq, Repr

namespace Shell

/-- All shells, by name. -/
def all : List Shell := [.bash, .fish, .powershell, .zsh]

/-- The name of a shell. -/
def name : Shell → Text
  | .bash => text "bash"
  | .fish => text "fish"
  | .powershell => text "powershell"
  | .zsh => text "zsh"

/-- The shell of a name. -/
def ofName? (n : Text) : Option Shell := all.find? fun s => s.name == n

/-- The script of a shell, for a reader. -/
def description : Shell → Text
  | .bash => unlines <| [
      "Generate the autocompletion script for the bash shell.",
      "",
      "This script depends on the 'bash-completion' package.",
      "If it is not installed already, you can install it via your OS's package manager.",
      "",
      "To load completions in your current shell session:",
      "",
      "\tsource <(esio completion bash)",
      "",
      "To load completions for every new session, execute once:",
      "",
      "#### Linux:",
      "",
      "\tesio completion bash > /etc/bash_completion.d/esio",
      "",
      "#### macOS:",
      "",
      "\tesio completion bash > $(brew --prefix)/etc/bash_completion.d/esio",
      "",
      "You will need to start a new shell for this setup to take effect."].map text
  | .fish => unlines <| [
      "Generate the autocompletion script for the fish shell.",
      "",
      "To load completions in your current shell session:",
      "",
      "\tesio completion fish | source",
      "",
      "To load completions for every new session, execute once:",
      "",
      "\tesio completion fish > ~/.config/fish/completions/esio.fish",
      "",
      "You will need to start a new shell for this setup to take effect."].map text
  | .powershell => unlines <| [
      "Generate the autocompletion script for powershell.",
      "",
      "To load completions in your current shell session:",
      "",
      "\tesio completion powershell | Out-String | Invoke-Expression",
      "",
      "To load completions for every new session, add the output of the above command",
      "to your powershell profile."].map text
  | .zsh => unlines <| [
      "Generate the autocompletion script for the zsh shell.",
      "",
      "If shell completion is not already enabled in your environment you will need",
      "to enable it.  You can execute the following once:",
      "",
      "\techo \"autoload -U compinit; compinit\" >> ~/.zshrc",
      "",
      "To load completions in your current shell session:",
      "",
      "\tsource <(esio completion zsh)",
      "",
      "To load completions for every new session, execute once:",
      "",
      "#### Linux:",
      "",
      "\tesio completion zsh > \"$\x7bfpath[1]\x7d/_esio\"",
      "",
      "#### macOS:",
      "",
      "\tesio completion zsh > $(brew --prefix)/share/zsh/site-functions/_esio",
      "",
      "You will need to start a new shell for this setup to take effect."].map text

/-- What a shell's script is, in short. -/
def summary (s : Shell) : Text := text "Generate the autocompletion script for " ++ s.name

/-- The switch that leaves descriptions out of a script. -/
def plainFlag : Flag :=
  ⟨text "no-descriptions", .switch, text "disable completion descriptions", none⟩

/-- The flags that a script may be asked for with. -/
def flags (s : Shell) : List Flag := [Command.helpFlag s.name, plainFlag]

/-- The words by which a shell's script is asked for. -/
def path (s : Shell) : Text := text "esio completion " ++ s.name

/-- The help on a shell's script. -/
def help (s : Shell) : Text :=
  let usage := if s = .bash then s.path else s.path ++ text " [flags]"
  s.description ++ text "\n\nUsage:\n  " ++ usage ++ text "\n\nFlags:\n" ++ Command.flagLines s.flags
    ++ [newline]

end Shell

namespace Completion

/-- The word that asks for a script. -/
def word : Text := text "completion"

/-- The flags that may stand beside the word alone. -/
def flags : List Flag := [Command.helpFlag word]

/-- The help on scripts. -/
def help : Text :=
  let shells := Command.columns (text "  ") (Shell.all.map fun s => (text "  " ++ s.name, s.summary))
  unlines (["Generate the autocompletion script for esio for the specified shell.",
    "See each sub-command's help for details on how to use the generated script.",
    "", "Usage:", "  esio completion [command]", "", "Available Commands:", ""].map text)
    ++ shells ++ text "\n\nFlags:\n" ++ Command.flagLines flags
    ++ text "\n\nUse \"esio completion [command] --help\" for more information about a command.\n"

end Completion

/-! ## What is asked for -/

/-- What a command line asks for. -/
inductive Request where
  /-- A run. -/
  | run
  /-- To be told about scripts. -/
  | completion
  /-- A script. -/
  | script (s : Shell)
  deriving DecidableEq, Repr

namespace Request

/-- Is the argument a flag that takes the next argument as its value?  A flag that is not
    known counts as one. -/
def takesNext (known : List Flag) (arg : Text) : Bool :=
  let isSwitch (f : Flag) : Bool := f.kind == .switch
  !arg.contains 61 &&
    match arg with
    | 45 :: 45 :: name => !known.any fun f => isSwitch f && f.name == name
    | [45, letter] => !known.any fun f => isSwitch f && f.letter == some letter
    | _ => false

/-- The arguments that are no flags, before the flags are read.  A flag that takes the
    last argument ends them. -/
def operands (known : List Flag) : List Text → List Text
  | [] => []
  | arg :: rest =>
      if arg = text "--" then []
      else if takesNext known arg then
        match rest with
        | _ :: next :: rest => operands known (next :: rest)
        | _ => []
      else if arg ≠ [] ∧ arg.head? ≠ some 45 then arg :: operands known rest
      else operands known rest

/-- The arguments without the first one that is the given operand. -/
def without (known : List Flag) (operand : Text) : List Text → List Text
  | [] => []
  | arg :: rest =>
      if arg = text "--" then arg :: rest
      else if takesNext known arg then
        match rest with
        | value :: rest => arg :: value :: without known operand rest
        | [] => [arg]
      else if arg = operand then rest
      else arg :: without known operand rest

/-- The flags that are known while the request is looked for: the switch for help comes
    later. -/
def earlyFlags : List Flag := Command.flags.filter fun f => f.name != text "help"

/-- What a command line asks for, and the arguments that are left. -/
def ofArgs (args : List Text) : Request × List Text :=
  if (operands earlyFlags args).head? = some Completion.word then
    let args := without earlyFlags Completion.word args
    match (operands [] args).head?.bind Shell.ofName? with
    | some s => (.script s, without [] s.name args)
    | none => (.completion, args)
  else (.run, args)

end Request

end ImportBlock
