import AmbientTypes.Command.Flags

namespace AmbientTypes.Command

def versionText : String := "fedtypes 0.1.0\n"

def usageLine : Level → String
  | .top => "Usage: fedtypes [OPTIONS] [COMMAND]"
  | .completions => "Usage: fedtypes completions [OPTIONS] <SHELL>"
  | l => "Usage: fedtypes " ++ l.name ++ " [OPTIONS]"

def optionLine (o : Opt) : String :=
  let short := match o.letter? with
    | some c => "-" ++ String.singleton c ++ ", "
    | none => "    "
  "  " ++ short ++ o.shown ++ "\n          " ++ o.about

def commandLines : Level → List String
  | .top => "" :: "Commands:" :: Level.commands.map fun c ↦ "  " ++ c.name ++ "  " ++ c.about
  | _ => []

def helpText (l : Level) : String :=
  String.join
    (([l.about, "", usageLine l] ++ commandLines l ++ ["", "Options:"] ++
      l.options.map optionLine).map (· ++ "\n"))

def completionWords : List String :=
  Level.commands.map (·.name) ++ Level.top.options.flatMap fun o ↦ o.longNames.map ("--" ++ ·)

def completionScript (s : CompletionShell) : String :=
  let words := String.intercalate " " completionWords
  match s with
  | .bash => "complete -W '" ++ words ++ "' fedtypes\n"
  | .zsh => "#compdef fedtypes\ncompadd " ++ words ++ "\n"
  | .fish => "complete -c fedtypes -a '" ++ words ++ "'\n"
  | .elvish =>
    "set edit:completion:arg-completer[fedtypes] = \x7b|@_| put " ++ words ++ " \x7d\n"
  | .powershell =>
    "Register-ArgumentCompleter -Native -CommandName 'fedtypes' -ScriptBlock \x7b '" ++ words ++
      "' -split ' ' \x7d\n"

end AmbientTypes.Command
