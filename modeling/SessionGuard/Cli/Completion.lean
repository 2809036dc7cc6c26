import SessionGuard.Cli.Grammar

/-!
# Completion scripts

A script that makes a shell complete the first word after the name of the program.
-/

namespace SessionGuard.Cli

/-- The words that may follow the name of the program. -/
def firstWords : List String := Verb.root.verbs.map (·.1)

/-- The script for a shell. -/
def Shell.script (shell : Shell) : String :=
  let words := " ".intercalate firstWords
  let quoted := ", ".intercalate (firstWords.map fun w => "'" ++ w ++ "'")
  match shell with
  | .bash => "complete -W \"" ++ words ++ "\" sessiongate\n"
  | .zsh => "compctl -k \"(" ++ words ++ ")\" sessiongate\n"
  | .fish => "complete -c sessiongate -f -a \"" ++ words ++ "\"\n"
  | .elvish =>
    "set edit:completion:arg-completer[sessiongate] = \x7b|@words| put " ++ words ++ " \x7d\n"
  | .powershell =>
    "Register-ArgumentCompleter -Native -CommandName sessiongate -ScriptBlock \x7b @("
      ++ quoted ++ ") \x7d\n"

end SessionGuard.Cli
