import WrapperGen.Command.Manual
import WrapperGen.Data.FirstSeen
/-!
# Completions

Scripts that make a shell complete the words of a call: names of commands first, then options.
-/

namespace WrapperGen.Command

/-- The options of a command. -/
def Entry.flags (e : Entry) : List String := e.spec.options.map optionFlag

/-- All words that may be completed. -/
def completionWords : List String := commandNames ++ firstSeen (entries.flatMap Entry.flags)

namespace Shell

/-- The words between blanks. -/
def spaced (words : List String) : String := " ".intercalate words

/-- The script for a shell. -/
def completionScript (s : Shell) : String :=
  let words := spaced completionWords
  match s with
  | bash => "complete -o default -W \"" ++ words ++ "\" " ++ programName ++ "\n"
  | zsh => "#compdef " ++ programName ++ "\n_arguments '*:word:(" ++ words ++ ")'\n"
  | fish => "complete -c " ++ programName ++ " -a \"" ++ words ++ "\"\n"
  | elvish =>
    "set edit:completion:arg-completer[" ++ programName ++ "] = \x7b|@arguments| put " ++ words ++
      " \x7d\n"
  | powershell =>
    "Register-ArgumentCompleter -Native -CommandName " ++ programName ++ " -ScriptBlock \x7b\n" ++
      "    param($word)\n    -split '" ++ words ++
      "' | Where-Object \x7b $_ -like \"$word*\" \x7d\n\x7d\n"

end Shell

end WrapperGen.Command
