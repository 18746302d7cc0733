/-
  SmaliSieve.Cli.Completion

  Completion scripts for shells, made from the table of parameters.
-/

import SmaliSieve.Cli.Parameter
import SmaliSieve.Report.Style

namespace SmaliSieve.Cli.Completion

open Report (unlines)

/-- The lines, each moved in by `width` spaces. -/
def indent (width : Nat) (lines : List String) : List String :=
  lines.map (String.ofList (List.replicate width ' ') ++ ·)

/-- `text` with each character of `marks` written as `instead` says. -/
def substitute (marks : List (Char × String)) (text : String) : String :=
  String.join (text.toList.map fun c => (marks.lookup c).getD (String.singleton c))

/-- The names of all parameters, short ones first. -/
def allNames : List String :=
  (parameters.filterMap fun parameter =>
      parameter.short.map fun c => String.ofList ['-', c])
    ++ parameters.map ("--" ++ ·.long)

/-! ## Bash -/

/-- How the value of a parameter is completed. -/
def bashValue (parameter : Parameter) : List String :=
  let words := " ".intercalate (parameter.words.map (·.1))
  let line :=
    if words.isEmpty then "COMPREPLY=($(compgen -f \"$cur\"))"
    else s!"COMPREPLY=($(compgen -W \"{words}\" -- \"$cur\"))"
  parameter.names.flatMap fun name => [name ++ ")"] ++ indent 4 [line, "return 0", ";;"]

/-- The script for bash. -/
def bash : List String :=
  ["_smalisift() \x7b"]
    ++ indent 4
      ["local cur prev opts", "COMPREPLY=()", "cur=\"$2\"", "prev=\"$3\"",
       "opts=\"" ++ " ".intercalate allNames ++ " [PATH]\"",
       "if [[ $cur == -* || $COMP_CWORD -eq 1 ]] ; then",
       "    COMPREPLY=( $(compgen -W \"$opts\" -- \"$cur\") )",
       "    return 0",
       "fi",
       "case \"$prev\" in"]
    ++ indent 8 ((parameters.filter (·.takesValue)).flatMap bashValue)
    ++ indent 4 ["esac", "COMPREPLY=( $(compgen -W \"$opts\" -- \"$cur\") )", "return 0"]
    ++ ["\x7d", "", "complete -F _smalisift -o bashdefault -o default smalisift"]

/-! ## Elvish -/

/-- The candidates for a parameter. -/
def elvishCandidates (parameter : Parameter) : List String :=
  let quoted := substitute [('\x27', "\x27\x27")] parameter.about
  parameter.names.map fun name => s!"cand {name} '{quoted}'"

/-- The script for elvish. -/
def elvish : List String :=
  ["use builtin;", "use str;", "",
   "set edit:completion:arg-completer[smalisift] = \x7b|@words|"]
    ++ indent 4
      ["fn spaces \x7b|n|", "    builtin:repeat $n ' ' | str:join ''", "\x7d",
       "fn cand \x7b|text desc|",
       "    edit:complex-candidate $text &display=$text' '(spaces (- 14 (wcswidth $text)))$desc",
       "\x7d", "var command = 'smalisift'", "for word $words[1..-1] \x7b",
       "    if (str:has-prefix $word '-') \x7b", "        break", "    \x7d",
       "    set command = $command';'$word", "\x7d", "var completions = [",
       "    &'smalisift'= \x7b"]
    ++ indent 12 (parameters.flatMap elvishCandidates)
    ++ indent 4 ["    \x7d", "]", "$completions[$command]"]
    ++ ["\x7d"]

/-! ## Fish -/

/-- The line on a parameter. -/
def fishLine (parameter : Parameter) : String :=
  let quoted := substitute [('\x27', "\\\x27"), ('\\', "\\\\")] parameter.about
  let short := match parameter.short with
    | some letter => s!" -s {letter}"
    | none => ""
  let words := parameter.words.map fun word =>
    if word.2.isEmpty then s!"{word.1}\\t''" else s!"{word.1}\\t'{word.2}'"
  let value :=
    if !parameter.takesValue then ""
    else if !words.isEmpty then " -r -f -a \"" ++ "\n".intercalate words ++ "\""
    else if parameter.kind = .path then " -r -F"
    else " -r"
  s!"complete -c smalisift{short} -l {parameter.long} -d '{quoted}'{value}"

/-- The script for fish: parameters with a value come first. -/
def fish : List String :=
  (parameters.filter (·.takesValue)).map fishLine
    ++ (parameters.filter (!·.takesValue)).map fishLine

/-! ## PowerShell -/

/-- The results for a parameter. -/
def powershellResults (parameter : Parameter) : List String :=
  let quoted := substitute [('\x27', "\x27\x27")] parameter.about
  parameter.names.map fun name =>
    let shown := if name.toList.any Char.isUpper then name ++ " " else name
    s!"[CompletionResult]::new('{name}', '{shown}', [CompletionResultType]::ParameterName, '{quoted}')"

/-- The script for PowerShell. -/
def powershell : List String :=
  ["", "using namespace System.Management.Automation",
   "using namespace System.Management.Automation.Language", "",
   "Register-ArgumentCompleter -Native -CommandName 'smalisift' -ScriptBlock \x7b"]
    ++ indent 4
      ["param($wordToComplete, $commandAst, $cursorPosition)", "",
       "$commandElements = $commandAst.CommandElements", "$command = @(", "    'smalisift'",
       "    for ($i = 1; $i -lt $commandElements.Count; $i++) \x7b",
       "        $element = $commandElements[$i]",
       "        if ($element -isnot [StringConstantExpressionAst] -or",
       "            $element.StringConstantType -ne [StringConstantType]::BareWord -or",
       "            $element.Value.StartsWith('-') -or",
       "            $element.Value -eq $wordToComplete) \x7b", "            break",
       "    \x7d", "    $element.Value", "\x7d) -join ';'", "",
       "$completions = @(switch ($command) \x7b", "    'smalisift' \x7b"]
    ++ indent 12 (parameters.flatMap powershellResults ++ ["break"])
    ++ indent 4
      ["    \x7d", "\x7d)", "",
       "$completions.Where\x7b $_.CompletionText -like \"$wordToComplete*\" \x7d |",
       "    Sort-Object -Property ListItemText"]
    ++ ["\x7d"]

/-! ## Zsh -/

/-- The lines on a parameter. -/
def zshLines (parameter : Parameter) : List String :=
  let escaped := substitute
    [('\x27', "\x27\\\x27\x27"), ('[', "\\["), (']', "\\]"), (':', "\\:")] parameter.about
  let words := parameter.words
  let values :=
    if words.isEmpty then if parameter.kind = .path then "_files" else "_default"
    else if words.all (·.2.isEmpty) then "(" ++ " ".intercalate (words.map (·.1)) ++ ")"
    else
      let word (entry : String × String) : String :=
        entry.1 ++ "\\:\"" ++ substitute [(':', "\\:")] entry.2 ++ "\""
      "((" ++ "\n".intercalate (words.map word) ++ "))"
  let tail := if parameter.takesValue then s!":{parameter.valueName}:{values}" else ""
  let mark (sign : String) : String := if parameter.takesValue then sign else ""
  let line (name : String) : String := s!"'{name}[{escaped}]{tail}' \\"
  (parameter.short.toList.map fun letter => line (String.ofList ['-', letter] ++ mark "+"))
    ++ [line ("--" ++ parameter.long ++ mark "=")]

/-- The script for zsh. -/
def zsh : List String :=
  ["#compdef smalisift", "", "autoload -U is-at-least", "", "_smalisift() \x7b",
   "    typeset -A opt_args", "    typeset -a _arguments_options", "    local ret=1", "",
   "    if is-at-least 5.2; then", "        _arguments_options=(-s -S -C)", "    else",
   "        _arguments_options=(-s -C)", "    fi", "",
   "    local context curcontext=\"$curcontext\" state line",
   "    _arguments \"$\x7b_arguments_options[@]\x7d\" : \\"]
    ++ ((parameters.filter (·.takesValue)).flatMap zshLines)
    ++ ((parameters.filter (!·.takesValue)).flatMap zshLines)
    ++ [s!"'::path -- {Parameter.pathAbout}:_files' \\", "&& ret=0", "\x7d", "",
        "(( $+functions[_smalisift_commands] )) ||", "_smalisift_commands() \x7b",
        "    local commands; commands=()",
        "    _describe -t commands 'smalisift commands' commands \"$@\"", "\x7d", "",
        "if [ \"$funcstack[1]\" = \"_smalisift\" ]; then", "    _smalisift \"$@\"", "else",
        "    compdef _smalisift smalisift", "fi"]

/-- The script for a shell, by its name. -/
def script (shell : String) : String :=
  match [("bash", bash), ("elvish", elvish), ("fish", fish), ("powershell", powershell),
    ("zsh", zsh)].lookup shell with
  | some lines => unlines lines
  | none => ""

end SmaliSieve.Cli.Completion
