import GrammarHeaders.CommandLine.Commands

namespace GrammarHeaders.CommandLine

def summary : String → String
  | "generate" => "Run the full pipeline: root headers, grammar headers, bindings"
  | "header" => "Generate the header for a single grammar"
  | "annotate" => "Add the export macro to headers in place"
  | "patch-bindings" => "Fix pointer casts in generated C# bindings"
  | "completions" => "Generate shell completions"
  | _ => ""

def purpose : String → String
  | "verbose" => "Enable verbose output"
  | "quiet" => "Only print warnings and errors"
  | "no-color" => "Disable colored output"
  | "root" => "Path to the tree-sitter repository"
  | "grammar" => "Path to a grammar repository"
  | "bindings-out" => "Where the binding generator writes C# sources"
  | "headers-out" => "Where generated and annotated headers are written"
  | "smoke-test-out" => "Where to write a Program.cs that exercises the bindings"
  | "jobs" => "Number of grammar modules processed in parallel"
  | "allow-name-mismatch" => "Keep going when a factory is not named after its repository"
  | "generator" => "Binding generator program (overrides the config file)"
  | "prefix" => "Prefix of the functions to export"
  | _ => ""

def ValueKind.placeholder : ValueKind → String
  | text => "<TEXT>"
  | path => "<PATH>"
  | count => "<N>"
  | oneOf words => "<" ++ "|".intercalate words ++ ">"

def OptionSpec.form (o : OptionSpec) : String :=
  let letter := match o.letter with
    | some c => String.ofList ['-', c, ',', ' ']
    | none => "    "
  let value := match o.value with
    | some kind => " " ++ kind.placeholder
    | none => ""
  letter ++ "--" ++ o.name ++ value

def columns (left right : String) : String :=
  let gap := String.ofList (List.replicate (32 - left.length) ' ')
  "  " ++ left ++ gap ++ " " ++ right ++ "\n"

def optionLines (options : List OptionSpec) : String :=
  String.join (options.map fun o => columns o.form (purpose o.name))

def Spec.ownOptions (s : Spec) : List OptionSpec :=
  s.options.filter fun o => !sharedOptions.contains o

def Spec.operandForm (s : Spec) : String :=
  match s.operands with
  | none => ""
  | some (kind, many) => " " ++ kind.placeholder ++ if many then "..." else ""

def usageLine : String := "Usage: tsheader [OPTIONS] <COMMAND>"

def manual : String :=
  "Exportable C headers and patched C# bindings for tree-sitter grammars\n\n" ++ usageLine ++ "\n\n" ++
    "Commands:\n" ++ String.join (specs.map fun (name, spec) =>
      columns (name ++ spec.operandForm) (summary name) ++ optionLines spec.ownOptions) ++
    "\nOptions of all commands:\n" ++ optionLines sharedOptions ++
    columns "-h, --help" "Print help" ++ columns "-V, --version" "Print version"

def misuse : String :=
  "error: the command line was not understood\n\n" ++ usageLine ++
    "\n\nFor more information, try '--help'.\n"

def completionWords : List String :=
  let options (spec : Spec) := spec.options.map fun o => "--" ++ o.name
  (specs.map Prod.fst ++ "help" :: options topLevel ++ specs.flatMap fun (_, spec) => options spec).eraseDups

def completionScript (shell : String) : String :=
  let words := " ".intercalate completionWords
  match shell with
  | "bash" => s!"complete -o default -W \"{words}\" tsheader\n"
  | "zsh" => s!"#compdef tsheader\ncompadd -- {words}\n_files\n"
  | "fish" => s!"complete -c tsheader -a \"{words}\"\n"
  | "elvish" => s!"set edit:completion:arg-completer[tsheader] = \x7b|@line| put {words} \x7d\n"
  | _ =>
    let quoted := ", ".intercalate (completionWords.map fun word => "'" ++ word ++ "'")
    "Register-ArgumentCompleter -Native -CommandName tsheader -ScriptBlock \x7b\n    param($word)\n" ++
      s!"    @({quoted}) | Where-Object \x7b $_ -like \"$word*\" \x7d\n\x7d\n"

end GrammarHeaders.CommandLine
