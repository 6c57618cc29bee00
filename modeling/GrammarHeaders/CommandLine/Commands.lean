import GrammarHeaders.CommandLine.Arguments
import GrammarHeaders.Path

namespace GrammarHeaders.CommandLine

inductive Command where
  | generate (root : Path) (grammars : List Path) (bindingsOut headersOut : Path)
      (smokeTestOut : Option Path) (jobs : Option Nat) (allowNameMismatch : Bool)
      (generator : Option Path)
  | header (grammar headersOut : Path) (allowNameMismatch : Bool)
  | annotate (files : List Path) (functionPrefix : String)
  | patchBindings (paths : List Path)
  | completions (shell : String)
  deriving DecidableEq, Repr

def Command.paths : Command → List Path
  | .generate root grammars bindingsOut headersOut smokeTestOut _ _ generator =>
    root :: grammars ++ [bindingsOut, headersOut] ++ smokeTestOut.toList ++ generator.toList
  | .header grammar headersOut _ => [grammar, headersOut]
  | .annotate files _ => files
  | .patchBindings paths => paths
  | .completions _ => []

/-- A command with the options that all commands share. -/
structure Invocation where
  verbose : Bool
  quiet : Bool
  command : Command
  deriving DecidableEq, Repr

/-- What a command line asks for. -/
inductive Asks where
  | run (i : Invocation)
  | help
  | version
  | usage
  deriving DecidableEq, Repr

def sharedOptions : List OptionSpec :=
  [{ name := "verbose", letter := some 'v' }, { name := "quiet", letter := some 'q' },
   { name := "no-color" }]

def exclusive : List (String × String) := [("verbose", "quiet")]

def topLevel : Spec := { options := sharedOptions, exclusive, versioned := true, commands := true }

def pathOption (name : String) (required : Bool) : OptionSpec :=
  { name, value := some .path, required }

def shells : List String := ["bash", "elvish", "fish", "powershell", "zsh"]

def specs : List (String × Spec) :=
  [("generate",
    { options := sharedOptions ++
        [pathOption "root" true, { pathOption "grammar" false with repeatable := true },
         pathOption "bindings-out" true, pathOption "headers-out" true,
         pathOption "smoke-test-out" false,
         { name := "jobs", letter := some 'j', value := some .count },
         { name := "allow-name-mismatch" }, pathOption "generator" false]
      exclusive }),
   ("header",
    { options := sharedOptions ++
        [pathOption "grammar" true, pathOption "headers-out" true, { name := "allow-name-mismatch" }]
      exclusive }),
   ("annotate",
    { options := sharedOptions ++ [{ name := "prefix", value := some .text }]
      operands := some (.path, true)
      exclusive }),
   ("patch-bindings", { options := sharedOptions, operands := some (.path, true), exclusive }),
   ("completions",
    { options := sharedOptions, operands := some (.oneOf shells, false), exclusive })]

def Command.ofGiven? (name : String) (g : Given) : Option Command :=
  let path (option : String) : Path := ⟨(g.value? option).getD ""⟩
  let path? (option : String) : Option Path := (g.value? option).map Path.mk
  match name with
  | "generate" => some (.generate (path "root") ((g.values "grammar").map Path.mk)
      (path "bindings-out") (path "headers-out") (path? "smoke-test-out")
      ((g.value? "jobs").bind count?) (g.has "allow-name-mismatch") (path? "generator"))
  | "header" => some (.header (path "grammar") (path "headers-out") (g.has "allow-name-mismatch"))
  | "annotate" =>
    some (.annotate (g.operands.map Path.mk) ((g.value? "prefix").getD "ts_"))
  | "patch-bindings" => some (.patchBindings (g.operands.map Path.mk))
  | "completions" => g.operands.head?.map .completions
  | _ => none

def helpTopic : List String → Bool
  | [] => true
  | [name] => name == "help" || (specs.lookup name).isSome
  | _ => false

/-- The environment may switch colours, with one of two words; it is looked at wherever the
command line does not say so itself. -/
def colourFits (noColor : Option String) (g : Given) : Bool :=
  match noColor with
  | none => true
  | some word => g.has "no-color" || word == "true" || word == "false"

def Asks.ofStop : Stop → Asks
  | .usage => .usage
  | .help => .help
  | .version => .version

def parse (noColor : Option String) (args : List String) : Asks :=
  match topLevel.read {} none args with
  | .error stop => .ofStop stop
  | .ok (_, []) => .usage
  | .ok (top, name :: rest) =>
    if name == "help" then if helpTopic rest then .help else .usage
    else match specs.lookup name with
      | none => .usage
      | some spec => match spec.read {} none rest with
        | .error stop => .ofStop stop
        | .ok (g, _) =>
          if spec.complete g ∧ topLevel.complete top ∧ colourFits noColor g ∧ colourFits noColor top then
            match Command.ofGiven? name g with
            | some command =>
              .run ⟨top.has "verbose" || g.has "verbose", top.has "quiet" || g.has "quiet", command⟩
            | none => .usage
          else .usage

end GrammarHeaders.CommandLine
