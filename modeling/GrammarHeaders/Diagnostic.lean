import GrammarHeaders.Path

namespace GrammarHeaders

structure Diagnostic where
  message : String
  location : Option Path := none
  /-- Lines under the location. -/
  context : List String := []
  suggestions : List String := []
  deriving DecidableEq, Repr

namespace Diagnostic

def withContext (d : Diagnostic) (line : String) : Diagnostic :=
  { d with context := d.context ++ [line] }

def paint (color : Bool) (code word : String) : String :=
  if color then "\x1b[" ++ code ++ "m" ++ word ++ "\x1b[0m" else word

def numbered : Nat → List String → String
  | _, [] => ""
  | n, item :: rest => s!"  {n}. {item}\n" ++ numbered (n + 1) rest

def render (d : Diagnostic) (color : Bool) : String :=
  let headline := paint color "1;31" "error" ++ s!": {d.message}\n"
  let location := match d.location with
    | some path => s!"  --> {path}\n"
    | none => ""
  let context := String.join (d.context.map fun line => s!"  = {line}\n")
  let help :=
    if d.suggestions.isEmpty then ""
    else "\n" ++ paint color "1;32" "help" ++ ": consider:\n" ++ numbered 1 d.suggestions
  headline ++ location ++ context ++ help

def checkPaths : String := "Check that the repository paths passed on the command line exist"

def noSources : String :=
  "A grammar repository needs src/parser.c; run `tree-sitter generate` in it first"

def noHeaders : String :=
  "Point --root at a tree-sitter checkout that contains lib/include/tree_sitter"

def regenerateGrammar : String :=
  "Regenerate the parser with `tree-sitter generate` and try again"

def renameRepository : String :=
  "Rename the grammar directory to match the grammar name (e.g. tree-sitter-python)"

def allowMismatch : String := "Pass --allow-name-mismatch to keep the name found in parser.c"

def checkGenerator : String :=
  "Run the binding generator by hand with --verbose to see its output"

def addGrammar : String := "Pass at least one grammar repository with --grammar <dir>"

end Diagnostic

end GrammarHeaders
