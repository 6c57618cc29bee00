import GrammarHeaders.Export
import GrammarHeaders.Factory
import GrammarHeaders.Path

namespace GrammarHeaders

/-- Where things are inside the checkouts. -/
structure LayoutSettings where
  /-- Prefix of the functions that the root library exports. -/
  rootFunctionPrefix : String := "ts_"
  rootIncludeDir : Path := ⟨"lib/include/tree_sitter"⟩
  /-- Name of the generated parser among the sources of a grammar. -/
  parserFile : String := "parser.c"
  deriving DecidableEq, Repr

/-- The external binding generator; without a program no bindings are generated. -/
structure BindingSettings where
  generator : Option Path := none
  args : List String := []
  deriving DecidableEq, Repr

structure RunSettings where
  /-- Number of modules worked on at once; chosen by the machine if absent. It only bounds which
  schedules of the work come up, and no stage reads it. -/
  jobs : Option Nat := none
  allowNameMismatch : Bool := false
  deriving DecidableEq, Repr

structure Config where
  exportMacro : ExportMacro := {}
  layout : LayoutSettings := {}
  bindings : BindingSettings := {}
  generate : RunSettings := {}
  deriving DecidableEq, Repr

namespace Config

def nameCheck (c : Config) : NameCheck := if c.generate.allowNameMismatch then .warn else .strict

def rootAnnotator (c : Config) : Annotator := ⟨c.exportMacro, c.layout.rootFunctionPrefix, .skip⟩

/-- Annotator for the headers of grammars. They have no include directives, so the block goes in
front of the first declaration. -/
def languageAnnotator (c : Config) : Annotator :=
  ⟨c.exportMacro, grammarFunctionPrefix, .beforeFirstDeclaration⟩

end Config

end GrammarHeaders
