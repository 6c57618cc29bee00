import GrammarHeaders.Declaration
import GrammarHeaders.Text.Line

namespace GrammarHeaders

/-- The macro, the definitions that switch it on and off, and what it stands for. -/
structure ExportMacro where
  name : String := "DllExport"
  enableDefine : String := "TREE_SITTER_EXPORTS"
  disableDefine : String := "TREE_SITTER_NO_EXPORT"
  windowsAttribute : String := "__declspec(dllexport)"
  unixAttribute : String := "__attribute__((visibility(\"default\")))"
  deriving DecidableEq, Repr

namespace ExportMacro

def definitionLines (m : ExportMacro) : List String :=
  [s!"#if defined({m.enableDefine}) && !defined({m.disableDefine})",
   "#  if defined(_WIN32)",
   s!"#    define {m.name} {m.windowsAttribute}",
   "#  else",
   s!"#    define {m.name} {m.unixAttribute}",
   "#  endif",
   "#else",
   s!"#  define {m.name}",
   "#endif"]

def definitionBlock (m : ExportMacro) (newline : Text) : Text :=
  m.definitionLines.flatMap fun line => line.toList ++ newline

end ExportMacro

/-- Where the block goes in a header without include directives. -/
inductive MissingAnchor where
  | skip
  | beforeFirstDeclaration
  deriving DecidableEq, Repr

/-- How headers are annotated: the macro, and the prefix of the functions that get it. -/
structure Annotator where
  exportMacro : ExportMacro
  functionPrefix : String
  missingAnchor : MissingAnchor := .skip
  deriving DecidableEq, Repr

structure Annotated where
  text : Text
  macroInserted : Bool
  /-- Number of lines that got the macro. -/
  prefixed : Nat
  deriving DecidableEq, Repr

def Annotated.changed (a : Annotated) : Bool := a.macroInserted || 0 < a.prefixed

namespace Annotator

def isExported (name : Text) (line : Text) : Bool :=
  match name.isPrefixOf? line with
  | some (' ' :: _) => true
  | _ => false

def needsMacro (a : Annotator) (line : Text) : Bool :=
  !isExported a.exportMacro.name.toList line &&
    Declaration.isDeclaration a.functionPrefix.toList line

def definesMacro (a : Annotator) (line : Text) : Bool :=
  Directive.definesMacro a.exportMacro.name.toList line

/-- The number of the line that the block goes in front of. No block is due in a header that
defines the macro. -/
def anchor? (a : Annotator) (ls : List Line) : Option Nat :=
  if ls.any fun line => a.definesMacro line.content then none
  else match ls.findIdx? fun line => Directive.isInclude line.content with
    | some i => some i
    | none => match a.missingAnchor with
      | .skip => none
      | .beforeFirstDeclaration => ls.findIdx? fun line => a.needsMacro line.content

def mark (a : Annotator) (line : Line) : Text :=
  if a.needsMacro line.content then a.exportMacro.name.toList ++ [' '] ++ line.text else line.text

def markAll (a : Annotator) (ls : List Line) : Text := ls.flatMap a.mark

def annotate (a : Annotator) (t : Text) : Annotated :=
  let ls := Text.lines t
  let text := match a.anchor? ls with
    | none => a.markAll ls
    | some i =>
      a.markAll (ls.take i) ++ a.exportMacro.definitionBlock (LineEnding.detect t).text ++
        a.markAll (ls.drop i)
  ⟨text, (a.anchor? ls).isSome, ls.countP fun line => a.needsMacro line.content⟩

end Annotator

end GrammarHeaders
