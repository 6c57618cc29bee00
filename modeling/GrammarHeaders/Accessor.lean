import GrammarHeaders.Text.Folding
import GrammarHeaders.Text.Line
import GrammarHeaders.Text.Whitespace

namespace GrammarHeaders

/-- A line that returns one of the name tables without the cast. -/
structure Accessor where
  indent : Text
  field : Text
  trailing : Text
  deriving DecidableEq, Repr

namespace Accessor

def opening : Text := "return ((__internal*)__instance)->".toList

def fields : List Text := ["symbol_names".toList, "field_names".toList]

def field? (t : Text) : Option (Text × Text) :=
  fields.findSome? fun name => Text.foldedStart? name t

def parse? (line : Text) : Option Accessor := do
  let indent := line.takeWhile Text.isBlank
  let (_, afterOpening) ← Text.foldedStart? opening (line.drop indent.length)
  let (field, afterField) ← field? afterOpening
  match afterField with
  | ';' :: trailing => if trailing.contains '\n' then none else some ⟨indent, field, trailing⟩
  | _ => none

def fixComment : Text :=
  ("//UNTESTED FIX: Automatically added explicit cast to (sbyte**), otherwise \"Error CS0266 " ++
    "Cannot implicitly convert type 'System.IntPtr' to 'sbyte**'.\"").toList

def fixed (a : Accessor) : Text :=
  a.indent ++ "return (sbyte**)((__Internal*)__Instance)->".toList ++ a.field ++ [';'] ++ a.trailing

def patchLine (newline : LineEnding) (line : Line) : Text :=
  match parse? line.content with
  | some a => a.indent ++ fixComment ++ newline.text ++ a.fixed ++ line.ending
  | none => line.text

end Accessor

structure Patched where
  text : Text
  /-- Number of lines that got the cast. -/
  patchedLines : Nat
  deriving DecidableEq, Repr

/-- Fix every accessor of a source file. -/
def patchBindings (t : Text) : Patched :=
  let ls := Text.lines t
  ⟨ls.flatMap (Accessor.patchLine (LineEnding.detect t)),
    ls.countP fun line => (Accessor.parse? line.content).isSome⟩

end GrammarHeaders
