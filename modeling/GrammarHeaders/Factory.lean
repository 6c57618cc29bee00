import GrammarHeaders.Failure
import GrammarHeaders.Log
import GrammarHeaders.Marker
import GrammarHeaders.Text.Line

namespace GrammarHeaders

/-- Whether a factory that is not named as expected is refused or kept with a warning. -/
inductive NameCheck where
  | strict
  | warn
  deriving DecidableEq, Repr

/-- The factory function found in a text. -/
structure Factory where
  name : String
  /-- The signature without a semicolon. -/
  signature : Text
  /-- From the start of the signature to the closing brace. -/
  span : Span
  deriving DecidableEq, Repr

namespace Factory

def locateTail (t : Text) (file : Path) : Except ShapeFault Span :=
  match Marker.guard.locate t with
  | some found => .ok found.span
  | none => .error (.markerNotFound Marker.guard.quoted file)

def mismatchWarning (expected : String) (file : Path) (name : String) : LogLine :=
  .warn s!"expected `{expected}` in {file} but found `{name}`; keeping `{name}`"

/-- Find the factory and check its name. The end of the factory is searched after its
signature, and the name is checked last. -/
def locate (t : Text) (expected : String) (check : NameCheck) (file : Path) :
    Except ShapeFault (Factory × List LogLine) :=
  match Marker.signature.locate t with
  | none => .error (.factoryNotFound expected file)
  | some start =>
    match Marker.ending.locateFrom t start.span.stop with
    | .ok (some stop) =>
      let name := String.ofList (start.capture.getD [])
      let factory := ⟨name, start.matched, ⟨start.span.start, stop.span.stop⟩⟩
      if name = expected then .ok (factory, [])
      else match check with
        | .strict => .error (.factoryNameMismatch expected name file)
        | .warn => .ok (factory, [mismatchWarning expected file name])
    | _ => .error (.factoryEndNotFound expected file)

def excise? (t : Text) (newline : LineEnding) (s : Span) (declaration : Text) : Option Text := do
  let (front, _) ← Text.cutAt? s.start t
  let (_, back) ← Text.cutAt? s.stop t
  return front ++ declaration ++ [';'] ++ newline.text ++ back

def lexerDeclaration : Text := "typedef struct TSLexer TSLexer;".toList

def languageDeclaration : Text := "typedef struct TSLanguage TSLanguage;".toList

def forwardDeclarations (newline : LineEnding) : Text :=
  lexerDeclaration ++ newline.text ++ languageDeclaration ++ newline.text

def foundLine (name : String) (s : Span) (file : Path) : LogLine :=
  .debug s!"found `{name}` at bytes {s.start}..{s.stop} of {file}"

/-- The declarations of a whole parser: the forward declarations, an empty line, and the tail
with the factory's body replaced by its declaration. Line endings are those of the parser. -/
def extractDeclarations (t : Text) (expected : String) (check : NameCheck) (file : Path) :
    Except ShapeFault (Text × List LogLine) := do
  let newline := LineEnding.detect t
  let tailSpan ← locateTail t file
  let tail := (Text.slice? t tailSpan).getD []
  let (factory, warnings) ← locate tail expected check file
  let excised := (excise? tail newline factory.span factory.signature).getD []
  return (forwardDeclarations newline ++ newline.text ++ excised,
    warnings ++ [foundLine factory.name (factory.span.shift tailSpan.start) file])

end Factory

end GrammarHeaders
