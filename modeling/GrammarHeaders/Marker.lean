import GrammarHeaders.Text.Basic
import GrammarHeaders.Text.Word

namespace GrammarHeaders

/-- What a matcher found at the start of a text: the matched characters and, inside them, the
name that the shape captures. -/
structure Match where
  matched : Text
  capture : Option Text
  deriving DecidableEq, Repr

inductive Marker where
  /-- The start of the trailing block of declarations for a C++ reader. -/
  | guard
  /-- The signature of the language factory. -/
  | signature
  /-- The return statement and closing brace that end the factory. -/
  | ending
  deriving DecidableEq, Repr

/-- Where a marker was found. -/
structure Located where
  span : Span
  capture : Option Text
  matched : Text
  deriving DecidableEq, Repr

/-- An offset inside a character was used where a text has to be cut. -/
structure BadOffset where
  offset : Nat
  deriving DecidableEq, Repr

def grammarFunctionPrefix : String := "tree_sitter_"

namespace Marker

def guardToken : Text := "#ifdef __cplusplus".toList

def signatureOpening : Text := "extern const TSLanguage *".toList

def signatureClosing : Text := "(void)".toList

def endingOpening : Text := "return &language;".toList

def literal? (token : Text) (t : Text) : Option Match :=
  if token.isPrefixOf t then some ⟨token, none⟩ else none

/-- A factory name is the common prefix of grammar functions and at least one word character;
parentheses around `void` follow directly. -/
def signature? (t : Text) : Option Match := do
  let afterOpening ← signatureOpening.isPrefixOf? t
  let afterPrefix ← grammarFunctionPrefix.toList.isPrefixOf? afterOpening
  let stem := afterPrefix.takeWhile Text.isWord
  if stem.isEmpty then none
  else if signatureClosing.isPrefixOf (afterPrefix.drop stem.length) then
    let name := grammarFunctionPrefix.toList ++ stem
    some ⟨signatureOpening ++ name ++ signatureClosing, some name⟩
  else none

def ending? (t : Text) : Option Match := do
  let rest ← endingOpening.isPrefixOf? t
  match rest with
  | '\n' :: '}' :: _ => some ⟨endingOpening ++ ['\n', '}'], none⟩
  | '\r' :: '\n' :: '}' :: _ => some ⟨endingOpening ++ ['\r', '\n', '}'], none⟩
  | _ => none

def matchAt? : Marker → Text → Option Match
  | guard => literal? guardToken
  | signature => signature?
  | ending => ending?

def description : Marker → String
  | guard => "#ifdef __cplusplus"
  | signature => "extern const TSLanguage *tree_sitter_<name>(void)"
  | ending => "return &language;\\n\x7d"

def quoted (m : Marker) : String := "`" ++ m.description ++ "`"

def spanAt (m : Marker) (t : Text) (pos : Nat) (found : Match) : Span :=
  match m with
  | guard => ⟨pos, Text.size t⟩
  | signature | ending => ⟨pos, pos + Text.size found.matched⟩

def locateIn (m : Marker) (t : Text) (pos : Nat) (rest : Text) : Option Located :=
  (Text.leftmost? m.matchAt? pos rest).map fun (start, found) =>
    ⟨m.spanAt t start found, found.capture, found.matched⟩

def skipTo (start pos : Nat) : Text → Nat × Text
  | [] => (pos, [])
  | c :: t => if start ≤ pos then (pos, c :: t) else skipTo start (pos + c.utf8Size) t

/-- Find the first match at or after the offset `start`. The token needs a text to search in, so
for it the offset must be the edge of a character. -/
def locateFrom (m : Marker) (t : Text) (start : Nat) : Except BadOffset (Option Located) :=
  if Text.size t < start then .ok none
  else
    let (pos, rest) := skipTo start 0 t
    if m = guard ∧ pos ≠ start then .error ⟨start⟩ else .ok (m.locateIn t pos rest)

def locate (m : Marker) (t : Text) : Option Located := m.locateIn t 0 t

end Marker

end GrammarHeaders
