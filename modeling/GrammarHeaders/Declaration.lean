import GrammarHeaders.Text.Folding
import GrammarHeaders.Text.Whitespace
import GrammarHeaders.Text.Word

namespace GrammarHeaders

namespace ReturnType

/-- How far a return type has been read: one or more words, blanks between them, and then either
blanks or stars with blanks around them. -/
inductive State where
  | start
  | word
  | gap
  | stars
  | afterStars
  deriving DecidableEq, Repr

def step (s : State) (c : Char) : Option State :=
  match s with
  | .start => if Text.isWord c then some .word else none
  | .word | .gap =>
    if Text.isWord c then some .word
    else if Text.isBlank c then some .gap
    else if c = '*' then some .stars
    else none
  | .stars =>
    if c = '*' then some .stars else if Text.isBlank c then some .afterStars else none
  | .afterStars => if Text.isBlank c then some .afterStars else none

def mayEnd (s : State) : Bool :=
  match s with
  | .gap | .stars | .afterStars => true
  | .start | .word => false

end ReturnType

namespace Declaration

def trimLineEnd (t : Text) : Text :=
  let back := t.reverse
  let back := if back.head? = some '\r' then back.tail else back
  (back.dropWhile Text.isBlank).reverse

/-- What may follow the opening parenthesis: nothing but blanks, or a text on one line that ends
the statement. -/
def isArgumentList (t : Text) : Bool :=
  let body := trimLineEnd t
  body.isEmpty || ([')', ';'].isSuffixOf body && !(body.dropLast.dropLast).contains '\n')

def isCallShape (functionPrefix : Text) (t : Text) : Bool :=
  match functionPrefix.isPrefixOf? t with
  | none => false
  | some rest => match rest.dropWhile Text.isWord with
    | '(' :: arguments => isArgumentList arguments
    | _ => false

def continues (functionPrefix : Text) (s : ReturnType.State) : Text → Bool
  | [] => ReturnType.mayEnd s && isCallShape functionPrefix []
  | c :: t =>
    (ReturnType.mayEnd s && isCallShape functionPrefix (c :: t)) ||
      (match ReturnType.step s c with
        | some s' => continues functionPrefix s' t
        | none => false)

def returnWord : Text := "return".toList

/-- The line starts a declaration of a function with the given prefix. A return statement has the
same shape and is excluded by its first word. -/
def isDeclaration (functionPrefix : Text) (line : Text) : Bool :=
  Text.firstToken line != returnWord && continues functionPrefix .start line

end Declaration

namespace Directive

def includeWord : Text := "include".toList

def isInclude (line : Text) : Bool :=
  match line.dropWhile Text.isBlank with
  | '#' :: t => match Text.foldedStart? includeWord (t.dropWhile Text.isBlank) with
    | some (_, c :: _) => !Text.isWord c
    | some (_, []) => true
    | none => false
  | _ => false

def defineWord : Text := "define".toList

def endsName : Text → Bool
  | [] => true
  | c :: _ => Text.isBlank c || c == '('

def definesMacro (name : Text) (line : Text) : Bool :=
  match Text.trimStart line with
  | '#' :: t => match defineWord.isPrefixOf? (Text.trimStart t) with
    | some (c :: rest) => Text.isBlank c &&
        (match name.isPrefixOf? (Text.trimStart (c :: rest)) with
          | some tail => endsName tail
          | none => false)
    | _ => false
  | _ => false

end Directive

end GrammarHeaders
