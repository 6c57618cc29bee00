import GrammarHeaders.Shell.Syntax

namespace GrammarHeaders.Shell

inductive Keyword where
  | bang
  | case
  | do
  | done
  | elif
  | else
  | esac
  | fi
  | for
  | if
  | in
  | then
  | until
  | while
  | open
  | close
  deriving DecidableEq, Repr

namespace Keyword

def spelling : Keyword → String
  | bang => "!"
  | case => "case"
  | .do => "do"
  | done => "done"
  | elif => "elif"
  | .else => "else"
  | esac => "esac"
  | fi => "fi"
  | .for => "for"
  | .if => "if"
  | .in => "in"
  | .then => "then"
  | «until» => "until"
  | .while => "while"
  | .open => "\x7b"
  | close => "\x7d"

def all : List Keyword :=
  [bang, case, .do, done, elif, .else, esac, fi, .for, .if, .in, .then, «until», .while, .open, close]

def ofText? (t : Bytes) : Option Keyword := all.find? fun k => k.spelling.toList == t

end Keyword

/-- The front of a redirection: its stream and what is done with it. -/
inductive RedirectKind where
  | file (opening : Opening)
  | same (output : Bool)
  | document (dropTabs : Bool)
  deriving DecidableEq, Repr

inductive Token where
  | endOfFile
  | newline
  | semicolon
  | ampersand
  | and
  | or
  | pipe
  | leftParen
  | rightParen
  | endCase
  | redirect (fd : Nat) (kind : RedirectKind)
  | word (w : Word)
  | keyword (k : Keyword)

namespace Token

def describe : Token → String
  | endOfFile => "end of file"
  | newline => "newline"
  | semicolon => "\";\""
  | ampersand => "\"&\""
  | and => "\"&&\""
  | or => "\"||\""
  | pipe => "\"|\""
  | leftParen => "\"(\""
  | rightParen => "\")\""
  | endCase => "\";;\""
  | redirect .. => "redirection"
  | word _ => "word"
  | keyword k => "\"" ++ k.spelling ++ "\""

def endsList : Token → Bool
  | endOfFile | rightParen | endCase => true
  | keyword k => [.do, .done, .elif, .else, .esac, .fi, .then, .close].contains k
  | _ => false

def isKeyword (t : Token) (k : Keyword) : Bool :=
  match t with
  | keyword other => other == k
  | _ => false

end Token

/-- Why a script cannot be read on. -/
structure SyntaxFault where
  line : Nat
  message : Bytes
  deriving DecidableEq, Repr

/-- A text of the script that has been announced, and starts on the next line. -/
structure Announced where
  number : Nat
  ending : Bytes
  expanded : Bool
  dropTabs : Bool

/-- An alias that has been replaced, with the length of what follows its text. If that ends in a
blank, the word behind it may be an alias, too. -/
structure Replaced where
  name : Bytes
  after : Nat
  goesOn : Bool

/-- The rest of a script, with what reading has to remember. -/
structure Source where
  rest : Bytes
  line : Nat := 1
  pushed : Option Token := none
  announced : List Announced := []
  documents : List (Nat × Word) := []
  nextDocument : Nat := 0
  aliases : List (Bytes × Bytes) := []
  inDocument : Bool := false
  inFile : Bool := false
  replacing : List Replaced := []

abbrev Parse := EStateM SyntaxFault Source

namespace Parse

def fail {α : Type} (message : String) : Parse α := do
  throw ⟨(← get).line, Bytes.ofString ("Syntax error: " ++ message)⟩

def unexpected {α : Type} (found : Token) (expected : Option Token) : Parse α :=
  let message := found.describe ++ " unexpected" ++ match expected with
    | some token => " (expecting " ++ token.describe ++ ")"
    | none => ""
  fail (String.ofList (message.toList.take 63))

def dropJoins : Parse Unit := do
  let rec go (line : Nat) : Bytes → Bytes × Nat
    | '\\' :: '\n' :: t => go (line + 1) t
    | t => (t, line)
  let s ← get
  match s.rest with
  | '\\' :: '\n' :: _ =>
    let (rest, line) := go s.line s.rest
    set { s with rest, line }
  | _ => pure ()

def peekRaw : Parse (Option Char) := return (← get).rest.head?

def peek : Parse (Option Char) := do
  dropJoins
  peekRaw

def skip : Parse Unit :=
  modify fun s => match s.rest with
    | '\n' :: rest => { s with rest, line := s.line + 1 }
    | _ :: rest => { s with rest }
    | [] => s

def next : Parse (Option Char) := do
  let c ← peek
  skip
  return c

def skipIf (c : Char) : Parse Bool := do
  if (← peek) = some c then
    skip
    return true
  else return false

def takeWhile (p : Char → Bool) : Parse Bytes := do
  let step (taken : Bytes) : Parse (Bytes ⊕ Bytes) := do
    match ← peek with
    | some c =>
      if p c then
        skip
        return .inl (c :: taken)
      else return .inr taken.reverse
    | none => return .inr taken.reverse
  iterate step pure ((← get).rest.length + 1) []

end Parse

end GrammarHeaders.Shell
