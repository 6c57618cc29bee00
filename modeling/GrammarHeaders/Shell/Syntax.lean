import GrammarHeaders.Shell.Bytes

namespace GrammarHeaders.Shell

/-- What is done with the value of a parameter. A colon treats an empty value like none. -/
inductive Operator where
  | plain
  | size
  | orElse (colon : Bool)
  | orAssign (colon : Bool)
  | orFail (colon : Bool)
  | instead (colon : Bool)
  | dropFront (longest : Bool)
  | dropBack (longest : Bool)
  | unknown
  deriving DecidableEq, Repr

/-- How a file is opened for a command. -/
inductive Opening where
  | read
  | write
  | append
  | readWrite
  | clobber
  deriving DecidableEq, Repr

mutual

/-- A part of a word. Quoted parts are neither split nor matched against file names. -/
inductive Part where
  | text (quoted : Bool) (t : Bytes)
  | mark
  | param (quoted : Bool) (name : Bytes) (op : Operator) (word : List Part)
  | output (quoted : Bool) (body : Command)
  | value (quoted : Bool) (expression : List Part)
  | stop

inductive Redirect where
  | file (fd : Nat) (opening : Opening) (target : List Part)
  | same (fd source : Nat)
  | close (fd : Nat)
  | named (fd : Nat) (source : List Part)
  | document (fd : Nat) (number : Nat)

inductive Command where
  | nothing
  | simple (line : Nat) (assignments words : List (List Part)) (redirects : List Redirect)
  | redirected (line : Nat) (body : Command) (redirects : List Redirect)
  | pipeline (commands : List Command)
  | negated (body : Command)
  | both (first second : Command)
  | either (first second : Command)
  | sequence (first second : Command)
  | subshell (line : Nat) (body : Command) (redirects : List Redirect)
  | background (line : Nat) (body : Command) (redirects : List Redirect)
  | choice (test good : Command) (bad : Option Command)
  | loop (stopWhen : Bool) (test body : Command)
  | forEach (line : Nat) (name : Bytes) (items : List (List Part)) (body : Command)
  | select (line : Nat) (subject : List Part) (branches : List (List (List Part) × Option Command))
  | define (name : Bytes) (line : Nat) (body : Command)

end

abbrev Word := List Part

instance : Inhabited Command := ⟨.nothing⟩

namespace Part

def plain? : List Part → Option Bytes
  | [.text false t] => some t
  | _ => none

def isQuoted : Part → Bool
  | .text quoted _ => quoted
  | .mark => true
  | _ => false

def literal (w : List Part) : Bytes :=
  w.flatMap fun part => match part with
    | .text _ t => t
    | _ => []

def assignment? : List Part → Option (Bytes × List Part)
  | .text false t :: rest =>
    let name := t.takeWhile Bytes.isNameChar
    match t.drop name.length with
    | '=' :: given =>
      if Bytes.isName name then
        some (name, if given.isEmpty then rest else .text false given :: rest)
      else none
    | _ => none
  | _ => none

end Part

end GrammarHeaders.Shell
