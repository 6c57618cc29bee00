import GrammarHeaders.Shell.Parser.Token

namespace GrammarHeaders.Shell.Parse

/-- How a piece of the script is read, and where it ends. -/
inductive Mode where
  | word
  | ending
  | quotes
  | braces (quoted : Bool)
  | expression
  | document
  deriving DecidableEq, Repr

namespace Mode

def isQuoted : Mode → Bool
  | word | ending | braces false => false
  | _ => true

def isBraces : Mode → Bool
  | braces _ => true
  | _ => false

end Mode

def addChar (quoted : Bool) (c : Char) : List Part → List Part
  | .text q t :: rest => if q = quoted then .text q (c :: t) :: rest else .text quoted [c] :: .text q t :: rest
  | parts => .text quoted [c] :: parts

def finished (parts : List Part) : Word :=
  parts.reverse.map fun part => match part with
    | .text q t => .text q t.reverse
    | part => part

def isSpecial (c : Char) : Bool := "!#$*-?@".toList.contains c

def cutOff {α : Type} (mode : Mode) : Parse α := do
  match mode with
  | .expression => fail "Missing '))'"
  | .braces false => fail "Missing '\x7d'"
  | _ =>
    if (← get).inDocument then fail "Missing '\x7d'" else fail "Unterminated quoted string"

def singleQuoted : Parse Bytes := do
  let step (taken : Bytes) : Parse (Bytes ⊕ Bytes) := do
    match ← peekRaw with
    | none => cutOff .quotes
    | some '\'' =>
      skip
      return .inr taken.reverse
    | some c =>
      skip
      return .inl (c :: taken)
  iterate step pure ((← get).rest.length + 1) []

def backquoted (quoted : Bool) : Parse Bytes := do
  let step (taken : Bytes) : Parse (Bytes ⊕ Bytes) := do
    match ← next with
    | none => fail "EOF in backquote substitution"
    | some '`' => return .inr taken.reverse
    | some '\\' => do
      match ← peekRaw with
      | none => return .inl ('\\' :: taken)
      | some c =>
        skip
        if c = '\\' ∨ c = '`' ∨ c = '$' ∨ (quoted ∧ c = '"') then return .inl (c :: taken)
        else return .inl (c :: '\\' :: taken)
    | some c => return .inl (c :: taken)
  iterate step pure ((← get).rest.length + 1) []

/-- How the other parts of the language are read. -/
structure Grammar where
  piece : Mode → Parse Word
  commands : Parse Command
  inner : Bytes → Parse Command

/-- The name of a parameter in braces, with the character behind it, and whether its length is
asked for. No name is given for what is none. -/
def bracedName : Parse (Option Bytes × Bool) := do
  let named (c : Char) : Parse Bytes := do
    if Bytes.isNameStart c then takeWhile Bytes.isNameChar else takeWhile Char.isDigit
  match ← peek with
  | none => return (none, false)
  | some '}' => return (none, false)
  | some '#' => do
    skip
    match ← peek with
    | none => return (some ['#'], false)
    | some c =>
      if Bytes.isNameChar c then return (some (← named c), true)
      else if c = '}' then return (some ['#'], false)
      else
        let s ← get
        skip
        if (← peek) = some '}' then
          return (if isSpecial c then some [c] else none, true)
        else
          set s
          return (some ['#'], false)
  | some c =>
    if Bytes.isNameChar c then return (some (← named c), false)
    else if isSpecial c then
      skip
      return (some [c], false)
    else return (none, false)

/-- What is done with a parameter, up to the word that goes with it. A character that says nothing
is passed over, and is not even counted as the end of a line. -/
def operator : Parse Operator := do
  let colon ← skipIf ':'
  match ← peek with
  | some '-' => skip; return .orElse colon
  | some '=' => skip; return .orAssign colon
  | some '?' => skip; return .orFail colon
  | some '+' => skip; return .instead colon
  | some '#' =>
    if colon then return .unknown
    skip
    return .dropFront (← skipIf '#')
  | some '%' =>
    if colon then return .unknown
    skip
    return .dropBack (← skipIf '%')
  | some '}' =>
    skip
    return .plain
  | _ =>
    modify fun s => { s with rest := s.rest.tail }
    return .unknown

def addParts (word : Word) (parts : List Part) : List Part :=
  (word.map fun part => match part with
    | .text q t => .text q t.reverse
    | part => part).reverse ++ parts

/-- A parameter in braces, put behind other parts. Where the word is a pattern, quotes in it count.
A colon in front of the brace makes the brace go for nothing: another one has to follow, and the
rest of the whole word is lost. -/
def braced (g : Grammar) (quoted : Bool) (parts : List Part) : Parse (List Part) := do
  let (name, sized) ← bracedName
  match name with
  | none => return .param quoted [] .unknown (← g.piece (.braces quoted)) :: parts
  | some name =>
    if ← skipIf '}' then return .param quoted name (if sized then .size else .plain) [] :: parts
    else if sized then return .param quoted name .unknown (← g.piece (.braces quoted)) :: parts
    else
      match ← operator with
      | .plain =>
        return .stop :: addParts (← g.piece (.braces quoted)) (.param quoted name .plain [] :: parts)
      | op =>
        let inner : Bool := match op with
          | .dropFront _ | .dropBack _ => false
          | _ => quoted
        return .param quoted name op (← g.piece (.braces inner)) :: parts

def dollar (g : Grammar) (quoted : Bool) (parts : List Part) : Parse (List Part) := do
  match ← peek with
  | some '(' => do
    skip
    if ← skipIf '(' then return .value quoted (← g.piece .expression) :: parts
    else return .output quoted (← g.commands) :: parts
  | some '{' => do
    skip
    braced g quoted parts
  | some c =>
    if Bytes.isNameStart c then
      return .param quoted (← takeWhile Bytes.isNameChar) .plain [] :: parts
    else if c.isDigit || isSpecial c then
      skip
      return .param quoted [c] .plain [] :: parts
    else return addChar quoted '$' parts
  | none => return addChar quoted '$' parts

def inQuotes (inner : Word) (parts : List Part) : List Part :=
  match inner with
  | [.param true ['@'] .plain []] => .param true ['@'] .plain [] :: parts
  | inner => addParts inner (.mark :: parts)

def escaped (mode : Mode) (parts : List Part) : Parse (List Part) := do
  match ← peekRaw with
  | none => return addChar true '\\' parts
  | some c =>
    skip
    let kept := mode.isQuoted && !(c == '\\' || c == '`' || c == '$' ||
      (c == '"' && mode != .document) || (c == '}' && mode.isBraces))
    return addChar true c (if kept then addChar true '\\' parts else parts)

def endsWord (c : Char) : Bool := " \t\n<>();&|".toList.contains c

def endingLine? (ending : Bytes) (dropTabs : Bool) (rest : Bytes) : Option Bytes :=
  let rest := if dropTabs then rest.dropWhile (· == '\t') else rest
  let line := rest.takeWhile (· != '\n')
  if line = ending then some (rest.drop line.length) else none

/-- State of reading a piece: its parts, last first, and how many parentheses are open. -/
structure Pending where
  parts : List Part := []
  depth : Nat := 0

def pieceStep (g : Grammar) (mode : Mode) (p : Pending) : Parse (Pending ⊕ Word) := do
  let quoted := mode.isQuoted
  let more (parts : List Part) : Parse (Pending ⊕ Word) := return .inl { p with parts }
  match ← peek with
  | none =>
    if mode = .word ∨ mode = .ending ∨ mode = .document then return .inr (finished p.parts)
    else cutOff mode
  | some c =>
    if (mode = .word ∨ mode = .ending) ∧ endsWord c then return .inr (finished p.parts)
    else
      skip
      match c with
      | '\\' =>
        if mode = .expression then
          match ← peekRaw with
          | some d => do
            skip
            more (addChar true d (addChar true '\\' p.parts))
          | none => more (addChar true '\\' p.parts)
        else more (← escaped mode p.parts)
      | '\'' =>
        if quoted then more (addChar true c p.parts)
        else
          let inner := [.text true (← singleQuoted)]
          more (inQuotes inner p.parts)
      | '"' =>
        if mode = .quotes then return .inr (finished p.parts)
        else if mode = .document ∨ mode = .expression then more (addChar true c p.parts)
        else more (inQuotes (← g.piece .quotes) p.parts)
      | '$' => if mode = .ending then more (addChar false c p.parts) else more (← dollar g quoted p.parts)
      | '`' =>
        if mode = .ending then more (addChar false c p.parts)
        else
          let body ← g.inner (← backquoted quoted)
          more (.output quoted body :: p.parts)
      | '}' =>
        if mode.isBraces then return .inr (finished p.parts) else more (addChar quoted c p.parts)
      | '(' =>
        return .inl ⟨addChar quoted c p.parts, p.depth + 1⟩
      | ')' =>
        if mode = .expression ∧ p.depth = 0 then
          if ← skipIf ')' then return .inr (finished p.parts) else more (addChar quoted c p.parts)
        else return .inl ⟨addChar quoted c p.parts, p.depth - 1⟩
      | c => more (addChar quoted c p.parts)

def piece (g : Grammar) (mode : Mode) : Parse Word := do
  iterate (pieceStep g mode) (fun p => pure (finished p.parts)) ((← get).rest.length + 2) {}

def documentBody (g : Grammar) (a : Announced) : Parse Word := do
  let step (s : Bool × List Part) : Parse ((Bool × List Part) ⊕ Word) := do
    let (atStart, parts) := s
    let source ← get
    if atStart then
      match endingLine? a.ending a.dropTabs source.rest with
      | some rest =>
        set { source with rest }
        skip
        return .inr (finished parts)
      | none =>
        if a.dropTabs then set { source with rest := source.rest.dropWhile (· == '\t') }
    match ← (if a.expanded then peek else peekRaw) with
    | none => return .inr (finished parts)
    | some c =>
      if !a.expanded then
        skip
        return .inl (c == '\n', addChar true c parts)
      else
        match ← pieceStep g .document { parts } with
        | .inl p => return .inl (c == '\n', p.parts)
        | .inr w => return .inr w
  iterate step (fun s => pure (finished s.2)) (2 * (← get).rest.length + 2) (true, [])

def documents (g : Grammar) : Parse Unit := do
  let announced := (← get).announced
  modify fun s => { s with announced := [] }
  announced.forM fun a => do
    modify fun s => { s with inDocument := true }
    let w ← documentBody g a
    modify fun s => { s with documents := (a.number, w) :: s.documents, inDocument := false }

end GrammarHeaders.Shell.Parse
