import GrammarHeaders.Shell.Regex
import GrammarHeaders.Shell.Format

namespace GrammarHeaders.Shell.Sed

/-- An expression, or the one that was used last. -/
structure Pattern where
  regex : Option Regex
  ignoreCase : Bool := false
  multiline : Bool := false

inductive Address where
  | line (number : Nat)
  | last
  | fits (p : Pattern)
  | stepped (first step : Nat)

/-- Where a range of lines ends. -/
inductive Stop where
  | line (number : Nat)
  | last
  | fits (p : Pattern)
  | more (count : Nat)
  | multiple (of_ : Nat)

/-- A part of what takes the place of a match. -/
inductive Piece where
  | text (t : Bytes)
  | group (number : Nat)
  | case (how : Char)

structure Substitution where
  pattern : Pattern
  pieces : List Piece
  globally : Bool := false
  number : Nat := 1
  print : Bool := false
  file : Option Bytes := none

inductive Action where
  | open_ (stop : Nat)
  | close
  | label
  | substitute (s : Substitution)
  | translate (table : List (Char × Char))
  | insert (t : Bytes)
  | append (t : Bytes)
  | change (t : Bytes)
  | read (path : Bytes)
  | write (path : Bytes)
  | jump (kind : Char) (label : Bytes)
  | quit (kind : Char) (status : Nat)
  | simple (letter : Char)

structure Instruction where
  first : Option Address := none
  second : Option Stop := none
  negated : Bool := false
  action : Action

/-- A script: its instructions, and the places of its labels. -/
structure Script where
  code : Array Instruction := #[]
  labels : List (Bytes × Nat) := []
  quiet : Bool := false

/-- Where reading has come to. -/
structure Reading where
  rest : Bytes
  consumed : Nat := 0
  script : Script := {}
  blocks : List Nat := []
  extended : Bool := false

/-- A message with the place that it is about. -/
structure Fault where
  message : String
  place : Nat

abbrev Read := EStateM Fault Reading

def fail {α : Type} (message : String) : Read α := do
  throw ⟨message, (← get).consumed⟩

def next? : Read (Option Char) := do
  let s ← get
  match s.rest with
  | [] => return none
  | c :: rest =>
    set { s with rest, consumed := s.consumed + 1 }
    return some c

def peek? : Read (Option Char) := return (← get).rest.head?

def skipWhile (p : Char → Bool) : Read Bytes := do
  let s ← get
  let front := s.rest.takeWhile p
  set { s with rest := s.rest.drop front.length, consumed := s.consumed + front.length }
  return front

def isBlank (c : Char) : Bool := c == ' ' || c == '\t'

def number : Read Nat := return Text.decimalValue (← skipWhile Char.isDigit)

def controlEscape? (t : Bytes) : Option (Char × Bytes) :=
  match t with
  | 'a' :: rest => some ('\x07', rest)
  | 'f' :: rest => some ('\x0c', rest)
  | 'r' :: rest => some ('\r', rest)
  | 't' :: rest => some ('\t', rest)
  | 'v' :: rest => some ('\x0b', rest)
  | 'c' :: c :: rest => some (Char.ofNat (c.toUpper.toNat ^^^ 64), rest)
  | 'd' :: rest => digits 10 3 rest
  | 'o' :: rest => digits 8 3 rest
  | 'x' :: rest => digits 16 2 rest
  | _ => none
where
  digits (base count : Nat) (t : Bytes) : Option (Char × Bytes) :=
    let (n, rest) := Format.upToDigits base count t
    if rest.length = t.length then none else some (Format.byteOf n, rest)

/-- A text up to a delimiter, which loses its backslash inside. In an expression brackets guard the
delimiter, and a newline may be written as an escape. -/
def delimited (delimiter : Char) (isRegex : Bool) : Nat → Bytes → Bytes → Option (Bytes × Bytes)
  | 0, _, _ => none
  | n + 1, done, t =>
    match t with
    | [] => none
    | '\\' :: c :: rest =>
      if c = delimiter ∧ !(!isRegex && c == '&') then delimited delimiter isRegex n (c :: done) rest
      else if c = 'n' ∧ isRegex then delimited delimiter isRegex n ('\n' :: done) rest
      else if c = '\n' ∧ isRegex then delimited delimiter isRegex n ('\n' :: done) rest
      else delimited delimiter isRegex n (c :: '\\' :: done) rest
    | c :: rest =>
      if c = delimiter then some (done.reverse, rest)
      else if c = '\n' ∧ isRegex then none
      else if c = '[' ∧ isRegex then
        match bracket (rest.length + 1) rest with
        | some inside =>
          let items := (rest.take inside).flatMap fun c => [c]
          delimited delimiter isRegex n (items.reverse ++ c :: done) (rest.drop inside)
        | none => none
      else delimited delimiter isRegex n (c :: done) rest
where
  bracket (fuel : Nat) (t : Bytes) : Option Nat :=
    let (front, t) : Nat × Bytes := match t with
      | '^' :: t => (1, t)
      | t => (0, t)
    let (front, t) : Nat × Bytes := match t with
      | ']' :: t => (front + 1, t)
      | t => (front, t)
    close fuel front t
  close : Nat → Nat → Bytes → Option Nat
    | 0, _, _ => none
    | n + 1, count, t =>
      match t with
      | [] => none
      | ']' :: _ => some (count + 1)
      | '[' :: c :: rest =>
        if ".:=".toList.contains c then
          match named c 2 rest with
          | some size => close n (count + size) (t.drop size)
          | none => none
        else close n (count + 1) (c :: rest)
      | _ :: rest => close n (count + 1) rest
  named (mark : Char) : Nat → Bytes → Option Nat
    | size, a :: b :: rest => if a = mark ∧ b = ']' then some (size + 2) else named mark (size + 1) (b :: rest)
    | _, _ => none

def replaceEscapes : Nat → Bytes → Bytes
  | 0, t => t
  | _ + 1, [] => []
  | n + 1, '\\' :: t => match controlEscape? t with
    | some (c, rest) =>
      let special := "$*.[\\]^".toList.contains c
      (if special then ['\\', c] else [c]) ++ replaceEscapes n rest
    | none => match t with
      | c :: rest => '\\' :: c :: replaceEscapes n rest
      | [] => ['\\']
  | n + 1, c :: t => c :: replaceEscapes n t

def bracketEscapes : Bool → Bytes → Bytes
  | _, [] => []
  | true, '\\' :: 'n' :: t => '\n' :: bracketEscapes true t
  | true, '\\' :: ']' :: t => '\\' :: ']' :: bracketEscapes false t
  | inside, c :: t =>
    c :: bracketEscapes (if inside then c != ']' else c == '[') t

def compile (t : Bytes) (ignoreCase multiline : Bool) : Read Pattern := do
  if t.isEmpty then return ⟨none, ignoreCase, multiline⟩
  let t := bracketEscapes false (replaceEscapes (t.length + 1) t)
  match Regex.ofText { extended := (← get).extended } t with
  | .ok r => return ⟨some r, ignoreCase, multiline⟩
  | .error message => fail message

def take (delimiter : Char) (isRegex : Bool) (words : String) : Read Bytes := do
  let s ← get
  match delimited delimiter isRegex (s.rest.length + 1) [] s.rest with
  | some (t, rest) =>
    set { s with rest, consumed := s.consumed + (s.rest.length - rest.length) }
    return t
  | none =>
    let line := if isRegex && s.rest.contains '\n' then s.rest.takeWhile (· != '\n') else s.rest
    set { s with rest := [], consumed := s.consumed + line.length }
    fail words

def addressPattern (delimiter : Char) : Read Pattern := do
  let t ← take delimiter true "unterminated address regex"
  let flags ← skipWhile fun c => c == 'I' || c == 'M'
  compile t (flags.contains 'I') (flags.contains 'M')

def address? : Read (Option Address) := do
  match ← peek? with
  | some '$' => do
    let _ ← next?
    return some .last
  | some '/' => do
    let _ ← next?
    return some (.fits (← addressPattern '/'))
  | some '\\' => do
    let _ ← next?
    match ← next? with
    | some d => return some (.fits (← addressPattern d))
    | none => fail "unexpected `,'"
  | some c =>
    if c.isDigit then
      let n ← number
      let _ ← skipWhile isBlank
      if (← peek?) = some '~' then
        let _ ← next?
        let step ← number
        return some (if step = 0 then .line n else .stepped n step)
      return some (.line n)
    else return none
  | none => return none

def stop? : Read (Option Stop) := do
  match ← peek? with
  | some '+' => do
    let _ ← next?
    return some (.more (← number))
  | some '~' => do
    let _ ← next?
    return some (.multiple (← number))
  | _ => match ← address? with
    | some (.line n) => return some (.line n)
    | some .last => return some .last
    | some (.fits p) => return some (.fits p)
    | some (.stepped n _) => return some (.line n)
    | none => return none

def pieces : Nat → Bytes → Bytes → List Piece
  | 0, done, _ => [.text done.reverse]
  | _ + 1, done, [] => if done.isEmpty then [] else [.text done.reverse]
  | n + 1, done, '&' :: t => flush done (.group 0 :: pieces n [] t)
  | n + 1, done, '\\' :: c :: t =>
    if c.isDigit then flush done (.group (c.toNat - 48) :: pieces n [] t)
    else if "LUElu".toList.contains c then flush done (.case c :: pieces n [] t)
    else if c = 'n' then pieces n ('\n' :: done) t
    else match controlEscape? (c :: t) with
      | some (d, rest) => pieces n (d :: done) rest
      | none => pieces n (c :: done) t
  | n + 1, done, c :: t => pieces n (c :: done) t
where
  flush (done : Bytes) (rest : List Piece) : List Piece :=
    if done.isEmpty then rest else .text done.reverse :: rest

def groupCount : Regex → Nat
  | .group number body => max number (groupCount body)
  | .both a b | .either a b => max (groupCount a) (groupCount b)
  | .repeated body _ _ => groupCount body
  | _ => 0

def endOfCommand : Read Unit := do
  let _ ← skipWhile isBlank
  match ← peek? with
  | none => return
  | some '}' | some '#' => return
  | some c => do
    let _ ← next?
    if c = '\n' ∨ c = ';' then return
    if c = '\r' then return
    fail "extra characters after command"

def fileName : Read Bytes := do
  let _ ← skipWhile isBlank
  let name ← skipWhile (· != '\n')
  if name.isEmpty then fail "missing filename in r/R/w/W commands"
  return name

def labelName : Read Bytes := do
  let _ ← skipWhile isBlank
  let name ← skipWhile fun c => c != '\n' && c != ';' && !Bytes.isSpace c && c != '}'
  return name

def substitutionFlags : Nat → Substitution → Bool → Bool → Bool → Read (Substitution × Bool × Bool)
  | 0, s, i, m, _ => return (s, i, m)
  | n + 1, s, i, m, numbered => do
    match ← peek? with
    | none => return (s, i, m)
    | some '}' | some '#' => return (s, i, m)
    | some c =>
      if c.isDigit then
        if numbered then
          let _ ← next?
          fail "multiple number options to `s' command"
        let k ← number
        if k = 0 then fail "number option to `s' command may not be zero"
        substitutionFlags n { s with number := k } i m true
      else
        let _ ← next?
        match c with
        | '\n' | ';' => return (s, i, m)
        | ' ' | '\t' | '\r' => substitutionFlags n s i m numbered
        | 'g' =>
          if s.globally then fail "multiple `g' options to `s' command"
          substitutionFlags n { s with globally := true } i m numbered
        | 'p' =>
          if s.print then fail "multiple `p' options to `s' command"
          substitutionFlags n { s with print := true } i m numbered
        | 'i' | 'I' => substitutionFlags n s true m numbered
        | 'm' | 'M' => substitutionFlags n s i true numbered
        | 'e' => substitutionFlags n s i m numbered
        | 'w' => do
          let file ← fileName
          return ({ s with file := some file }, i, m)
        | _ => fail "unknown option to `s'"

def substitution : Read Action := do
  match ← next? with
  | none => fail "unterminated `s' command"
  | some d => do
    let regex ← take d true "unterminated `s' command"
    let by_ ← take d false "unterminated `s' command"
    let s : Substitution := ⟨⟨none, false, false⟩, pieces (by_.length + 1) [] by_, false, 1, false, none⟩
    let (s, i, m) ← substitutionFlags ((← get).rest.length + 2) s false false false
    let pattern ← compile regex i m
    let most := s.pieces.foldl (fun n p => match p with
      | .group k => max n k
      | _ => n) 0
    match pattern.regex with
    | some r =>
      if groupCount r < most then
        fail ("invalid reference \\" ++ toString most ++ " on `s' command's RHS")
    | none => pure ()
    return .substitute { s with pattern }

def translationChars : Bytes → Bytes
  | '\\' :: '\\' :: t => '\\' :: translationChars t
  | '\\' :: 'n' :: t => '\n' :: translationChars t
  | '\\' :: 't' :: t => '\t' :: translationChars t
  | '\\' :: 'r' :: t => '\r' :: translationChars t
  | c :: t => c :: translationChars t
  | [] => []

def translation : Read Action := do
  match ← next? with
  | none => fail "unterminated `y' command"
  | some d => do
    let old ← take d false "unterminated `y' command"
    let new ← take d false "unterminated `y' command"
    let (a, b) := (translationChars old, translationChars new)
    if a.length ≠ b.length then fail "strings for `y' command are different lengths"
    endOfCommand
    return .translate (a.zip b)

def textBody : Nat → Bytes → Read Bytes
  | 0, done => return done.reverse
  | n + 1, done => do
    match ← next? with
    | none => return done.reverse
    | some '\n' => return done.reverse
    | some '\\' => do
      match ← next? with
      | none => return done.reverse
      | some c =>
        let s ← get
        match controlEscape? (c :: s.rest) with
        | some (d, rest) => do
          set { s with rest, consumed := s.consumed + (s.rest.length - rest.length) }
          textBody n (d :: done)
        | none => textBody n (c :: done)
    | some c => textBody n (c :: done)

def textArgument : Read Bytes := do
  let _ ← skipWhile isBlank
  match ← peek? with
  | none => fail "expected \\ after `a', `c' or `i'"
  | some '\\' => do
    let _ ← next?
    let s ← get
    let after := s.rest.dropWhile isBlank
    if after.head? = some '\n' then
      let _ ← skipWhile isBlank
      let _ ← next?
      let t ← textBody ((← get).rest.length + 1) []
      return t ++ ['\n']
    else if s.rest.isEmpty then return []
    else
      let t ← textBody (s.rest.length + 1) []
      return t ++ ['\n']
  | some _ => do
    let t ← textBody ((← get).rest.length + 1) []
    return t ++ ['\n']

def emit (i : Instruction) : Read Unit :=
  modify fun s => { s with script := { s.script with code := s.script.code.push i } }

def checkAddresses (c : Char) (i : Instruction) : Read Unit := do
  if c = ':' ∧ i.first.isSome then fail ": doesn't want any addresses"
  if c = '}' ∧ i.first.isSome then fail "\x7d doesn't want any addresses"
  if "=aiqQrR".toList.contains c ∧ i.second.isSome ∧ (c == 'q' || c == 'Q') then
    fail "command only uses one address"

def command (c : Char) (i : Instruction) : Read Unit := do
  checkAddresses c i
  let here := (← get).script.code.size
  let put (action : Action) : Read Unit := emit { i with action }
  match c with
  | '{' => do
    put (.open_ 0)
    modify fun s => { s with blocks := here :: s.blocks }
  | '}' => do
    match (← get).blocks with
    | [] => fail "unexpected `\x7d'"
    | start :: rest => do
      put .close
      modify fun s => { s with
        blocks := rest
        script := { s.script with code := s.script.code.modify start fun b =>
          { b with action := .open_ (here + 1) } } }
      endOfCommand
  | ':' => do
    let _ ← skipWhile isBlank
    let name ← skipWhile fun c => c != '\n' && c != ';' && !Bytes.isSpace c
    if name.isEmpty then fail "\":\" lacks a label"
    modify fun s => { s with script := { s.script with labels := (name, here) :: s.script.labels } }
    put .label
    endOfCommand
  | 's' => do put (← substitution)
  | 'y' => do put (← translation)
  | 'a' => do put (.append (← textArgument))
  | 'i' => do put (.insert (← textArgument))
  | 'c' => do put (.change (← textArgument))
  | 'r' => do put (.read (← fileName))
  | 'w' => do put (.write (← fileName))
  | 'b' | 't' | 'T' => do
    put (.jump c (← labelName))
    endOfCommand
  | 'q' | 'Q' => do
    let _ ← skipWhile isBlank
    put (.quit c (← number))
    endOfCommand
  | 'l' | 'L' => do
    let _ ← skipWhile isBlank
    let _ ← number
    put (.simple 'l')
    endOfCommand
  | 'v' => do
    let _ ← skipWhile fun c => c != '\n' && c != ';'
    put .label
  | c =>
    if "dDgGhHnNpPxzF=".toList.contains c then do
      put (.simple c)
      endOfCommand
    else fail ("unknown command: `" ++ String.ofList [c] ++ "'")

def instruction : Read Bool := do
  let _ ← skipWhile fun c => Bytes.isSpace c || c == ';'
  match ← peek? with
  | none => return false
  | some '#' => do
    let before ← get
    let line ← skipWhile (· != '\n')
    if before.consumed = 0 ∧ before.script.code.isEmpty ∧ line = ['#', 'n'] then
      modify fun s => { s with script := { s.script with quiet := true } }
    return true
  | some _ => do
    let first ← address?
    let second ← match first with
      | none => pure none
      | some _ => do
        let _ ← skipWhile isBlank
        if (← peek?) = some ',' then
          let _ ← next?
          let _ ← skipWhile isBlank
          match ← stop? with
          | some stop => pure (some stop)
          | none => do
            let _ ← next?
            fail "unexpected `,'"
        else pure none
    let _ ← skipWhile isBlank
    let negated ← if (← peek?) = some '!' then do
        let _ ← next?
        let _ ← skipWhile isBlank
        if (← peek?) = some '!' then
          let _ ← next?
          fail "multiple `!'s"
        pure true
      else pure false
    match ← next? with
    | none => fail "missing command"
    | some c => do
      if c = ',' ∧ first.isNone then fail "unexpected `,'"
      match first, second with
      | some (.line 0), some (.fits _) => pure ()
      | some (.line 0), _ => fail "invalid usage of line address 0"
      | _, _ => pure ()
      command c ⟨first, second, negated, .label⟩
      return true

def instructions : Nat → Read Unit
  | 0 => return
  | n + 1 => do
    if ← instruction then instructions n

def Script.extend (s : Script) (blocks : List Nat) (extended : Bool) (t : Bytes) :
    Except Fault (Script × List Nat) :=
  match (instructions (t.length + 1)).run { rest := t, script := s, blocks, extended } with
  | .ok () r => .ok (r.script, r.blocks)
  | .error f _ => .error f

end GrammarHeaders.Shell.Sed
