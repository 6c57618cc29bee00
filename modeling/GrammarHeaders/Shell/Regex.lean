import GrammarHeaders.Shell.Pattern

namespace GrammarHeaders.Shell

inductive Regex where
  | empty
  | char (c : Char)
  | any
  | oneOf (negated : Bool) (items : List Pattern.Item)
  | lineStart
  | lineEnd
  | wordStart
  | wordEnd
  | boundary (negated : Bool)
  | openLeft
  | openRight
  | group (number : Nat) (body : Regex)
  | again (number : Nat)
  | both (first second : Regex)
  | either (first second : Regex)
  | repeated (body : Regex) (least : Nat) (most : Option Nat)
  deriving Repr

namespace Regex

/-- How expressions are read. -/
structure Notation_ where
  extended : Bool := false
  controls : Bool := false

/-- Where reading has come to. -/
structure Reading where
  rest : Bytes
  groups : Nat := 0
  depth : Nat := 0

abbrev Read := ReaderT Notation_ (EStateM String Reading)

def peek : Read Bytes := return (← get).rest

def advance (n : Nat) : Read Unit := modify fun s => { s with rest := s.rest.drop n }

def isWordChar (c : Char) : Bool := c.isAlphanum || c == '_'

def wordItems : List Pattern.Item := [.named "alnum".toList, .range '_' '_']

def spaceItems : List Pattern.Item := [.named "space".toList]

def unmatchedBracket : String := "Unmatched [, [^, [:, [., or [="

def markedName? (mark : Char) (t : Bytes) : Option (Bytes × Bytes) :=
  let rec find (name : Bytes) : Bytes → Option (Bytes × Bytes)
    | a :: b :: rest => if a = mark ∧ b = ']' then some (name.reverse, rest) else find (a :: name) (b :: rest)
    | _ => none
  find [] t

def bracketChar (t : Bytes) : Except String (Char × Bytes) :=
  match t with
  | '[' :: '.' :: rest => match markedName? '.' rest with
    | some ([c], rest) => .ok (c, rest)
    | some _ => .error "Invalid collation character"
    | none => .error unmatchedBracket
  | c :: rest => .ok (c, rest)
  | [] => .error unmatchedBracket

def bracketItems : Nat → Bool → List Pattern.Item → Bytes → Except String (List Pattern.Item × Bytes)
  | 0, _, _, _ => .error unmatchedBracket
  | n + 1, first, items, t =>
    match t with
    | [] => .error (if first && items.isEmpty then "Invalid regular expression" else unmatchedBracket)
    | ']' :: rest => if first then element n items t else .ok (items.reverse, rest)
    | '[' :: ':' :: rest => match markedName? ':' rest with
      | some (name, rest) =>
        if Pattern.classNames.contains (String.ofList name) then
          bracketItems n false (.named name :: items) rest
        else .error "Invalid character class name"
      | none => .error unmatchedBracket
    | '[' :: '=' :: rest => match markedName? '=' rest with
      | some ([c], rest) => bracketItems n false (.range c c :: items) rest
      | _ => .error unmatchedBracket
    | t => element n items t
where
  element (n : Nat) (items : List Pattern.Item) (t : Bytes) :
      Except String (List Pattern.Item × Bytes) := do
    let (low, rest) ← bracketChar t
    match rest with
    | '-' :: ']' :: _ => bracketItems n false (.range low low :: items) rest
    | '-' :: high => do
      let (high, rest) ← bracketChar high
      if high < low then throw "Invalid range end"
      bracketItems n false (.range low high :: items) rest
    | rest => bracketItems n false (.range low low :: items) rest

def bracket : Read Regex := do
  let t ← peek
  let (negated, t) : Bool × Bytes := match t with
    | '^' :: t => (true, t)
    | t => (false, t)
  match bracketItems (t.length + 1) true [] t with
  | .error message => throw message
  | .ok (items, rest) =>
    modify fun s => { s with rest }
    return .oneOf negated items

/-- The bounds of a repetition, behind the opening brace. The closing brace has a backslash in the
basic notation. None means that the brace opens nothing. -/
def bounds : Read (Option (Nat × Option Nat)) := do
  let t ← peek
  let extended := (← read).extended
  let low := t.takeWhile Char.isDigit
  let t := t.drop low.length
  let (high, t) : Option Bytes × Bytes := match t with
    | ',' :: t => (some (t.takeWhile Char.isDigit), t.dropWhile Char.isDigit)
    | t => (none, t)
  let after? : Option Bytes := match extended, t with
    | true, '}' :: rest => some rest
    | false, '\\' :: '}' :: rest => some rest
    | _, _ => none
  match after? with
  | none =>
    if extended then return none
    throw (if t.isEmpty then "Unmatched \\\x7b" else "Invalid content of \\\x7b\\\x7d")
  | some rest =>
    if low.isEmpty && high.isNone then
      if extended then return none
      throw "Invalid content of \\\x7b\\\x7d"
    let least := Text.decimalValue low
    let most := match high with
      | none => some least
      | some [] => none
      | some ds => some (Text.decimalValue ds)
    if (most.map fun m => decide (m < least)).getD false then throw "Invalid content of \\\x7b\\\x7d"
    if 32767 < least ∨ 32767 < most.getD 0 then throw "Regular expression too big"
    modify fun s => { s with rest }
    return some (least, most)

def repetitions : Nat → Regex → Read Regex
  | 0, r => return r
  | n + 1, r => do
    let extended := (← read).extended
    match extended, ← peek with
    | _, '*' :: _ => do
      advance 1
      repetitions n (.repeated r 0 none)
    | true, '+' :: _ => do
      advance 1
      repetitions n (.repeated r 1 none)
    | true, '?' :: _ => do
      advance 1
      repetitions n (.repeated r 0 (some 1))
    | false, '\\' :: '+' :: _ => do
      advance 2
      repetitions n (.repeated r 1 none)
    | false, '\\' :: '?' :: _ => do
      advance 2
      repetitions n (.repeated r 0 (some 1))
    | true, '{' :: _ => do
      let before ← get
      advance 1
      match ← bounds with
      | some (least, most) => repetitions n (.repeated r least most)
      | none =>
        set before
        return r
    | false, '\\' :: '{' :: _ => do
      advance 2
      match ← bounds with
      | some (least, most) => repetitions n (.repeated r least most)
      | none => return r
    | _, _ => return r

def escaped (c : Char) : Read Regex := do
  match c with
  | 'w' => return .oneOf false wordItems
  | 'W' => return .oneOf true wordItems
  | 's' => return .oneOf false spaceItems
  | 'S' => return .oneOf true spaceItems
  | 'b' => return .boundary false
  | 'B' => return .boundary true
  | '<' => return .wordStart
  | '>' => return .wordEnd
  | c =>
    if c = '`' then return .lineStart
    if c = '\'' then return .lineEnd
    if '1' ≤ c ∧ c ≤ '9' then
      let n := c.toNat - 48
      if (← get).groups < n then throw "Invalid back reference"
      return .again n
    if (← read).controls then
      match c with
      | 'n' => return .char '\n'
      | 't' => return .char '\t'
      | 'r' => return .char '\r'
      | 'f' => return .char '\x0c'
      | 'v' => return .char '\x0b'
      | 'a' => return .char '\x07'
      | _ => return .char c
    return .char c

/-- An expression without repetition, to a depth; `inner` reads what stands in a group. None is
given at the end of a branch. -/
def atom (inner : Read Regex) (first : Bool) : Read (Option Regex) := do
  let extended := (← read).extended
  let s ← get
  let group (width : Nat) : Read (Option Regex) := do
    modify fun s => { s with rest := s.rest.drop width, groups := s.groups + 1, depth := s.depth + 1 }
    let number := (← get).groups
    let body ← inner
    let closing : Nat := match extended, (← get).rest with
      | true, ')' :: _ => 1
      | false, '\\' :: ')' :: _ => 2
      | _, _ => 0
    if closing = 0 then throw "Unmatched ( or \\("
    modify fun s => { s with rest := s.rest.drop closing, depth := s.depth - 1 }
    return some (.group number body)
  let plain (width : Nat) (r : Regex) : Read (Option Regex) := do
    advance width
    return some r
  match extended, s.rest with
  | _, [] => return none
  | true, '|' :: _ => return none
  | false, '\\' :: '|' :: _ => return none
  | true, ')' :: _ => if s.depth = 0 then plain 1 (.char ')') else return none
  | false, '\\' :: ')' :: _ => if s.depth = 0 then throw "Unmatched ) or \\)" else return none
  | true, '(' :: _ => group 1
  | false, '\\' :: '(' :: _ => group 2
  | _, '[' :: _ => do
    advance 1
    return some (← bracket)
  | _, '.' :: _ => plain 1 .any
  | true, '^' :: _ => plain 1 .lineStart
  | false, '^' :: _ => plain 1 (if first then .lineStart else .char '^')
  | true, '$' :: _ => plain 1 .lineEnd
  | false, '$' :: rest => plain 1 (match rest with
    | [] | '\\' :: ')' :: _ | '\\' :: '|' :: _ => .lineEnd
    | _ => .char '$')
  | true, '*' :: _ => plain 1 (if first then .empty else .char '*')
  | true, '+' :: _ => plain 1 (if first then .empty else .char '+')
  | true, '?' :: _ => plain 1 (if first then .empty else .char '?')
  | false, '\\' :: '{' :: _ => do
    if first then throw "Invalid preceding regular expression"
    plain 2 (.char '{')
  | _, ['\\'] => throw "Trailing backslash"
  | _, '\\' :: c :: _ => do
    advance 2
    return some (← escaped c)
  | _, c :: _ => plain 1 (.char c)

def isAnchor : Regex → Bool
  | .lineStart => true
  | _ => false

def branch (inner : Read Regex) : Nat → Bool → Regex → Read Regex
  | 0, _, done => return done
  | n + 1, first, done => do
    match ← atom inner first with
    | none => return done
    | some r => do
      let starred := (← peek).head? == some '*'
      let extended := (← read).extended
      if !extended && first && isAnchor r && starred then
        -- A star behind the start of a line stands for itself.
        advance 1
        let star ← repetitions ((← peek).length + 1) (.char '*')
        branch inner n false (.both (.both done r) star)
      else
        let r ← repetitions ((← peek).length + 1) r
        branch inner n false (match done with
          | .empty => r
          | done => .both done r)

def branches (inner : Read Regex) : Nat → Read Regex
  | 0 => return .empty
  | n + 1 => do
    let first ← branch inner ((← peek).length + 1) true .empty
    match (← read).extended, ← peek with
    | true, '|' :: _ => do
      advance 1
      return .either first (← branches inner n)
    | false, '\\' :: '|' :: _ => do
      advance 2
      return .either first (← branches inner n)
    | _, _ => return first

def expression : Nat → Read Regex
  | 0 => throw "Regular expression too big"
  | n + 1 => do branches (expression n) ((← peek).length + 1)

def ofText (how : Notation_) (t : Bytes) : Except String Regex :=
  match (expression (t.length + 1) how).run { rest := t } with
  | .error message _ => .error message
  | .ok r _ => .ok r

/-- What groups have matched: from where to where. -/
abbrev Captures := List (Nat × Nat × Nat)

/-- The longest match so far, and how many steps may still be taken. -/
structure Attempt where
  best : Option (Nat × Captures) := none
  steps : Nat

/-- What a match is sought in. -/
structure Subject where
  text : Array Char
  ignoreCase : Bool := false
  multiline : Bool := false

abbrev Next := Nat → Captures → Attempt → Attempt

namespace Subject

def at? (s : Subject) (i : Nat) : Option Char := s.text[i]?

def same (s : Subject) (a b : Char) : Bool :=
  a == b || (s.ignoreCase && a.toLower == b.toLower)

def isWordAt (s : Subject) (i : Nat) : Bool := ((s.at? i).map isWordChar).getD false

def wordBefore (s : Subject) (i : Nat) : Bool := i != 0 && s.isWordAt (i - 1)

def inItems (s : Subject) (items : List Pattern.Item) (c : Char) : Bool :=
  items.any (Pattern.Item.has c) ||
    (s.ignoreCase && (items.any (Pattern.Item.has c.toLower) || items.any (Pattern.Item.has c.toUpper)))

def settled (s : Subject) (a : Attempt) : Bool :=
  a.steps == 0 || (match a.best with
    | some (stop, _) => stop == s.text.size
    | none => false)

def when_ (a : Attempt) (condition : Bool) (go : Attempt → Attempt) : Attempt :=
  let a := { a with steps := a.steps - 1 }
  if condition && a.steps != 0 then go a else a

def sameParts (s : Subject) (i j n : Nat) : Bool :=
  (List.range n).all fun k => match s.at? (i + k), s.at? (j + k) with
    | some a, some b => s.same a b
    | _, _ => false

end Subject

def repeatMatch (s : Subject) (once : Nat → Captures → Next → Attempt → Attempt) (least : Nat)
    (most : Option Nat) : Nat → Nat → Nat → Captures → Next → Attempt → Attempt
  | 0, _, i, c, k, a => k i c a
  | n + 1, count, i, c, k, a =>
    let more := (most.map fun m => decide (count < m)).getD true
    let a := if !more then a else
      once i c (fun j c a =>
        if j = i ∧ least ≤ count then a
        else repeatMatch s once least most n (count + 1) j c k a) a
    if s.settled a || decide (count < least) then a else k i c a

def step (s : Subject) : Regex → Nat → Captures → Next → Attempt → Attempt
  | .empty, i, c, k, a => k i c a
  | .char d, i, c, k, a =>
    Subject.when_ a (((s.at? i).map (s.same d)).getD false) (k (i + 1) c)
  | .any, i, c, k, a => Subject.when_ a (s.at? i).isSome (k (i + 1) c)
  | .oneOf negated items, i, c, k, a =>
    Subject.when_ a (((s.at? i).map fun d => s.inItems items d != negated).getD false) (k (i + 1) c)
  | .lineStart, i, c, k, a =>
    Subject.when_ a (i == 0 || (s.multiline && s.at? (i - 1) == some '\n')) (k i c)
  | .lineEnd, i, c, k, a =>
    Subject.when_ a (i == s.text.size || (s.multiline && s.at? i == some '\n')) (k i c)
  | .wordStart, i, c, k, a => Subject.when_ a (!s.wordBefore i && s.isWordAt i) (k i c)
  | .wordEnd, i, c, k, a => Subject.when_ a (s.wordBefore i && !s.isWordAt i) (k i c)
  | .boundary negated, i, c, k, a =>
    Subject.when_ a ((s.wordBefore i != s.isWordAt i) != negated) (k i c)
  | .openLeft, i, c, k, a => Subject.when_ a (!s.wordBefore i) (k i c)
  | .openRight, i, c, k, a => Subject.when_ a (!s.isWordAt i) (k i c)
  | .group number body, i, c, k, a =>
    step s body i c (fun j c a => k j ((number, i, j) :: c.filter fun g => g.1 != number) a) a
  | .again number, i, c, k, a => match c.lookup number with
    | none => a
    | some (start, stop) =>
      Subject.when_ a (s.sameParts start i (stop - start)) (k (i + (stop - start)) c)
  | .both first second, i, c, k, a => step s first i c (fun j c a => step s second j c k a) a
  | .either first second, i, c, k, a =>
    let a := step s first i c k a
    if s.settled a then a else step s second i c k a
  | .repeated body least most, i, c, k, a =>
    repeatMatch s (step s body) least most (s.text.size + 2 + least) 0 i c k a

def stepLimit : Nat := 100000

/-- A match: from where to where, with what the groups have matched. -/
structure Match where
  start : Nat
  stop : Nat
  groups : Captures

def matchAt? (r : Regex) (s : Subject) (i : Nat) : Option Match :=
  let keep : Next := fun j c a => match a.best with
    | some (stop, _) => if stop < j then { a with best := some (j, c) } else a
    | none => { a with best := some (j, c) }
  (step s r i [] keep { steps := stepLimit }).best.map fun (stop, groups) => ⟨i, stop, groups⟩

def matchFrom? (r : Regex) (s : Subject) : Nat → Nat → Option Match
  | 0, _ => none
  | n + 1, i => match matchAt? r s i with
    | some m => some m
    | none => if s.text.size ≤ i then none else matchFrom? r s n (i + 1)

def literal : Bytes → Regex
  | [] => .empty
  | [c] => .char c
  | c :: t => .both (.char c) (literal t)

def find? (r : Regex) (s : Subject) (i : Nat) : Option Match :=
  matchFrom? r s (s.text.size + 2 - i) i

def Match.text (m : Match) (s : Subject) (number : Nat) : Bytes :=
  let part (i j : Nat) : Bytes := (s.text.extract i j).toList
  if number = 0 then part m.start m.stop
  else match m.groups.lookup number with
    | some (i, j) => part i j
    | none => []

end Regex

end GrammarHeaders.Shell
