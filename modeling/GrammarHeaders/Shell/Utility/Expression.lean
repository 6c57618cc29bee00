import GrammarHeaders.Shell.Builtin.Test
import GrammarHeaders.Shell.Regex
import GrammarHeaders.Shell.Utility.Printing

namespace GrammarHeaders.Shell.Utility

open Shell.Options

namespace Expression

/-- The arguments that are left, and the one that was read last. -/
structure Reading where
  rest : List Bytes
  last : Bytes := []

abbrev Eval := EStateM Bytes Reading

def wrong {α : Type} (words : String) (t : Bytes) : Eval α :=
  throw ("syntax error: ".toList ++ words.toList ++ Quoting.words t)

def next : Eval Bytes := do
  let s ← get
  match s.rest with
  | [] => wrong "missing argument after " s.last
  | t :: rest =>
    set (⟨rest, t⟩ : Reading)
    return t

def take? (names : List String) : Eval (Option String) := do
  let s ← get
  match s.rest with
  | t :: rest =>
    let name := String.ofList t
    if names.contains name then
      set (⟨rest, t⟩ : Reading)
      return some name
    return none
  | [] => return none

def integer? (t : Bytes) : Option Int :=
  match t with
  | '-' :: ds => if Bytes.isNumber ds then some (-(Text.decimalValue ds : Int)) else none
  | ds => if Bytes.isNumber ds then some (Text.decimalValue ds) else none

def isNull (t : Bytes) : Bool := t.isEmpty || integer? t == some 0

def ofBool (b : Bool) : Bytes := if b then ['1'] else ['0']

def matched (t pattern : Bytes) : Eval Bytes := do
  match Regex.ofText {} pattern with
  | .error message => throw message.toList
  | .ok r =>
    let subject : Regex.Subject := { text := t.toArray }
    let grouped := pattern.zip pattern.tail |>.any fun (a, b) => a == '\\' && b == '('
    match r.matchAt? subject 0 with
    | some m => return if grouped then m.text subject 1 else Bytes.ofNat m.stop
    | none => return if grouped then [] else ['0']

def arithmetic (op : String) (a b : Bytes) : Eval Bytes := do
  match integer? a, integer? b with
  | some x, some y =>
    if (op = "/" ∨ op = "%") ∧ y = 0 then throw "division by zero".toList
    return Bytes.ofInt (match op with
      | "+" => x + y
      | "-" => x - y
      | "*" => x * y
      | "/" => x.tdiv y
      | _ => x.tmod y)
  | _, _ => throw "non-integer argument".toList

def compareTexts (op : String) (a b : Bytes) : Bytes :=
  let o : Ordering := match integer? a, integer? b with
    | some x, some y => compare x y
    | _, _ => if a = b then .eq else if Bytes.le a b then .lt else .gt
  ofBool (match op with
    | "<" => o == .lt
    | "<=" => o != .gt
    | "=" | "==" => o == .eq
    | "!=" => o != .eq
    | ">=" => o != .lt
    | _ => o == .gt)

def chain (names : List String) (operand : Eval Bytes) (apply : String → Bytes → Bytes → Eval Bytes) :
    Nat → Bytes → Eval Bytes
  | 0, a => return a
  | n + 1, a => do
    match ← take? names with
    | none => return a
    | some op => chain names operand apply n (← apply op a (← operand))

def primary (operand inner : Eval Bytes) : Eval Bytes := do
  let t ← next
  match String.ofList t with
  | "(" => do
    let value ← inner
    match ← take? [")"] with
    | some _ => return value
    | none => do
      let s ← get
      match s.rest with
      | found :: _ => throw ("syntax error: expecting ')' instead of ".toList ++ Quoting.words found)
      | [] => wrong "expecting ')' after " s.last
  | ")" => throw "syntax error: unexpected ')'".toList
  | "+" => next
  | "length" => return Bytes.ofNat (← operand).length
  | "match" => do
    let subject ← operand
    matched subject (← operand)
  | "index" => do
    let subject ← operand
    let chars ← operand
    let front := subject.takeWhile fun c => !chars.contains c
    return Bytes.ofNat (if front.length < subject.length then front.length + 1 else 0)
  | "substr" => do
    let subject ← operand
    let start ← operand
    let size ← operand
    match integer? start, integer? size with
    | some i, some n =>
      if i ≤ 0 ∨ n ≤ 0 then return []
      return (subject.drop (i.toNat - 1)).take n.toNat
    | _, _ => return []
  | _ => return t

def whole : Nat → Eval Bytes
  | 0 => throw "syntax error".toList
  | n + 1 => do
    let size := (← get).rest.length + 1
    let inner := whole n
    let rec simple : Nat → Eval Bytes
      | 0 => next
      | k + 1 => primary (simple k) inner
    let term := simple size
    let colons : Eval Bytes := do chain [":"] term (fun _ a b => matched a b) size (← term)
    let products : Eval Bytes := do chain ["*", "/", "%"] colons arithmetic size (← colons)
    let sums : Eval Bytes := do chain ["+", "-"] products arithmetic size (← products)
    let comparisons : Eval Bytes := do
      chain ["<", "<=", "=", "==", "!=", ">=", ">"] sums (fun op a b => pure (compareTexts op a b)) size
        (← sums)
    let both : Eval Bytes := do
      chain ["&"] comparisons (fun _ a b => pure (if isNull a || isNull b then ['0'] else a)) size
        (← comparisons)
    chain ["|"] both (fun _ a b => pure (if !isNull a then a else if isNull b then ['0'] else b)) size
      (← both)

end Expression

open Expression in
def expr (args : List Bytes) : Task Nat := do
  let args := if args.head? = some ['-', '-'] then args.tail else args
  if args.isEmpty then missingOperand 2
  let action : Eval Bytes := do
    let value ← whole (args.length + 1)
    match (← get).rest with
    | [] => return value
    | extra :: _ => wrong "unexpected argument " extra
  match action.run ⟨args, []⟩ with
  | .error message _ => Task.fail 2 message
  | .ok value _ =>
    Task.writeLine value
    return if isNull value then 1 else 0

namespace Condition

/-- The arguments, and how far they have been read. -/
structure Reading where
  args : Array Bytes
  place : Nat := 0

abbrev Check := ReaderT Disk (EStateM Bytes Reading)

def at? (offset : Nat) : Check (Option Bytes) := do
  let s ← get
  return s.args[s.place + offset]?

def beyond {α : Type} : Check α := do
  throw ("missing argument after ".toList ++ Quoting.words ((← get).args.back?.getD []))

def here : Check Bytes := do
  match ← at? 0 with
  | some t => return t
  | none => beyond

def advance (needed : Bool) : Check Unit := do
  modify fun s => { s with place := s.place + 1 }
  if needed && (← at? 0).isNone then beyond

def isBinary (t : Bytes) : Bool :=
  ["=", "==", "!=", "-nt", "-ot", "-ef", "-eq", "-ne", "-lt", "-le", "-gt", "-ge"].contains (String.ofList t)

def integer (t : Bytes) : Check Int := do
  let trimmed := (Bytes.dropEndWhile Bytes.isSpace t).dropWhile Bytes.isSpace
  let body := if trimmed.head? = some '+' then trimmed.drop 1 else trimmed
  match Expression.integer? body with
  | some n => return n
  | none => throw ("invalid integer ".toList ++ Quoting.words t)

def fileTest (c : Char) (path : Bytes) : Check Bool := do
  let d ← read
  return Builtin.Test.fileHas d c path

def oneArgument : Check Bool := do
  let t ← here
  advance false
  return !t.isEmpty

def unary : Check Bool := do
  let t ← here
  let c := (t.drop 1).headD ' '
  if !"abcdefgGhkLNOprsStuwxnz".toList.contains c ∨ c = 'a' then
    throw (Quoting.words t ++ ": unary operator expected".toList)
  advance true
  let operand ← here
  advance false
  match c with
  | 'n' => return !operand.isEmpty
  | 'z' => return operand.isEmpty
  | 't' => do
    let _ ← integer operand
    return false
  | c => fileTest c operand

def binary (lengthOfFirst : Bool) : Check Bool := do
  if lengthOfFirst then advance false
  let a ← here
  advance true
  let op ← here
  advance true
  let b ← here
  let (b, lengthOfSecond) ← if b = ['-', 'l'] ∧ (← at? 1).isSome then do
      advance false
      pure (← here, true)
    else pure (b, false)
  advance false
  let d ← read
  let number (isLength : Bool) (t : Bytes) : Check Int := if isLength then pure t.length else integer t
  let numbers (p : Int → Int → Bool) : Check Bool := do
    let x ← number lengthOfFirst a
    return p x (← number lengthOfSecond b)
  let place (t : Bytes) := Builtin.Test.fileLocation? d t
  match String.ofList op with
  | "=" | "==" => return a == b
  | "!=" => return a != b
  | "-nt" => return (place a).isSome && (place b).isNone
  | "-ot" => return (place a).isNone && (place b).isSome
  | "-ef" => return (place a).isSome && place a == place b
  | "-eq" => numbers (· == ·)
  | "-ne" => numbers (· != ·)
  | "-lt" => numbers fun x y => decide (x < y)
  | "-le" => numbers fun x y => decide (x ≤ y)
  | "-gt" => numbers fun x y => decide (y < x)
  | _ => numbers fun x y => decide (y ≤ x)

def isSwitch (t : Bytes) : Bool := t.length == 2 && t.head? == some '-'

def twoArguments : Check Bool := do
  let t ← here
  if t = ['!'] then
    advance true
    return !(← oneArgument)
  if isSwitch t then unary else beyond

def byCount (general : Check Bool) (count : Nat) : Check Bool := do
  let t := (← at? 0).getD []
  let three : Check Bool := do
    let t := (← at? 0).getD []
    let op := (← at? 1).getD []
    if isBinary op then binary false
    else if t = ['!'] then
      advance true
      return !(← twoArguments)
    else if t = ['('] ∧ (← at? 2) = some [')'] then
      advance false
      let value ← oneArgument
      advance false
      return value
    else if op = ['-', 'a'] ∨ op = ['-', 'o'] then general
    else throw (Quoting.words op ++ ": binary operator expected".toList)
  match count with
  | 0 => beyond
  | 1 => oneArgument
  | 2 => twoArguments
  | 3 => three
  | 4 =>
    if t = ['!'] then
      advance true
      return !(← three)
    else if t = ['('] ∧ (← at? 3) = some [')'] then
      advance false
      let value ← twoArguments
      advance false
      return value
    else general
  | _ => general

def term (general : Check Bool) : Nat → Check Bool
  | 0 => beyond
  | n + 1 => do
    let t ← here
    if t = ['!'] then
      advance true
      return !(← term general n)
    if t = ['('] then
      advance true
      let s ← get
      let rest := (s.args.toList.drop (s.place + 1))
      let inside := (rest.takeWhile (· != [')'])).length
      let count := if inside < 3 ∧ inside < rest.length then inside + 1 else s.args.size - s.place
      let value ← byCount general count
      match ← at? 0 with
      | none => throw (Quoting.words [')'] ++ " expected".toList)
      | some found =>
        if found ≠ [')'] then
          throw (Quoting.words [')'] ++ " expected, found ".toList ++ Quoting.words found)
        advance false
        return value
    let left := (← get).args.size - (← get).place
    if 4 ≤ left ∧ t = ['-', 'l'] ∧ isBinary ((← at? 2).getD []) then binary true
    else if 3 ≤ left ∧ isBinary ((← at? 1).getD []) then binary false
    else if isSwitch t then unary
    else
      advance false
      return !t.isEmpty

def joined (op : Char) (operand : Check Bool) (combine : Bool → Bool → Bool) : Nat → Bool → Check Bool
  | 0, value => return value
  | n + 1, value => do
    if (← at? 0) = some ['-', op] then
      advance false
      let other ← operand
      joined op operand combine n (combine value other)
    else return value

def general : Nat → Check Bool
  | 0 => beyond
  | n + 1 => do
    let size := (← get).args.size + 1
    let simple := term (general n) size
    let both : Check Bool := do joined 'a' simple (· && ·) size (← simple)
    joined 'o' both (· || ·) size (← both)

def evaluate (d : Disk) (args : List Bytes) : Except Bytes Bool :=
  let action : Check Bool := do
    let value ← byCount (general (args.length + 1)) args.length
    match ← at? 0 with
    | some extra => throw ("extra argument ".toList ++ Quoting.words extra)
    | none => return value
  if args.isEmpty then .ok false
  else match (action d).run { args := args.toArray } with
    | .ok value _ => .ok value
    | .error message _ => .error message

end Condition

def condition (args : List Bytes) : Task Nat := do
  match Condition.evaluate (← Task.disk) args with
  | .ok true => return 0
  | .ok false => return 1
  | .error message => Task.fail 2 message

def bracketed (args : List Bytes) : Task Nat := do
  if args.getLast? = some [']'] then condition args.dropLast
  else Task.fail 2 "missing ']'".toList

end GrammarHeaders.Shell.Utility
