import GrammarHeaders.Shell.Format
import GrammarHeaders.Shell.Host

namespace GrammarHeaders.Shell.Builtin.Test

inductive Operator where
  | unary (letter : Char)
  | binary (name : Bytes)
  | not
  | and
  | or
  | leftParen
  | rightParen
  deriving DecidableEq, Repr

def binaryNames : List String :=
  ["=", "!=", "<", ">", "-eq", "-ne", "-ge", "-gt", "-le", "-lt", "-nt", "-ot", "-ef"]

def operator? (t : Bytes) : Option Operator :=
  match t with
  | ['!'] => some .not
  | ['('] => some .leftParen
  | [')'] => some .rightParen
  | ['-', 'a'] => some .and
  | ['-', 'o'] => some .or
  | ['-', c] => if "rwxefdcbpugkstznhLOGS".toList.contains c then some (.unary c) else none
  | t => if binaryNames.contains (String.ofList t) then some (.binary t) else none

def isBinary : Option Operator → Bool
  | some (.binary _) => true
  | _ => false

/-- What the next word is: nothing, an operator, or an operand. -/
inductive Token where
  | none
  | operator (op : Operator)
  | operand
  deriving DecidableEq, Repr

def scan : List Bytes → Token
  | [] => .none
  | t :: rest =>
    let isOperand : Bool := match rest with
      | [] => true
      | [_] => false
      | next :: _ => isBinary (operator? next)
    match operator? t with
    | .none => .operand
    | some (.unary c) => if isOperand then .operand else .operator (.unary c)
    | some .leftParen => if rest.isEmpty then .operand else .operator .leftParen
    | some op => .operator op

/-- Why a condition cannot be checked. -/
abbrev Check := EStateM Bytes (List Bytes)

def wrong {α : Type} (op : Bytes) (message : String) : Check α :=
  throw (if op.isEmpty then message.toList else op ++ ": ".toList ++ message.toList)

def number (t : Bytes) : Check Int :=
  let trimmed := (Bytes.dropEndWhile Bytes.isSpace t).dropWhile Bytes.isSpace
  let (negative, ds) : Bool × Bytes := match trimmed with
    | '-' :: ds => (true, ds)
    | '+' :: ds => (false, ds)
    | ds => (false, ds)
  if Bytes.isNumber ds then
    let n : Int := Text.decimalValue ds
    pure (if negative then -n else n)
  else throw ("Illegal number: ".toList ++ t)

def fileHas (d : Disk) (c : Char) (t : Bytes) : Bool :=
  let path := Host.pathOf t
  let follow := c != 'h' && c != 'L'
  match d.entryAt path follow with
  | .error _ => false
  | .ok (_, entry) => match c, entry with
    | 'f', .file .. => true
    | 'd', .directory => true
    | 'h', .link _ => true
    | 'L', .link _ => true
    | 'c', .device _ => true
    | 's', .file content _ => !content.bytes.isEmpty
    | 's', .directory => true
    | 'x', .file _ executable => executable
    | 'x', .directory => true
    | c, _ => "erwOG".toList.contains c

def fileLocation? (d : Disk) (t : Bytes) : Option Location :=
  match d.entryAt (Host.pathOf t) true with
  | .ok (l, _) => some l
  | .error _ => none

def compareTexts (name a b : Bytes) (d : Disk) : Check Bool := do
  let numbers (p : Int → Int → Bool) : Check Bool := do return p (← number a) (← number b)
  match String.ofList name with
  | "=" => return a == b
  | "!=" => return a != b
  | "<" => return a != b && Bytes.le a b
  | ">" => return a != b && Bytes.le b a
  | "-eq" => numbers (· == ·)
  | "-ne" => numbers (· != ·)
  | "-ge" => numbers (fun x y => decide (y ≤ x))
  | "-gt" => numbers (fun x y => decide (y < x))
  | "-le" => numbers (fun x y => decide (x ≤ y))
  | "-lt" => numbers (fun x y => decide (x < y))
  -- All files are of the same age.
  | "-nt" | "-ot" => return false
  | _ => return (fileLocation? d a).isSome && fileLocation? d a == fileLocation? d b

def here : Check Bytes := return (← get).headD []

def advance : Check Unit := modify List.tail

def primary (d : Disk) (inner : Token → Check Bool) (t : Token) : Check Bool := do
  match t with
  | .none => return false
  | .operator .leftParen => do
    advance
    let t := scan (← get)
    if t = .operator .rightParen then return false
    let result ← inner t
    advance
    if scan (← get) = .operator .rightParen then return result
    wrong [] "closing paren expected"
  | .operator (.unary c) => do
    advance
    match ← get with
    | [] => wrong ['-', c] "argument expected"
    | operand :: _ => match c with
      | 'z' => return operand.isEmpty
      | 'n' => return !operand.isEmpty
      | 't' => do
        let _ ← number operand
        return false
      | c => return fileHas d c operand
  | _ => match (← get).drop 1 with
    | next :: rest => match operator? next with
      | some (.binary name) => do
        let a ← here
        match rest with
        | [] => wrong name "argument expected"
        | b :: _ => do
          advance
          advance
          compareTexts name a b d
      | _ => return !(← here).isEmpty
    | [] => return !(← here).isEmpty

def negated (d : Disk) (inner : Token → Check Bool) : Nat → Token → Check Bool
  | 0, t => primary d inner t
  | n + 1, t => do
    if t ≠ .operator .not then primary d inner t
    else
      let t := scan ((← get).drop 1)
      if t ≠ .none then advance
      return !(← negated d inner n t)

def joined (op : Operator) (next : Token → Check Bool) (combine : Bool → Bool → Bool) :
    Nat → Token → Check Bool
  | 0, t => next t
  | n + 1, t => do
    let first ← next t
    let rest := (← get).drop 1
    if scan rest ≠ .operator op then return first
    advance
    advance
    return combine first (← joined op next combine n (scan (← get)))

def condition (d : Disk) : Nat → Token → Check Bool
  | 0, _ => return false
  | n + 1, t => do
    let size := (← get).length + 1
    let conjunction := joined .and (negated d (condition d n) size) (· && ·) size
    joined .or conjunction (· || ·) size t

def check (d : Disk) : Nat → List Bytes → Except Bytes Bool
  | 0, _ => .ok false
  | n + 1, words =>
    let finish (words : List Bytes) (t : Token) : Except Bytes Bool :=
      match (condition d (words.length + 1) t).run words with
      | .error message _ => .error message
      | .ok result (last :: _ :: _) => match (wrong last "unexpected operator" : Check Bool).run [] with
        | .error message _ => .error message
        | .ok _ _ => .ok result
      | .ok result _ => .ok result
    let general : Except Bytes Bool :=
      match words.length, words with
      | 3, first :: rest | 4, first :: rest =>
        if first = ['('] ∧ rest.getLast? = some [')'] then
          let inner := rest.dropLast
          finish inner (scan inner)
        else if first = ['!'] then (check d n rest).map (! ·)
        else finish words (scan words)
      | _, _ => finish words (scan words)
    match words with
    | [] => .ok false
    | [_, op, _] => if isBinary (operator? op) then finish words .operand else general
    | _ => general

def run (d : Disk) (name : Bytes) (args : List Bytes) : Except Bytes Bool :=
  if name.head? = some '[' then
    match args.getLast? with
    | some (']' :: _) => check d (args.length + 1) args.dropLast
    | _ => .error "missing ]".toList
  else check d (args.length + 1) args

end GrammarHeaders.Shell.Builtin.Test
