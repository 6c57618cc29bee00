import GrammarHeaders.Shell.Bytes

namespace GrammarHeaders.Shell.Arithmetic

def wrap (n : Int) : Int := n.bmod (Nat.pow 2 64)

def greatest : Int := Nat.pow 2 63 - 1

def digitValue (c : Char) : Nat :=
  if c.isDigit then c.toNat - 48
  else if 'a' ≤ c ∧ c ≤ 'z' then c.toNat - 87
  else if 'A' ≤ c ∧ c ≤ 'Z' then c.toNat - 55
  else 99

def digits (base : Nat) (t : Bytes) : Nat × Bytes :=
  let ds := t.takeWhile fun c => digitValue c < base
  (ds.foldl (fun n c => base * n + digitValue c) 0, t.drop ds.length)

def number (t : Bytes) : Nat × Bytes :=
  match t with
  | '0' :: x :: d :: rest =>
    if (x = 'x' ∨ x = 'X') ∧ digitValue d < 16 then digits 16 (d :: rest) else digits 8 t
  | '0' :: _ => digits 8 t
  | t => digits 10 t

def ofText? (t : Bytes) : Option Int :=
  let t := t.dropWhile Bytes.isSpace
  let (negative, t) : Bool × Bytes := match t with
    | '-' :: t => (true, t)
    | '+' :: t => (false, t)
    | t => (false, t)
  if !(t.head?.map Char.isDigit).getD false then none
  else
    let (n, rest) := number t
    let n : Int := if negative then -(n : Int) else n
    if (rest.dropWhile Bytes.isSpace).isEmpty ∧ n ≤ greatest ∧ -greatest - 1 ≤ n then some n else none

inductive Binary where
  | mul | div | mod | add | sub | left | right | lt | le | gt | ge | eq | ne | bitAnd | bitXor | bitOr
  deriving DecidableEq, Repr

def Binary.precedence : Binary → Nat
  | mul | div | mod => 0
  | add | sub => 1
  | left | right => 2
  | lt | le | gt | ge => 3
  | eq | ne => 4
  | bitAnd => 5
  | bitXor => 6
  | bitOr => 7

inductive Token where
  | number (n : Int)
  | name (t : Bytes)
  | binary (op : Binary)
  | assign (op : Option Binary)
  | and
  | or
  | not
  | bitNot
  | question
  | colon
  | leftParen
  | rightParen
  | unknown
  deriving DecidableEq, Repr

def assignable (op : Binary) (t : Bytes) : Token × Bytes :=
  match t with
  | '=' :: rest => (.assign (some op), rest)
  | rest => (.binary op, rest)

def scan (c : Char) (t : Bytes) : Token × Bytes :=
  match c, t with
  | '=', '=' :: t => (.binary .eq, t)
  | '=', t => (.assign none, t)
  | '>', '=' :: t => (.binary .ge, t)
  | '>', '>' :: t => assignable .right t
  | '>', t => (.binary .gt, t)
  | '<', '=' :: t => (.binary .le, t)
  | '<', '<' :: t => assignable .left t
  | '<', t => (.binary .lt, t)
  | '|', '|' :: t => (.or, t)
  | '|', t => assignable .bitOr t
  | '&', '&' :: t => (.and, t)
  | '&', t => assignable .bitAnd t
  | '!', '=' :: t => (.binary .ne, t)
  | '!', t => (.not, t)
  | '(', t => (.leftParen, t)
  | ')', t => (.rightParen, t)
  | '*', t => assignable .mul t
  | '/', t => assignable .div t
  | '%', t => assignable .mod t
  | '+', t => assignable .add t
  | '-', t => assignable .sub t
  | '^', t => assignable .bitXor t
  | '~', t => (.bitNot, t)
  | '?', t => (.question, t)
  | ':', t => (.colon, t)
  | c, t =>
    if c.isDigit then
      let (n, rest) := number (c :: t)
      (.number (min (n : Int) greatest), rest)
    else if Bytes.isNameStart c then
      let name := (c :: t).takeWhile Bytes.isNameChar
      (.name name, (c :: t).drop name.length)
    else (.unknown, t)

def tokens : Nat → Bytes → List Token
  | 0, _ => []
  | _ + 1, [] => []
  | n + 1, c :: t =>
    if c = ' ' ∨ c = '\t' ∨ c = '\n' then tokens n t
    else
      let (token, rest) := scan c t
      token :: tokens n rest

/-- Why an expression has no value. -/
inductive Fault where
  | expression (words : String)
  | illegalNumber (value : Bytes)
  deriving DecidableEq, Repr

/-- What is left of an expression, and the variables that it has set. -/
structure State where
  rest : List Token
  changed : List (Bytes × Bytes) := []

abbrev Eval := EStateM Fault State

def apply (op : Binary) (a b : Int) : Eval Int :=
  let truth (p : Prop) [Decidable p] : Int := if p then 1 else 0
  let bits (f : Nat → Nat → Nat) : Int :=
    wrap (f (a % Nat.pow 2 64).toNat (b % Nat.pow 2 64).toNat)
  match op with
  | .mul => pure (wrap (a * b))
  | .div => if b = 0 then throw (.expression "division by zero") else pure (wrap (a.tdiv b))
  | .mod => if b = 0 then throw (.expression "division by zero") else pure (a.tmod b)
  | .add => pure (wrap (a + b))
  | .sub => pure (wrap (a - b))
  | .left => pure (wrap (a * Nat.pow 2 (b % 64).toNat))
  | .right => pure (a.fdiv (Nat.pow 2 (b % 64).toNat))
  | .lt => pure (truth (a < b))
  | .le => pure (truth (a ≤ b))
  | .gt => pure (truth (b < a))
  | .ge => pure (truth (b ≤ a))
  | .eq => pure (truth (a = b))
  | .ne => pure (truth (a ≠ b))
  | .bitAnd => pure (bits Nat.land)
  | .bitXor => pure (bits Nat.xor)
  | .bitOr => pure (bits Nat.lor)

/-- The values of variables. -/
abbrev Variables := Bytes → Option Bytes

def variableValue (vars : Variables) (name : Bytes) : Eval Int := do
  let t := (((← get).changed.lookup name).or (vars name)).getD []
  if t.isEmpty then return 0
  match ofText? t with
  | some n => return n
  | none => throw (.illegalNumber t)

def assignVariable (name : Bytes) (n : Int) : Eval Int := do
  modify fun s => { s with changed := (name, Bytes.ofInt n) :: s.changed }
  return n

def nextToken? : Eval (Option Token) := return (← get).rest.head?

def advance : Eval Unit := modify fun s => { s with rest := s.rest.tail }

def primary (vars : Variables) (inner : Bool → Eval Int) (idle : Bool) : Nat → Eval Int
  | 0 => throw (.expression "expecting primary")
  | n + 1 => do
    let t ← nextToken?
    advance
    match t with
    | some (.number k) => return k
    | some (.name v) => if idle then return 0 else variableValue vars v
    | some .leftParen => do
      let value ← inner idle
      if (← nextToken?) = some .rightParen then
        advance
        return value
      else throw (.expression "expecting ')'")
    | some (.binary .add) => primary vars inner idle n
    | some (.binary .sub) => return wrap (-(← primary vars inner idle n))
    | some .not => return if (← primary vars inner idle n) = 0 then 1 else 0
    | some .bitNot => return -(← primary vars inner idle n) - 1
    | _ => throw (.expression "expecting primary")

def operators (next : Eval Int) (idle : Bool) (bound : Nat) : Nat → Int → Eval Int
  | 0, a => pure a
  | n + 1, a => do
    match ← nextToken? with
    | some (.binary op) =>
      if bound ≤ op.precedence then return a
      advance
      let b ← next
      let b ← operators next idle op.precedence n b
      let value ← if idle then pure b else apply op a b
      operators next idle bound n value
    | _ => return a

def truthOf (n : Int) : Bool := n != 0

def conjunction (next : Bool → Eval Int) : Nat → Bool → Eval Int
  | 0, idle => next idle
  | n + 1, idle => do
    let a ← next idle
    match ← nextToken? with
    | some .and =>
      advance
      let b ← conjunction next n (idle || !truthOf a)
      return if truthOf a && truthOf b then 1 else 0
    | _ => return a

def disjunction (next : Bool → Eval Int) : Nat → Bool → Eval Int
  | 0, idle => next idle
  | n + 1, idle => do
    let a ← next idle
    match ← nextToken? with
    | some .or =>
      advance
      let b ← disjunction next n (idle || truthOf a)
      return if truthOf a || truthOf b then 1 else 0
    | _ => return a

def conditional (inner next : Bool → Eval Int) : Nat → Bool → Eval Int
  | 0, idle => next idle
  | n + 1, idle => do
    let a ← next idle
    match ← nextToken? with
    | some .question =>
      advance
      let b ← inner (idle || !truthOf a)
      if (← nextToken?) ≠ some .colon then throw (.expression "expecting ':'")
      advance
      let c ← conditional inner next n (idle || truthOf a)
      return if truthOf a then b else c
    | _ => return a

def expression (vars : Variables) : Nat → Bool → Eval Int
  | 0, _ => throw (.expression "expecting primary")
  | n + 1, idle => do
    let inner := expression vars n
    let size := (← get).rest.length + 1
    let operand (idle : Bool) : Eval Int := primary vars inner idle size
    let binary (idle : Bool) : Eval Int := do operators (operand idle) idle 8 size (← operand idle)
    let value := conditional inner (disjunction (conjunction binary size) size) size
    match (← get).rest with
    | .name v :: .assign op :: rest => do
      modify fun s => { s with rest }
      let n ← inner idle
      if idle then return n
      match op with
      | none => assignVariable v n
      | some op => assignVariable v (← apply op (← variableValue vars v) n)
    | _ => value idle

def eval (vars : Variables) (t : Bytes) : Except Fault (Int × List (Bytes × Bytes)) :=
  let ts := tokens (t.length + 1) t
  match (expression vars (ts.length + 1) false).run ⟨ts, []⟩ with
  | .ok n s => if s.rest.isEmpty then .ok (n, s.changed) else .error (.expression "expecting EOF")
  | .error fault _ => .error fault

end GrammarHeaders.Shell.Arithmetic
