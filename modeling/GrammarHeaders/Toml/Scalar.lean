import GrammarHeaders.Text.Whitespace
import GrammarHeaders.Toml.Value

namespace GrammarHeaders.Toml

/-- Reads a part of a text. -/
abbrev Reader (α : Type) := Text → Option (α × Text)

namespace Scalar

def dropSpaces (t : Text) : Text := t.dropWhile Text.isBlank

def isPlain (c : Char) : Bool := c == '\t' || (' ' ≤ c && c != '\x7f')

def newline? : Text → Option Text
  | '\n' :: t => some t
  | '\r' :: '\n' :: t => some t
  | _ => none

def hexValue? (c : Char) : Option Nat :=
  if c.isDigit then some (c.toNat - '0'.toNat)
  else if 'a' ≤ c ∧ c ≤ 'f' then some (c.toNat - 'a'.toNat + 10)
  else if 'A' ≤ c ∧ c ≤ 'F' then some (c.toNat - 'A'.toNat + 10)
  else none

def ofDigits? (base : Nat) (ds : Text) : Option Nat :=
  ds.foldl (fun acc c => do
    let n ← acc
    let d ← hexValue? c
    if d < base then some (base * n + d) else none) (some 0)

def codePoint? (n : Nat) : Reader Char := fun t => do
  let ds := t.take n
  let code ← ofDigits? 16 ds
  if h : ds.length = n ∧ code.isValidChar then some (Char.ofNatAux code h.2, t.drop n) else none

def escape? : Reader Char
  | 'b' :: t => some ('\x08', t)
  | 't' :: t => some ('\t', t)
  | 'n' :: t => some ('\n', t)
  | 'f' :: t => some ('\x0c', t)
  | 'r' :: t => some ('\r', t)
  | '"' :: t => some ('"', t)
  | '\\' :: t => some ('\\', t)
  | 'u' :: t => codePoint? 4 t
  | 'U' :: t => codePoint? 8 t
  | _ => none

def basicBody : Nat → Text → Reader String
  | 0, _, _ => none
  | _ + 1, _, [] => none
  | _ + 1, front, '"' :: t => some (String.ofList front.reverse, t)
  | fuel + 1, front, '\\' :: t => do
    let (c, rest) ← escape? t
    basicBody fuel (c :: front) rest
  | fuel + 1, front, c :: t => if isPlain c then basicBody fuel (c :: front) t else none

def literalBody (t : Text) : Option (String × Text) :=
  let body := t.takeWhile fun c => isPlain c && c != '\''
  match t.drop body.length with
  | '\'' :: rest => some (String.ofList body, rest)
  | _ => none

def dropBlankLines : Nat → Text → Text
  | 0, t => t
  | fuel + 1, t => match newline? (dropSpaces t) with
    | some rest => dropBlankLines fuel rest
    | none => dropSpaces t

def quoteRun (quote : Char) (t : Text) : Nat := (t.takeWhile (· == quote)).length

/-- A run of three to five quotes closes a string over several lines; those before the last three
belong to the string. -/
def closing? (quote : Char) (front t : Text) : Option (String × Text) :=
  let run := quoteRun quote t
  if 3 ≤ run then
    let inner := min (run - 3) 2
    some (String.ofList (List.replicate inner quote ++ front).reverse, t.drop (inner + 3))
  else none

/-- The inside of a string over several lines; line ends are read as line feeds, and only double
quotes know escapes. -/
def linesBody (quote : Char) : Nat → Text → Reader String
  | 0, _, _ => none
  | _ + 1, _, [] => none
  | fuel + 1, front, c :: t =>
    if c = quote then
      match closing? quote front (c :: t) with
      | some done => some done
      | none => linesBody quote fuel (c :: front) t
    else match newline? (c :: t) with
      | some rest => linesBody quote fuel ('\n' :: front) rest
      | none =>
        if c = '\\' ∧ quote = '"' then
          match newline? (dropSpaces t) with
          | some rest => linesBody quote fuel front (dropBlankLines rest.length rest)
          | none => do
            let (d, rest) ← escape? t
            linesBody quote fuel (d :: front) rest
        else if isPlain c then linesBody quote fuel (c :: front) t
        else none

def lines? (quote : Char) (t : Text) : Option (String × Text) :=
  let t := (newline? t).getD t
  linesBody quote (t.length + 1) [] t

def quoted? : Reader String
  | '"' :: t => basicBody (t.length + 1) [] t
  | '\'' :: t => literalBody t
  | _ => none

def string? : Reader String
  | '"' :: '"' :: '"' :: t => lines? '"' t
  | '\'' :: '\'' :: '\'' :: t => lines? '\'' t
  | t => quoted? t

def digitRun (isDigit : Char → Bool) : Text → Text × Text
  | [] => ([], [])
  | c :: t =>
    if isDigit c then
      let (ds, rest) := digitRun isDigit t
      (c :: ds, rest)
    else match c, t with
      | '_', d :: _ => if isDigit d then digitRun isDigit t else ([], c :: t)
      | _, _ => ([], c :: t)

def digits? (isDigit : Char → Bool) : Reader Text
  | [] => none
  | c :: t => if isDigit c then some (digitRun isDigit (c :: t)) else none

def isHexDigit (c : Char) : Bool := (hexValue? c).isSome

def isOctalDigit (c : Char) : Bool := '0' ≤ c && c ≤ '7'

def isBinaryDigit (c : Char) : Bool := c == '0' || c == '1'

def sign : Text → Bool × Text
  | '-' :: t => (true, t)
  | '+' :: t => (false, t)
  | t => (false, t)

def decimal? : Reader Text
  | '0' :: t => some (['0'], t)
  | t => digits? Char.isDigit t

def inRange (n : Int) : Bool := -9223372036854775808 ≤ n && n ≤ 9223372036854775807

def integerIn? (base : Nat) (isDigit : Char → Bool) : Reader Value := fun t => do
  let (ds, rest) ← digits? isDigit t
  let n ← ofDigits? base ds
  if inRange n then some (.integer n, rest) else none

def integer? : Reader Value
  | '0' :: 'x' :: t => integerIn? 16 isHexDigit t
  | '0' :: 'o' :: t => integerIn? 8 isOctalDigit t
  | '0' :: 'b' :: t => integerIn? 2 isBinaryDigit t
  | t => do
    let (negative, t) := sign t
    let (ds, rest) ← decimal? t
    let n ← ofDigits? 10 ds
    let n : Int := if negative then -n else n
    if inRange n then some (.integer n, rest) else none

def fractionPart? : Reader (Option Text)
  | '.' :: t => (digits? Char.isDigit t).map fun (ds, rest) => (some ds, rest)
  | t => some (none, t)

def exponentPart? : Reader (Option Int)
  | c :: t =>
    if c = 'e' ∨ c = 'E' then do
      let (negative, t) := sign t
      let (ds, rest) ← digits? Char.isDigit t
      let n ← ofDigits? 10 ds
      some (some (if negative then -n else n), rest)
    else some (none, c :: t)
  | [] => some (none, [])

/-- A number with a point or an exponent. A positive number too large for the format is
refused. -/
def pointNumber? : Reader Value := fun t => do
  let (negative, t) := sign t
  let (whole, t) ← decimal? t
  let (fraction, t) ← fractionPart? t
  let (exponent, t) ← exponentPart? t
  if fraction.isNone ∧ exponent.isNone then none
  else
    let fraction := fraction.getD []
    let digits ← ofDigits? 10 (whole ++ fraction)
    let x := Binary64.ofDecimal negative digits (exponent.getD 0 - fraction.length)
    if x = .infinite false then none else some (.float x, t)

def specialNumber? : Reader Value := fun t =>
  let (negative, t) := sign t
  match t with
  | 'i' :: 'n' :: 'f' :: rest => some (.float (.infinite negative), rest)
  | 'n' :: 'a' :: 'n' :: rest => some (.float .notANumber, rest)
  | _ => none

/-- A value that starts like a number: dates come first, because their first digits read as a
number too. -/
def number? (t : Text) : Option (Value × Text) :=
  match Moment.parse? t with
  | some (m, rest) => some (.moment m, rest)
  | none => match pointNumber? t with
    | some found => some found
    | none => match specialNumber? t with
      | some found => some found
      | none => integer? t

def parse? (t : Text) : Option (Value × Text) :=
  match t with
  | [] => none
  | c :: _ =>
    if c = '"' ∨ c = '\'' then (string? t).map fun (s, rest) => (.string s, rest)
    else match t with
      | 't' :: 'r' :: 'u' :: 'e' :: rest => some (.boolean true, rest)
      | 'f' :: 'a' :: 'l' :: 's' :: 'e' :: rest => some (.boolean false, rest)
      | _ => number? t

end Scalar

end GrammarHeaders.Toml
