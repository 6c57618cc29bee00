import GrammarHeaders.Shell.Printf
import GrammarHeaders.Shell.Utility.Options

namespace GrammarHeaders.Shell.Utility

open Shell.Options

def forAll (operands : List Bytes) (action : Bytes → Task Bool) : Task Nat := do
  let mut status := 0
  for operand in operands do
    if !(← action operand) then status := 1
  return status

def echoEscape (t : Bytes) : Option (Bytes × Bytes) :=
  match t with
  | [] => some (['\\'], [])
  | 'c' :: _ => none
  | 'e' :: rest => some (['\x1b'], rest)
  | 'x' :: rest =>
    let (n, after) := Format.upToDigits 16 2 rest
    some (if after.length = rest.length then (['\\', 'x'], rest) else ([Format.byteOf n], after))
  | c :: rest =>
    if Format.isOctal c then
      let (n, rest) := Format.upToDigits 8 3 (if c = '0' then rest else t)
      some ([Format.byteOf n], rest)
    else match Format.namedEscape? c with
      | some d => some ([d], rest)
      | none => some (['\\', c], rest)

def echoUnescape : Nat → Bytes → Bytes × Bool
  | 0, t => (t, true)
  | _ + 1, [] => ([], true)
  | n + 1, '\\' :: t => match echoEscape t with
    | none => ([], false)
    | some (front, rest) =>
      let (t, more) := echoUnescape n rest
      (front ++ t, more)
  | n + 1, c :: t =>
    let (t, more) := echoUnescape n t
    (c :: t, more)

def echoOptions (newline escapes : Bool) : List Bytes → Bool × Bool × List Bytes
  | ('-' :: c :: t) :: rest =>
    if (c :: t).all fun c => c == 'n' || c == 'e' || c == 'E' then
      let last := (t.reverse ++ [c]).find? fun c => c != 'n'
      echoOptions (newline && !(c :: t).contains 'n') (match last with
        | some 'e' => true
        | some _ => false
        | none => escapes) rest
    else (newline, escapes, ('-' :: c :: t) :: rest)
  | args => (newline, escapes, args)

def echo (args : List Bytes) : Task Nat := do
  let (newline, escapes, args) := echoOptions true false args
  let t := Bytes.join [' '] args
  let (t, more) := if escapes then echoUnescape (t.length + 1) t else (t, true)
  Task.write (if newline && more then t ++ ['\n'] else t)
  return 0

def printfDialect : Printf.Dialect :=
  ⟨Quoting.words, "expected a numeric value", "value not completely converted",
    "Numerical result out of range", true⟩

def printf (args : List Bytes) : Task Nat := do
  let args := if args.head? = some ['-', '-'] then args.tail else args
  match args with
  | [] => missingOperand 1
  | format :: args =>
    let finish (s : Printf.State) : Task Nat := do
      s.pieces.reverse.forM fun
        | .text t => Task.write t
        | .warning message => Task.complain message
      return s.status
    match (Printf.passes format (args.length + 1) printfDialect).run { args } with
    | .ok () s => do
      let status ← finish s
      match s.args with
      | [] => pure ()
      | arg :: _ => Task.complain ("warning: ignoring excess arguments, starting with ".toList ++
          Quoting.words arg)
      return status
    | .error .done s => finish s
    | .error (.fault message) s => do
      let _ ← finish s
      Task.fail 1 message

def lastName (path : Bytes) : Bytes :=
  let kept := Bytes.dropEndWhile (· == '/') path
  if kept.isEmpty then path.take 1 else (kept.reverse.takeWhile (· != '/')).reverse

def dirPart (path : Bytes) : Bytes :=
  let kept := Bytes.dropEndWhile (· == '/') path
  let front := kept.take (kept.length - (kept.reverse.takeWhile (· != '/')).length)
  let front' := Bytes.dropEndWhile (· == '/') front
  if !front'.isEmpty then front'
  else if path.head? = some '/' then ['/'] else ['.']

def basename (args : List Bytes) : Task Nat := do
  let g ← parse { letters := "as:z", ordered := true, long :=
    [⟨"multiple", 'a', .none⟩, ⟨"suffix", 's', .required⟩, ⟨"zero", 'z', .none⟩] } args
  let ending : Bytes := if g.has 'z' then ['\x00'] else ['\n']
  let cut (suffix name : Bytes) : Bytes :=
    if name ≠ suffix ∧ suffix.isSuffixOf name ∧ name ≠ ['/'] then name.take (name.length - suffix.length)
    else name
  if g.has 'a' || g.has 's' then
    if g.operands.isEmpty then missingOperand 1
    let suffix := (g.value? 's').getD []
    Task.write (g.operands.flatMap fun path => cut suffix (lastName path) ++ ending)
    return 0
  match g.operands with
  | [] => missingOperand 1
  | [path] => Task.write (lastName path ++ ending)
  | [path, suffix] => Task.write (cut suffix (lastName path) ++ ending)
  | _ :: _ :: extra :: _ => extraOperand 1 extra
  return 0

def dirname (args : List Bytes) : Task Nat := do
  let g ← parse { letters := "z", ordered := true, long := [⟨"zero", 'z', .none⟩] } args
  let ending : Bytes := if g.has 'z' then ['\x00'] else ['\n']
  if g.operands.isEmpty then missingOperand 1
  Task.write (g.operands.flatMap fun path => dirPart path ++ ending)
  return 0

/-- A decimal number, scaled to an integer, with the number of its places and of its characters. -/
structure Decimal where
  units : Int
  places : Nat
  width : Nat
  deriving DecidableEq, Repr

def Decimal.ofText? (t : Bytes) : Option Decimal :=
  let t := t.dropWhile Bytes.isSpace
  let (negative, unsigned) : Bool × Bytes := match t with
    | '-' :: t => (true, t)
    | '+' :: t => (false, t)
    | t => (false, t)
  let mantissa := unsigned.takeWhile fun c => c != 'e' && c != 'E'
  let whole := mantissa.takeWhile (· != '.')
  let fraction := (mantissa.drop whole.length).drop 1
  let exponent : Option Int := match unsigned.drop mantissa.length with
    | [] => some 0
    | _ :: '-' :: ds => if Bytes.isNumber ds then some (-Text.decimalValue ds) else none
    | _ :: '+' :: ds => if Bytes.isNumber ds then some (Text.decimalValue ds) else none
    | _ :: ds => if Bytes.isNumber ds then some (Text.decimalValue ds) else none
  match exponent with
  | none => none
  | some e =>
    if (whole ++ fraction).all Char.isDigit && !(whole ++ fraction).isEmpty && e.natAbs < 1000 then
      let n : Int := Text.decimalValue (whole ++ fraction)
      let n := n * (Nat.pow 10 (e - fraction.length).toNat : Nat)
      let places := (fraction.length - e).toNat
      let width := if e = 0 then mantissa.length + (if whole.isEmpty then 1 else 0)
        else (Bytes.ofNat n.natAbs).length + (if places = 0 then 0 else 1)
      some ⟨if negative then -n else n, places, width + (if negative then 1 else 0)⟩
    else none

def Decimal.at_ (d : Decimal) (places : Nat) : Int := d.units * (Nat.pow 10 (places - d.places) : Nat)

def spellUnits (units : Int) (places width : Nat) : Bytes :=
  let ds := Bytes.ofNat units.natAbs
  let ds := List.replicate (places + 1 - ds.length) '0' ++ ds
  let body := ds.take (ds.length - places) ++
    (if places = 0 then [] else '.' :: ds.drop (ds.length - places))
  let sign : Bytes := if units < 0 then ['-'] else []
  sign ++ List.replicate (width - (sign.length + body.length)) '0' ++ body

def isNegativeNumber (arg : Bytes) : Bool :=
  match arg with
  | '-' :: c :: _ => c.isDigit || c == '.'
  | _ => false

def sequenceLimit : Nat := 1000000

def seq (args : List Bytes) : Task Nat := do
  let front := args.takeWhile fun arg => !isNegativeNumber arg
  let g ← parse { letters := "f:s:w", ordered := true, long :=
    [⟨"format", 'f', .required⟩, ⟨"separator", 's', .required⟩, ⟨"equal-width", 'w', .none⟩] } front
  let operands := g.operands ++ args.drop front.length
  let number (t : Bytes) : Task Decimal := do
    match Decimal.ofText? t with
    | some d => return d
    | none => misuse 1 ("invalid floating point argument: ".toList ++ Quoting.words t)
  let one : Decimal := ⟨1, 0, 1⟩
  let (first, step, last) ← match operands with
    | [] => missingOperand 1
    | [last] => pure (one, one, ← number last)
    | [first, last] => pure (← number first, one, ← number last)
    | [first, step, last] => pure (← number first, ← number step, ← number last)
    | _ :: _ :: _ :: extra :: _ => extraOperand 1 extra
  if step.units = 0 then
    misuse 1 ("invalid Zero increment value: ".toList ++ Quoting.words ((operands.drop 1).headD []))
  let places := max first.places step.places
  let all := max places last.places
  let (a, s, z) := (first.at_ all, step.at_ all, last.at_ all)
  let count := if s > 0 then (if z < a then 0 else ((z - a) / s).toNat + 1)
    else (if a < z then 0 else ((a - z) / (-s)).toNat + 1)
  let width := if !g.has 'w' then 0 else
    let firstWidth := first.width + (places - first.places) +
      (if first.places = 0 ∧ places ≠ 0 then 1 else 0)
    let lastWidth := last.width - last.places + places -
      (if last.places ≠ 0 ∧ places = 0 then 1 else 0) + (if last.places = 0 ∧ places ≠ 0 then 1 else 0)
    max firstWidth lastWidth
  let separator := (g.value? 's').getD ['\n']
  let value (i : Nat) : Int :=
    first.at_ places + step.at_ places * i
  let spelled (i : Nat) : Bytes := match g.value? 'f' with
    | none => spellUnits (value i) places width
    | some format =>
      let plain := spellUnits (value i) places 0
      match (Printf.pass (format.length + 1) format printfDialect).run { args := [plain] } with
      | .ok () s => s.output
      | .error _ s => s.output
  let numbers := (List.range (min count sequenceLimit)).map spelled
  if !numbers.isEmpty then Task.write (Bytes.join separator numbers ++ ['\n'])
  return 0

def yes (args : List Bytes) : Task Nat := do
  let line := (if args.isEmpty then ['y'] else Bytes.join [' '] args) ++ ['\n']
  let chunk := (List.replicate (8192 / line.length + 1) line).flatten
  let step (_ : Unit) : Task (Unit ⊕ Nat) := do
    Task.write chunk
    return .inl ()
  iterate step (fun _ => pure 0) 1000 ()

def isInterval (t : Bytes) : Bool :=
  let ds := match t.getLast? with
    | some c => if "smhd".toList.contains c then t.dropLast else t
    | none => t
  match Format.decimal? ds with
  | some (.finite negative mantissa _, []) => !negative || mantissa == 0
  | some (.infinite false, []) => true
  | _ => false

def sleep (args : List Bytes) : Task Nat := do
  let g ← parse {} args
  if g.operands.isEmpty then missingOperand 1
  let wrong := g.operands.filter fun t => !isInterval t
  if !wrong.isEmpty then
    wrong.dropLast.forM fun t => Task.complain ("invalid time interval ".toList ++ Quoting.words t)
    misuse 1 ("invalid time interval ".toList ++ Quoting.words (wrong.getLastD []))
  return 0

def locationPath (l : Location) : Bytes := Bytes.ofString ("/" ++ "/".intercalate l)

def pwd (args : List Bytes) : Task Nat := do
  let _ ← parse { letters := "LP" } args
  Task.writeLine (locationPath (← Task.disk).cwd)
  return 0

def uname (args : List Bytes) : Task Nat := do
  let g ← parse { letters := "asnrvmpio", long :=
    [⟨"all", 'a', .none⟩, ⟨"kernel-name", 's', .none⟩, ⟨"machine", 'm', .none⟩] } args
  match g.operands with
  | operand :: _ => extraOperand 1 operand
  | [] => pure ()
  let words := [("s", "Linux"), ("n", "localhost"), ("r", "6.1.0"), ("v", "#1 SMP"), ("m", "x86_64"),
    ("o", "GNU/Linux")]
  let wanted := words.filter fun w => g.has 'a' || g.has (w.1.toList.headD ' ') ||
    (g.options.isEmpty && w.1 == "s")
  Task.writeLine (Bytes.join [' '] (wanted.map fun w => w.2.toList))
  return 0

def constant (line : String) (_ : List Bytes) : Task Nat := do
  Task.writeLine line.toList
  return 0

def id_ (args : List Bytes) : Task Nat := do
  let g ← parse { letters := "ugGnr" } args
  Task.writeLine (if g.has 'n' then "root".toList else if g.options.isEmpty then
    "uid=0(root) gid=0(root) groups=0(root)".toList else ['0'])
  return 0

end GrammarHeaders.Shell.Utility
