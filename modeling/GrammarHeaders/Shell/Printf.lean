import GrammarHeaders.Shell.Format
import GrammarHeaders.Shell.Utility.Quoting

namespace GrammarHeaders.Shell.Printf

/-- In what the two differ. -/
structure Dialect where
  named : Bytes → Bytes
  notNumeric : String
  unfinished : String
  outOfRange : String := "Numerical result out of range"
  extended : Bool

/-- Something that is printed, or said about an argument. -/
inductive Piece where
  | text (t : Bytes)
  | warning (message : Bytes)
  deriving DecidableEq, Repr

def Piece.text? : Piece → Option Bytes
  | .text t => some t
  | .warning _ => none

def Piece.warning? : Piece → Option Bytes
  | .text _ => none
  | .warning message => some message

/-- What is printed and said so far, last first, the arguments that are left, and the status. -/
structure State where
  pieces : List Piece := []
  args : List Bytes
  status : Nat := 0

/-- Printing stops, or something is wrong with the format. -/
inductive Stop where
  | done
  | fault (message : Bytes)

abbrev Print := ReaderT Dialect (EStateM Stop State)

def emit (t : Bytes) : Print Unit := modify fun s => { s with pieces := .text t :: s.pieces }

def nextArg? : Print (Option Bytes) := do
  match (← get).args with
  | [] => return none
  | arg :: rest =>
    modify fun s => { s with args := rest }
    return some arg

def warn (arg : Bytes) (words : String) : Print Unit := do
  let dialect ← read
  modify fun s => { s with
    status := 1, pieces := .warning (dialect.named arg ++ ": ".toList ++ words.toList) :: s.pieces }

def checkRest (arg : Bytes) (found : Option Bytes) : Print Unit := do
  let dialect ← read
  match found with
  | none => if !arg.isEmpty then warn arg dialect.notNumeric
  | some rest => if !rest.isEmpty then warn arg dialect.unfinished

def bounded (arg : Bytes) (low high n : Int) : Print Int := do
  let dialect ← read
  if n < low then
    warn arg dialect.outOfRange
    return low
  else if high < n then
    warn arg dialect.outOfRange
    return high
  else return n

def quotedValue? (arg : Bytes) : Option Nat :=
  match arg with
  | '"' :: rest | '\'' :: rest => some (rest.headD '\x00').toNat
  | _ => none

def signedArg : Print Int := do
  match ← nextArg? with
  | none => return 0
  | some arg => match quotedValue? arg with
    | some n => return n
    | none =>
      let found := Format.signedNumber? arg
      checkRest arg (found.map Prod.snd)
      let n := (found.map Prod.fst).getD 0
      if (found.map fun f => f.2.isEmpty).getD true then
        bounded arg (-Arithmetic.greatest - 1) Arithmetic.greatest n
      else return n

def unsignedArg : Print Nat := do
  match ← nextArg? with
  | none => return 0
  | some arg => match quotedValue? arg with
    | some n => return n
    | none =>
      let found := Format.signedNumber? arg
      checkRest arg (found.map Prod.snd)
      let n := (found.map Prod.fst).getD 0
      let most : Int := Nat.pow 2 64 - 1
      let n ← if n < 0 then pure (n % Nat.pow 2 64) else bounded arg 0 most n
      return n.toNat

def floatArg : Print Binary64 := do
  match ← nextArg? with
  | none => return .finite false 0 0
  | some arg => match quotedValue? arg with
    | some n => return .ofDecimal false n 0
    | none =>
      let found := Format.decimal? arg
      checkRest arg (found.map Prod.snd)
      return (found.map Prod.fst).getD (.finite false 0 0)

def settle (d : Format.Directive) : Print Format.Layout := do
  let mut l := d.layout
  if d.widthFromArgument then
    let n ← signedArg
    l := { l with width := n.natAbs, left := l.left || n < 0 }
  if d.precisionFromArgument then
    let n ← signedArg
    l := { l with precision := if n < 0 then none else some n.toNat }
  return l

def wideEscape (leadingZero : Bool) (t : Bytes) : Print (Bytes × Bytes) := do
  match t with
  | [] => return (['\\'], [])
  | 'c' :: _ => throw .done
  | 'e' :: rest => return (['\x1b'], rest)
  | '"' :: rest => return (['"'], rest)
  | 'x' :: rest =>
    let (n, after) := Format.upToDigits 16 2 rest
    if after.length = rest.length then throw (.fault "missing hexadecimal number in escape".toList)
    return ([Format.byteOf n], after)
  | c :: rest =>
    if Format.isOctal c then
      let (n, rest) := Format.upToDigits 8 3 (if leadingZero && c == '0' then rest else t)
      return ([Format.byteOf n], rest)
    else match Format.namedEscape? c with
      | some d => return ([d], rest)
      | none => return (['\\', c], rest)

def wideText : Nat → Bytes → Print (Bytes × Bool)
  | 0, t => return (t, true)
  | _ + 1, [] => return ([], true)
  | _ + 1, '\\' :: 'c' :: _ => return ([], false)
  | n + 1, '\\' :: t => do
    let (front, rest) ← wideEscape true t
    let (t, more) ← wideText n rest
    return (front ++ t, more)
  | n + 1, c :: t => do
    let (t, more) ← wideText n t
    return (c :: t, more)

def escapedArg (l : Format.Layout) : Print Unit := do
  let arg := (← nextArg?).getD []
  let (t, more) ← if (← read).extended then wideText (arg.length + 1) arg
    else pure (Format.unescaped arg)
  emit (l.text t)
  if !more then throw .done

def convert (d : Format.Directive) : Print Unit := do
  let l ← settle d
  let dialect ← read
  let unknown : Print Unit := throw (.fault (d.written ++
    (if dialect.extended then ": invalid conversion specification" else ": invalid directive").toList))
  match d.kind with
  | none =>
    if dialect.extended then unknown else throw (.fault "missing format character".toList)
  | some 's' => emit (l.text ((← nextArg?).getD []))
  | some 'c' => emit ({ l with precision := none }.text [(((← nextArg?).getD []).headD '\x00')])
  | some 'b' => escapedArg l
  | some 'q' => do
    if !dialect.extended then unknown
    else
      let arg := (← nextArg?).getD []
      emit (l.text (if Quoting.needsQuotes [] arg then Quoting.always arg else arg))
  | some 'd' | some 'i' => emit (l.signed (← signedArg))
  | some 'o' => emit (l.unsigned 8 false (← unsignedArg))
  | some 'u' => emit (l.unsigned 10 false (← unsignedArg))
  | some 'x' => emit (l.unsigned 16 false (← unsignedArg))
  | some 'X' => emit (l.unsigned 16 true (← unsignedArg))
  | some c =>
    if "eEfFgG".toList.contains c then emit (l.float c (← floatArg)) else unknown

def pass : Nat → Bytes → Print Unit
  | 0, _ => return
  | _ + 1, [] => return
  | n + 1, '\\' :: t => do
    if (← read).extended then
      let (front, rest) ← wideEscape false t
      emit front
      pass n rest
    else
      let (c, rest) := Format.escape t
      emit [c]
      pass n rest
  | n + 1, '%' :: '%' :: t => do
    emit ['%']
    pass n t
  | n + 1, '%' :: t => do
    let (d, rest) := Format.directive t
    convert d
    pass n rest
  | n + 1, c :: t => do
    emit [c]
    pass n t

def passes (format : Bytes) : Nat → Print Unit
  | 0 => return
  | n + 1 => do
    let before := (← get).args.length
    pass (format.length + 1) format
    let after := (← get).args.length
    if after < before ∧ 0 < after then passes format n

def State.output (s : State) : Bytes := (s.pieces.reverse.filterMap Piece.text?).flatten

def State.warnings (s : State) : List Bytes := s.pieces.reverse.filterMap Piece.warning?

end GrammarHeaders.Shell.Printf
