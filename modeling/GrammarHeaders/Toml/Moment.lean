import GrammarHeaders.Text.Basic

namespace GrammarHeaders.Toml

structure Date where
  year : Nat
  month : Nat
  day : Nat
  deriving DecidableEq, Repr

structure Time where
  hour : Nat
  minute : Nat
  second : Nat
  nanosecond : Nat
  deriving DecidableEq, Repr

inductive Offset where
  | zulu
  | minutes (n : Int)
  deriving DecidableEq, Repr

inductive Moment where
  | date (d : Date)
  | time (t : Time)
  | dateTime (d : Date) (t : Time) (offset : Option Offset)
  deriving DecidableEq, Repr

namespace Moment

def digits? (n : Nat) (t : Text) : Option (Nat × Text) :=
  let ds := t.take n
  if ds.length = n ∧ ds.all Char.isDigit then some (Text.decimalValue ds, t.drop n) else none

def part? (bound : Nat) (t : Text) : Option (Nat × Text) := do
  let (n, rest) ← digits? 2 t
  if n ≤ bound then some (n, rest) else none

def char? (c : Char) : Text → Option Text
  | [] => none
  | d :: t => if c = d then some t else none

def isLeapYear (year : Nat) : Bool := year % 4 == 0 && (year % 100 != 0 || year % 400 == 0)

def daysInMonth (year month : Nat) : Nat :=
  if month = 2 then if isLeapYear year then 29 else 28
  else if month = 4 ∨ month = 6 ∨ month = 9 ∨ month = 11 then 30
  else 31

def date? (t : Text) : Option (Date × Text) := do
  let (year, t) ← digits? 4 t
  let t ← char? '-' t
  let (month, t) ← part? 12 t
  let t ← char? '-' t
  let (day, t) ← part? (daysInMonth year month) t
  if month = 0 ∨ day = 0 then none else some (⟨year, month, day⟩, t)

def fraction? (t : Text) : Option (Nat × Text) := do
  let rest ← char? '.' t
  let ds := rest.takeWhile Char.isDigit
  if ds.isEmpty then none
  else
    let kept := ds.take 9
    some (Text.decimalValue kept * Nat.pow 10 (9 - kept.length), rest.drop ds.length)

def time? (t : Text) : Option (Time × Text) := do
  let (hour, t) ← part? 23 t
  let t ← char? ':' t
  let (minute, t) ← part? 59 t
  let t ← char? ':' t
  let (second, t) ← part? 60 t
  match fraction? t with
  | some (nanosecond, t) => some (⟨hour, minute, second, nanosecond⟩, t)
  | none => some (⟨hour, minute, second, 0⟩, t)

def offset? (t : Text) : Option (Offset × Text) :=
  match t with
  | [] => none
  | c :: t =>
    if c = 'Z' ∨ c = 'z' then some (.zulu, t)
    else if c = '+' ∨ c = '-' then do
      let (hours, t) ← part? 23 t
      let t ← char? ':' t
      let (minutes, t) ← part? 59 t
      let total := 60 * hours + minutes
      some (.minutes (if c = '-' then -(total : Int) else total), t)
    else none

def isDivider (c : Char) : Bool := c == 'T' || c == 't' || c == ' '

def timeAfter? (t : Text) : Option (Time × Option Offset × Text) := do
  let c ← t.head?
  if isDivider c then
    let (clock, t) ← time? t.tail
    match offset? t with
    | some (offset, t) => some (clock, some offset, t)
    | none => some (clock, none, t)
  else none

def parse? (t : Text) : Option (Moment × Text) :=
  match date? t with
  | some (d, rest) => match timeAfter? rest with
    | some (clock, offset, rest) => some (.dateTime d clock offset, rest)
    | none => some (.date d, rest)
  | none => (time? t).map fun (clock, rest) => (.time clock, rest)

def ofText? (t : Text) : Option Moment :=
  match parse? t with
  | some (m, []) => some m
  | _ => none

def padded (width n : Nat) : Text :=
  let ds := Nat.toDigits 10 n
  List.replicate (width - ds.length) '0' ++ ds

def renderDate (d : Date) : Text :=
  padded 4 d.year ++ ['-'] ++ padded 2 d.month ++ ['-'] ++ padded 2 d.day

def renderTime (t : Time) : Text :=
  let fraction :=
    if t.nanosecond = 0 then []
    else '.' :: ((padded 9 t.nanosecond).reverse.dropWhile (· == '0')).reverse
  padded 2 t.hour ++ [':'] ++ padded 2 t.minute ++ [':'] ++ padded 2 t.second ++ fraction

def renderOffset : Offset → Text
  | .zulu => ['Z']
  | .minutes n =>
    (if n < 0 then '-' else '+') :: padded 2 (n.natAbs / 60) ++ [':'] ++ padded 2 (n.natAbs % 60)

def render : Moment → String
  | date d => String.ofList (renderDate d)
  | time t => String.ofList (renderTime t)
  | dateTime d t offset =>
    String.ofList (renderDate d ++ ['T'] ++ renderTime t ++ ((offset.map renderOffset).getD []))

end Moment

end GrammarHeaders.Toml
