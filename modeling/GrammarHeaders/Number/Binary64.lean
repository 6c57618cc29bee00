namespace GrammarHeaders

inductive Binary64 where
  /-- The number `mantissa * 2 ^ exponent`, with its sign. -/
  | finite (negative : Bool) (mantissa : Nat) (exponent : Int)
  | infinite (negative : Bool)
  | notANumber
  deriving DecidableEq, Repr

namespace Binary64

def leastExponent : Int := -1074

def greatestExponent : Int := 971

def mantissaBound : Nat := Nat.pow 2 53

def roundDiv (num den : Nat) : Nat :=
  let q := num / den
  let r := num % den
  if 2 * r < den then q else if den < 2 * r then q + 1 else q + q % 2

def scale (base num den : Nat) (e : Int) : Nat × Nat :=
  if 0 ≤ e then (num * Nat.pow base e.toNat, den) else (num, den * Nat.pow base (-e).toNat)

def ofFraction (negative : Bool) (num den : Nat) : Binary64 :=
  let guess : Int := num.log2 - den.log2 - 52
  let (n, d) := scale 2 num den (-guess)
  let exponent := max leastExponent (if n / d < Nat.pow 2 52 then guess - 1 else guess)
  let (n, d) := scale 2 num den (-exponent)
  let mantissa := roundDiv n d
  let (mantissa, exponent) :=
    if mantissa = mantissaBound then (Nat.pow 2 52, exponent + 1) else (mantissa, exponent)
  if greatestExponent < exponent then infinite negative else finite negative mantissa exponent

/-- The number nearest to `digits * 10 ^ exponent`. Decimals far outside the range are settled by
their order of magnitude. -/
def ofDecimal (negative : Bool) (digits : Nat) (exponent : Int) : Binary64 :=
  let order := (Nat.toDigits 10 digits).length + exponent
  if digits = 0 ∨ order < -330 then finite negative 0 0
  else if 310 < order then infinite negative
  else
    let (num, den) := scale 10 digits 1 exponent
    ofFraction negative num den

def orderFrom (num den : Nat) : Nat → Int → Int
  | 0, p => p
  | fuel + 1, p =>
    let (n, d) := scale 10 den 1 p
    if num * d < n then p else orderFrom num den fuel (p + 1)

/-- The digits of the shortest decimal inside the rounding interval of a positive number, tried
with `count` digits and more; the value is the digits behind the point, times `10 ^ order`. Of two
such decimals the nearer is taken, and the upper one if both are as near. -/
def shortestFrom (low value high den : Nat) (closed : Bool) (order : Int) : Nat → Nat → Nat × Nat
  | 0, count => (0, count)
  | fuel + 1, count =>
    let (unit, gridDen) := scale 10 1 1 (order - count)
    let fits (c : Nat) : Bool :=
      let point := c * unit * den
      if closed then low * gridDen ≤ point && point ≤ high * gridDen
      else low * gridDen < point && point < high * gridDen
    let below := value * gridDen / (den * unit)
    let distance (c : Nat) : Nat :=
      (c * unit * den - value * gridDen) + (value * gridDen - c * unit * den)
    match fits below, fits (below + 1) with
    | true, true => (if distance (below + 1) ≤ distance below then below + 1 else below, count)
    | true, false => (below, count)
    | false, true => (below + 1, count)
    | false, false => shortestFrom low value high den closed order fuel (count + 1)

def shortest (mantissa : Nat) (exponent : Int) : List Char × Int :=
  let lowGap := if mantissa = Nat.pow 2 52 ∧ leastExponent < exponent then 1 else 2
  let (unit, den) := scale 2 1 1 (exponent - 2)
  let value := 4 * mantissa * unit
  let order := orderFrom value den 700 (-330)
  let (digits, count) := shortestFrom (value - lowGap * unit) value (value + 2 * unit) den
    (mantissa % 2 == 0) order 17 1
  let chars := Nat.toDigits 10 digits
  let order := if count < chars.length then order + 1 else order
  ((chars.reverse.dropWhile (· == '0')).reverse, order)

def zeros (n : Nat) : List Char := List.replicate n '0'

/-- Positional from a ten-thousandth up to sixteen digits before the point, with at least one
digit behind it; with an exponent outside. -/
def renderDigits (digits : List Char) (order : Int) : List Char :=
  if -3 ≤ order ∧ order ≤ 16 then
    if order ≤ 0 then ['0', '.'] ++ zeros (-order).toNat ++ digits
    else if digits.length ≤ order.toNat then
      digits ++ zeros (order.toNat - digits.length) ++ ['.', '0']
    else digits.take order.toNat ++ ['.'] ++ digits.drop order.toNat
  else
    let fraction := digits.drop 1
    digits.take 1 ++ (if fraction.isEmpty then [] else '.' :: fraction) ++
      ('e' :: (toString (order - 1)).toList)

def render : Binary64 → String
  | notANumber => "NaN"
  | infinite negative => if negative then "-inf" else "inf"
  | finite negative mantissa exponent =>
    let magnitude :=
      if mantissa = 0 then ['0', '.', '0']
      else
        let (digits, order) := shortest mantissa exponent
        renderDigits digits order
    String.ofList (if negative then '-' :: magnitude else magnitude)

end Binary64

end GrammarHeaders
