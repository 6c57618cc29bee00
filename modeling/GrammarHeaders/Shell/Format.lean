import GrammarHeaders.Number.Binary64
import GrammarHeaders.Shell.Arithmetic

namespace GrammarHeaders.Shell.Format

/-- How a value is laid out. -/
structure Layout where
  alternate : Bool := false
  left : Bool := false
  plus : Bool := false
  space : Bool := false
  zero : Bool := false
  width : Nat := 0
  precision : Option Nat := none
  deriving DecidableEq, Repr

namespace Layout

def fill (l : Layout) (zeros : Bool) (sign body : Bytes) : Bytes :=
  let missing := l.width - (sign.length + body.length)
  if l.left then sign ++ body ++ List.replicate missing ' '
  else if zeros then sign ++ List.replicate missing '0' ++ body
  else List.replicate missing ' ' ++ sign ++ body

def text (l : Layout) (t : Bytes) : Bytes :=
  let t := match l.precision with
    | some n => t.take n
    | none => t
  l.fill false [] t

def sign (l : Layout) (negative : Bool) : Bytes :=
  if negative then ['-'] else if l.plus then ['+'] else if l.space then [' '] else []

def digits (l : Layout) (ds : Bytes) : Bytes :=
  match l.precision with
  | some 0 => if ds = ['0'] then [] else ds
  | some n => List.replicate (n - ds.length) '0' ++ ds
  | none => ds

def zeroFilled (l : Layout) : Bool := l.zero && !l.left && l.precision.isNone

def signed (l : Layout) (n : Int) : Bytes :=
  l.fill l.zeroFilled (l.sign (n < 0)) (l.digits (Bytes.ofNat n.natAbs))

def unsigned (l : Layout) (base : Nat) (upper : Bool) (n : Nat) : Bytes :=
  let ds := Nat.toDigits base n
  let ds := l.digits (if upper then ds.map Char.toUpper else ds)
  let ds := if l.alternate && base == 8 && ds.head? != some '0' then '0' :: ds else ds
  let front : Bytes := if l.alternate && base == 16 && n != 0 then ['0', if upper then 'X' else 'x'] else []
  l.fill l.zeroFilled front ds

def places (mantissa : Nat) (exponent : Int) (count : Nat) : Bytes × Bytes :=
  let (num, den) := Binary64.scale 2 (mantissa * Nat.pow 10 count) 1 exponent
  let ds := Bytes.ofNat (Binary64.roundDiv num den)
  let ds := List.replicate (count + 1 - ds.length) '0' ++ ds
  (ds.take (ds.length - count), ds.drop (ds.length - count))

def scientific (mantissa : Nat) (exponent : Int) (count : Nat) : Bytes × Int :=
  if mantissa = 0 then (List.replicate count '0', 0)
  else
    let (num, den) := Binary64.scale 2 mantissa 1 exponent
    let order := Binary64.orderFrom num den 5000 (-400)
    let (num, den) := Binary64.scale 10 num den (count - order)
    let ds := Bytes.ofNat (Binary64.roundDiv num den)
    if count < ds.length then (ds.take count, order) else (ds, order - 1)

def withFraction (l : Layout) (whole fraction : Bytes) : Bytes :=
  if fraction.isEmpty && !l.alternate then whole else whole ++ '.' :: fraction

def exponentPart (upper : Bool) (e : Int) : Bytes :=
  let ds := Bytes.ofNat e.natAbs
  (if upper then 'E' else 'e') :: (if e < 0 then '-' else '+') ::
    (if ds.length < 2 then '0' :: ds else ds)

def fixed (l : Layout) (mantissa : Nat) (exponent : Int) : Bytes :=
  let (whole, fraction) := places mantissa exponent (l.precision.getD 6)
  l.withFraction whole fraction

def exponential (l : Layout) (upper : Bool) (mantissa : Nat) (exponent : Int) : Bytes :=
  let (ds, e) := scientific mantissa exponent (l.precision.getD 6 + 1)
  l.withFraction (ds.take 1) (ds.drop 1) ++ exponentPart upper e

def general (l : Layout) (upper : Bool) (mantissa : Nat) (exponent : Int) : Bytes :=
  let count := max 1 (l.precision.getD 6)
  let (ds, e) := scientific mantissa exponent count
  let cut (t : Bytes) : Bytes := if l.alternate then t else Bytes.dropEndWhile (· == '0') t
  if -4 ≤ e ∧ e < count then
    let (whole, fraction) := places mantissa exponent (count - 1 - e).toNat
    l.withFraction whole (cut fraction)
  else l.withFraction (ds.take 1) (cut (ds.drop 1)) ++ exponentPart upper e

def float (l : Layout) (kind : Char) (x : Binary64) : Bytes :=
  let upper := kind.isUpper
  let word (t : String) : Bytes := if upper then t.toList.map Char.toUpper else t.toList
  match x with
  | .notANumber => { l with zero := false }.fill false [] (word "nan")
  | .infinite negative => l.fill false (l.sign negative) (word "inf")
  | .finite negative mantissa exponent =>
    let body := match kind.toLower with
      | 'e' => l.exponential upper mantissa exponent
      | 'g' => l.general upper mantissa exponent
      | _ => l.fixed mantissa exponent
    l.fill (l.zero && !l.left) (l.sign negative) body

end Layout

def signedNumber? (t : Bytes) : Option (Int × Bytes) :=
  let t := t.dropWhile Bytes.isSpace
  let (negative, t) : Bool × Bytes := match t with
    | '-' :: t => (true, t)
    | '+' :: t => (false, t)
    | t => (false, t)
  match t with
  | c :: _ =>
    if c.isDigit then
      let (n, rest) := Arithmetic.number t
      some (if negative then -(n : Int) else n, rest)
    else none
  | [] => none

def decimal? (t : Bytes) : Option (Binary64 × Bytes) :=
  let t := t.dropWhile Bytes.isSpace
  let (negative, t) : Bool × Bytes := match t with
    | '-' :: t => (true, t)
    | '+' :: t => (false, t)
    | t => (false, t)
  let lower := t.map Char.toLower
  if "infinity".toList.isPrefixOf lower then some (.infinite negative, t.drop 8)
  else if "inf".toList.isPrefixOf lower then some (.infinite negative, t.drop 3)
  else if "nan".toList.isPrefixOf lower then some (.notANumber, t.drop 3)
  else if "0x".toList.isPrefixOf lower && ((lower.drop 2).head?.map fun c =>
      decide (Arithmetic.digitValue c < 16)).getD false then
    let (n, rest) := Arithmetic.digits 16 (t.drop 2)
    some (.ofDecimal negative n 0, rest)
  else
    let whole := t.takeWhile Char.isDigit
    let rest := t.drop whole.length
    let (fraction, rest) : Bytes × Bytes := match rest with
      | '.' :: after =>
        let ds := after.takeWhile Char.isDigit
        if whole.isEmpty && ds.isEmpty then ([], rest) else (ds, after.drop ds.length)
      | rest => ([], rest)
    if whole.isEmpty && fraction.isEmpty then none
    else
      let (e, rest) : Int × Bytes := match rest with
        | c :: after =>
          if c = 'e' ∨ c = 'E' then
            let (minus, ds) : Bool × Bytes := match after with
              | '-' :: ds => (true, ds)
              | '+' :: ds => (false, ds)
              | ds => (false, ds)
            let ds' := ds.takeWhile Char.isDigit
            if ds'.isEmpty then (0, rest)
            else
              let n : Int := Text.decimalValue ds'
              (if minus then -n else n, ds.drop ds'.length)
          else (0, rest)
        | [] => (0, [])
      some (.ofDecimal negative (Text.decimalValue (whole ++ fraction)) (e - fraction.length), rest)

def isOctal (c : Char) : Bool := '0' ≤ c && c ≤ '7'

def upToDigits (base n : Nat) (t : Bytes) : Nat × Bytes :=
  let ds := (t.take n).takeWhile fun c => Arithmetic.digitValue c < base
  (ds.foldl (fun k c => base * k + Arithmetic.digitValue c) 0, t.drop ds.length)

def namedEscape? : Char → Option Char
  | 'a' => some '\x07'
  | 'b' => some '\x08'
  | 'f' => some '\x0c'
  | 'n' => some '\n'
  | 'r' => some '\r'
  | 't' => some '\t'
  | 'v' => some '\x0b'
  | '\\' => some '\\'
  | _ => none

def byteOf (n : Nat) : Char := Char.ofNat (n % 256)

/-- What an escape stands for; the text starts behind the backslash, which itself is given for an
escape that is none. -/
def escape (t : Bytes) : Char × Bytes :=
  match t with
  | [] => ('\\', [])
  | 'e' :: rest => ('\x1b', rest)
  | c :: rest => match namedEscape? c with
    | some d => (d, rest)
    | none =>
      if isOctal c then
        let (n, rest) := upToDigits 8 3 t
        (byteOf n, rest)
      else ('\\', t)

/-- A text with its escapes replaced, and whether output goes on behind it. Octal numbers have a
zero in front. -/
def unescape : Nat → Bytes → Bytes × Bool
  | 0, _ => ([], true)
  | _ + 1, [] => ([], true)
  | n + 1, '\\' :: t =>
    match t with
    | 'c' :: _ => ([], false)
    | t =>
      let t := match t with
        | '0' :: d :: rest => if isOctal d then d :: rest else t
        | t => t
      let (c, rest) := escape t
      let (text, more) := unescape n rest
      (c :: text, more)
  | n + 1, c :: t =>
    let (text, more) := unescape n t
    (c :: text, more)

def unescaped (t : Bytes) : Bytes × Bool := unescape (t.length + 1) t

/-- A directive: its layout, in which a star asks for an argument, and its last character. -/
structure Directive where
  layout : Layout
  widthFromArgument : Bool := false
  precisionFromArgument : Bool := false
  kind : Option Char
  written : Bytes

def directive (t : Bytes) : Directive × Bytes :=
  let flags := t.takeWhile fun c => "#-+ 0".toList.contains c
  let rest := t.drop flags.length
  let layout : Layout := {
    alternate := flags.contains '#', left := flags.contains '-', plus := flags.contains '+'
    space := flags.contains ' ', zero := flags.contains '0' }
  let (widthStar, width, rest) : Bool × Nat × Bytes := match rest with
    | '*' :: rest => (true, 0, rest)
    | rest =>
      let ds := rest.takeWhile Char.isDigit
      (false, Text.decimalValue ds, rest.drop ds.length)
  let (precisionStar, precision, rest) : Bool × Option Nat × Bytes := match rest with
    | '.' :: '*' :: rest => (true, none, rest)
    | '.' :: rest =>
      let ds := rest.takeWhile Char.isDigit
      (false, some (Text.decimalValue ds), rest.drop ds.length)
    | rest => (false, none, rest)
  let after := rest.drop 1
  (⟨{ layout with width, precision }, widthStar, precisionStar, rest.head?,
    '%' :: t.take (t.length - after.length)⟩, after)

end GrammarHeaders.Shell.Format
