import GrammarHeaders.Text.Utf8

namespace GrammarHeaders.Shell

/-- A text in which every character stands for a byte. -/
abbrev Bytes := List Char

namespace Bytes

def ofBytes (bytes : List UInt8) : Bytes := bytes.map fun b => Char.ofNat b.toNat

def toBytes (t : Bytes) : List UInt8 := t.map fun c => UInt8.ofNat c.toNat

def ofString (s : String) : Bytes := ofBytes s.toUTF8.toList

def toString (t : Bytes) : String := String.ofList (Utf8.decodeLossy (toBytes t))

def ofNat (n : Nat) : Bytes := Nat.toDigits 10 n

def ofInt (n : Int) : Bytes := if n < 0 then '-' :: ofNat n.natAbs else ofNat n.natAbs

def join (separator : Bytes) (parts : List Bytes) : Bytes := separator.intercalate parts

def linesFrom (stop : Char) (front : Bytes) : Bytes → List Bytes
  | [] => if front.isEmpty then [] else [front.reverse]
  | c :: t =>
    if c = stop then (c :: front).reverse :: linesFrom stop [] t else linesFrom stop (c :: front) t

def linesBy (stop : Char) (t : Bytes) : List Bytes := linesFrom stop [] t

def lines (t : Bytes) : List Bytes := linesBy '\n' t

def chomp (line : Bytes) : Bytes := if line.getLast? = some '\n' then line.dropLast else line

def dropEndWhile (p : Char → Bool) (t : Bytes) : Bytes := (t.reverse.dropWhile p).reverse

def le (s t : Bytes) : Bool :=
  match s, t with
  | [], _ => true
  | _ :: _, [] => false
  | c :: s, d :: t => if c = d then le s t else c < d

def isNameStart (c : Char) : Bool := c.isAlpha || c == '_'

def isNameChar (c : Char) : Bool := c.isAlphanum || c == '_'

def isName : Bytes → Bool
  | [] => false
  | c :: t => isNameStart c && t.all isNameChar

def isNumber (t : Bytes) : Bool := !t.isEmpty && t.all Char.isDigit

def isSpace (c : Char) : Bool := c == ' ' || ('\t' ≤ c && c ≤ '\r')

end Bytes

def iterate {m : Type → Type} [Monad m] {σ α : Type} (step : σ → m (σ ⊕ α)) (exhausted : σ → m α) :
    Nat → σ → m α
  | 0, s => exhausted s
  | n + 1, s => do
    match ← step s with
    | .inl s => iterate step exhausted n s
    | .inr a => pure a

end GrammarHeaders.Shell
