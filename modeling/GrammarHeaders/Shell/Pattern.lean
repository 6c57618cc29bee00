import GrammarHeaders.Shell.Bytes

namespace GrammarHeaders.Shell

/-- A character of a word that has been expanded. -/
structure Glyph where
  char : Char
  quoted : Bool
  deriving DecidableEq, Repr

namespace Glyph

def ofBytes (quoted : Bool) (t : Bytes) : List Glyph := t.map fun c => ⟨c, quoted⟩

def bytes (gs : List Glyph) : Bytes := gs.map Glyph.char

def is (g : Glyph) (c : Char) : Bool := g.char == c && !g.quoted

end Glyph

namespace Pattern

/-- What brackets hold. -/
inductive Item where
  | range (low high : Char)
  | named (name : Bytes)
  deriving DecidableEq, Repr

inductive Token where
  | star
  | any
  | char (c : Char)
  | oneOf (negated : Bool) (items : List Item)
  deriving DecidableEq, Repr

def inClass (name : Bytes) (c : Char) : Bool :=
  match String.ofList name with
  | "alpha" => c.isAlpha
  | "digit" => c.isDigit
  | "alnum" => c.isAlphanum
  | "upper" => c.isUpper
  | "lower" => c.isLower
  | "space" => Bytes.isSpace c
  | "blank" => c == ' ' || c == '\t'
  | "punct" => '!' ≤ c && c ≤ '~' && !c.isAlphanum
  | "print" => ' ' ≤ c && c ≤ '~'
  | "graph" => '!' ≤ c && c ≤ '~'
  | "cntrl" => c < ' ' || c == '\x7f'
  | "xdigit" => c.isDigit || ('a' ≤ c && c ≤ 'f') || ('A' ≤ c && c ≤ 'F')
  | _ => false

def classNames : List String :=
  ["alpha", "digit", "alnum", "upper", "lower", "space", "blank", "punct", "print", "graph", "cntrl",
   "xdigit"]

def Item.has (c : Char) : Item → Bool
  | range low high => low ≤ c && c ≤ high
  | named name => inClass name c

def class? (p : List Glyph) : Option (Bytes × List Glyph) :=
  match p with
  | g :: rest =>
    if !g.is ':' then none
    else
      let name := rest.takeWhile fun g => g.char.isAlpha
      match rest.drop name.length with
      | colon :: bracket :: rest =>
        let name := Glyph.bytes name
        if colon.is ':' && bracket.is ']' && classNames.contains (String.ofList name) then
          some (name, rest)
        else none
      | _ => none
  | [] => none

def items : Nat → Bool → List Item → List Glyph → Option (List Item × List Glyph)
  | 0, _, _, _ => none
  | _ + 1, _, _, [] => none
  | n + 1, first, done, g :: rest =>
    if g.is ']' && !first then some (done.reverse, rest)
    else
      let range (c : Char) (rest : List Glyph) : Option (List Item × List Glyph) :=
        match rest with
        | dash :: high :: after =>
          if dash.is '-' && !high.is ']' then
            match high.is '\\', after with
            | true, high :: after => items n false (.range c high.char :: done) after
            | _, _ => items n false (.range c high.char :: done) after
          else items n false (.range c c :: done) rest
        | _ => items n false (.range c c :: done) rest
      match (if g.is '[' then class? rest else none) with
      | some (name, rest) => items n false (.named name :: done) rest
      | none => match g.is '\\', rest with
        | true, next :: rest => range next.char rest
        | _, _ => range g.char rest

def compile : Nat → List Glyph → List Token
  | 0, _ => []
  | _ + 1, [] => []
  | n + 1, g :: rest =>
    if g.is '*' then .star :: compile n rest
    else if g.is '?' then .any :: compile n rest
    else if g.is '[' then
      let negated := match rest with
        | b :: _ => b.is '!'
        | [] => false
      match items (rest.length + 1) true [] (if negated then rest.drop 1 else rest) with
      | some (items, rest) => .oneOf negated items :: compile n rest
      | none => .char '[' :: compile n rest
    else match g.is '\\', rest with
      | true, next :: rest => .char next.char :: compile n rest
      | _, _ => .char g.char :: compile n rest

def ofGlyphs (gs : List Glyph) : List Token := compile (gs.length + 1) gs

def suffixes : Bytes → List Bytes
  | [] => [[]]
  | c :: t => (c :: t) :: suffixes t

def fits : List Token → Bytes → Bool
  | [], t => t.isEmpty
  | .star :: p, t => (suffixes t).any (fits p)
  | .any :: p, t => match t with
    | _ :: t => fits p t
    | [] => false
  | .char c :: p, t => match t with
    | d :: t => c == d && fits p t
    | [] => false
  | .oneOf negated items :: p, t => match t with
    | d :: t => (items.any (Item.has d) != negated) && fits p t
    | [] => false

def isMeta (g : Glyph) : Bool := g.is '*' || g.is '?' || g.is '['

def dropFront (longest : Bool) (p : List Token) (t : Bytes) : Bytes :=
  let lengths := List.range (t.length + 1)
  let lengths := if longest then lengths.reverse else lengths
  match lengths.find? fun n => fits p (t.take n) with
  | some n => t.drop n
  | none => t

def dropBack (longest : Bool) (p : List Token) (t : Bytes) : Bytes :=
  let lengths := List.range (t.length + 1)
  let lengths := if longest then lengths else lengths.reverse
  match lengths.find? fun n => fits p (t.drop n) with
  | some n => t.take n
  | none => t

end Pattern

end GrammarHeaders.Shell
