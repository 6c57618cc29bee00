import GrammarHeaders.Text.Basic

namespace GrammarHeaders.Utf8

def continuations (first : Nat) : Option (List (Nat × Nat)) :=
  let any := (0x80, 0xBF)
  if 0xC2 ≤ first ∧ first ≤ 0xDF then some [any]
  else if first = 0xE0 then some [(0xA0, 0xBF), any]
  else if first = 0xED then some [(0x80, 0x9F), any]
  else if 0xE1 ≤ first ∧ first ≤ 0xEF then some [any, any]
  else if first = 0xF0 then some [(0x90, 0xBF), any, any]
  else if first = 0xF4 then some [(0x80, 0x8F), any, any]
  else if 0xF1 ≤ first ∧ first ≤ 0xF3 then some [any, any, any]
  else none

def leadingBits (first : Nat) : Nat :=
  if first < 0xE0 then first - 0xC0 else if first < 0xF0 then first - 0xE0 else first - 0xF0

def accept : List (Nat × Nat) → Nat → List UInt8 → Option Nat × List UInt8
  | [], code, bytes => (some code, bytes)
  | _ :: _, _, [] => (none, [])
  | (low, high) :: ranges, code, b :: bytes =>
    if low ≤ b.toNat ∧ b.toNat ≤ high then accept ranges (64 * code + (b.toNat - 0x80)) bytes
    else (none, b :: bytes)

def piece (first : UInt8) (bytes : List UInt8) : Option Char × List UInt8 :=
  if first.toNat < 0x80 then (some (Char.ofNat first.toNat), bytes)
  else match continuations first.toNat with
    | none => (none, bytes)
    | some ranges =>
      let (code, rest) := accept ranges (leadingBits first.toNat) bytes
      (code.map Char.ofNat, rest)

def piecesUpTo : Nat → List UInt8 → List (Option Char)
  | 0, _ => []
  | _ + 1, [] => []
  | n + 1, b :: bytes =>
    let (c, rest) := piece b bytes
    c :: piecesUpTo n rest

def pieces (bytes : List UInt8) : List (Option Char) := piecesUpTo bytes.length bytes

def decode? (bytes : List UInt8) : Option Text := (pieces bytes).mapM id

/-- The text of bytes in which every piece that is not a character shows as a replacement
character. -/
def decodeLossy (bytes : List UInt8) : Text := (pieces bytes).map fun c => c.getD '\ufffd'

def encode (t : Text) : List UInt8 := (String.ofList t).toUTF8.toList

end GrammarHeaders.Utf8
