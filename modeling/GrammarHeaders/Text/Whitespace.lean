import GrammarHeaders.Text.Basic

namespace GrammarHeaders.Text

def isBlank (c : Char) : Bool := c == ' ' || c == '\t'

def whiteRanges : List (Nat × Nat) :=
  [(0x0009, 0x000D), (0x0020, 0x0020), (0x0085, 0x0085), (0x00A0, 0x00A0), (0x1680, 0x1680),
   (0x2000, 0x200A), (0x2028, 0x2029), (0x202F, 0x202F), (0x205F, 0x205F), (0x3000, 0x3000)]

def isWhite (c : Char) : Bool :=
  whiteRanges.any fun (low, high) => low ≤ c.toNat && c.toNat ≤ high

def trimStart (t : Text) : Text := t.dropWhile isWhite

def firstToken (t : Text) : Text := (trimStart t).takeWhile fun c => !isWhite c

end GrammarHeaders.Text
