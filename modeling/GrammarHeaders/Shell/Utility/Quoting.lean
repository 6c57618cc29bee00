import GrammarHeaders.Shell.Bytes

namespace GrammarHeaders.Shell.Quoting

/-- An escape for a character that cannot be printed; digits behind it do not matter, as a number
always has three. -/
def escape (c : Char) : Bytes :=
  match c with
  | '\x07' => "\\a".toList
  | '\x08' => "\\b".toList
  | '\x0c' => "\\f".toList
  | '\n' => "\\n".toList
  | '\r' => "\\r".toList
  | '\t' => "\\t".toList
  | '\x0b' => "\\v".toList
  | c =>
    let ds := Nat.toDigits 8 c.toNat
    '\\' :: List.replicate (3 - ds.length) '0' ++ ds

def isPrintable (c : Char) : Bool := ' ' ≤ c && c ≤ '~'

def isSpecial (c : Char) : Bool := !isPrintable c || " !\"$&()*;<=>[^`|'\\?".toList.contains c

def isPlain (c : Char) : Bool := c.isAlphanum || " '%+,-./:]_#~\x7b\x7d".toList.contains c

def needsQuotes (also t : Bytes) : Bool :=
  t.isEmpty || t.any (fun c => isSpecial c || also.contains c) ||
    t.head? == some '#' || t.head? == some '~' || t == ['{'] || t == ['}']

def inside : Bool → Bytes → Bytes
  | escaping, [] => if escaping then "''".toList else []
  | escaping, c :: t =>
    if isPrintable c then
      (if escaping then "''".toList else []) ++
        (if c = '\'' then "'\\''".toList else [c]) ++ inside false t
    else (if escaping then [] else "'$'".toList) ++ escape c ++ inside true t

def always (t : Bytes) : Bytes :=
  if t.contains '\'' && t.all isPlain then '"' :: t ++ ['"']
  else '\'' :: inside false t ++ ['\'']

def ifNeeded (t : Bytes) : Bytes := if needsQuotes [':'] t then always t else t

def words (t : Bytes) : Bytes :=
  '\'' :: t.flatMap (fun c =>
    if c = '\'' ∨ c = '\\' then ['\\', c] else if isPrintable c then [c] else escape c) ++ ['\'']

end GrammarHeaders.Shell.Quoting
