namespace GrammarHeaders

inductive Level where
  | debug
  | info
  | warn
  deriving DecidableEq, Repr

namespace Level

def word : Level → String
  | debug => "DEBUG"
  | info => "INFO"
  | warn => "WARN"

def rank : Level → Nat
  | debug => 0
  | info => 1
  | warn => 2

end Level

structure LogLine where
  level : Level
  message : String
  deriving DecidableEq, Repr

namespace LogLine

def debug (message : String) : LogLine := ⟨.debug, message⟩

def info (message : String) : LogLine := ⟨.info, message⟩

def warn (message : String) : LogLine := ⟨.warn, message⟩

def render (l : LogLine) : String := s!"{l.level.word}: {l.message}"

def steersTerminal (c : Char) : Bool :=
  c == '\x07' || c == '\x08' || c == '\x0c' || c == '\x1b' || ('\x7f' ≤ c && c ≤ '\u009f')

def spelled (c : Char) : List Char :=
  if !steersTerminal c then [c]
  else
    let digits := Nat.toDigits 16 c.toNat
    if c.toNat < 0x80 then
      ['\\', 'x'] ++ List.replicate (2 - digits.length) '0' ++ digits
    else ['\\', 'u', '\x7b'] ++ digits ++ ['\x7d']

def renderAligned (l : LogLine) : String :=
  String.ofList (List.replicate (5 - l.level.word.length) ' ' ++ l.level.word.toList ++ [' '] ++
    l.message.toList.flatMap spelled)

end LogLine

end GrammarHeaders
