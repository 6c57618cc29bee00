import GrammarHeaders.Text.Basic

namespace GrammarHeaders

inductive LineEnding where
  | lf
  | crlf
  deriving DecidableEq, Repr

namespace LineEnding

def text : LineEnding → Text
  | lf => ['\n']
  | crlf => ['\r', '\n']

/-- The first newline character decides: a carriage return means `crlf`, and a text without any
newline has `lf`. -/
def detect : Text → LineEnding
  | [] => lf
  | '\n' :: _ => lf
  | '\r' :: _ => crlf
  | _ :: t => detect t

end LineEnding

/-- One line; only the last line of a text may lack a terminator. -/
structure Line where
  content : Text
  terminator : Option LineEnding
  deriving DecidableEq, Repr

namespace Line

def ending (l : Line) : Text := (l.terminator.map LineEnding.text).getD []

def text (l : Line) : Text := l.content ++ l.ending

end Line

namespace Text

def linesAfter (front : Text) : Text → List Line
  | [] => if front.isEmpty then [] else [⟨front.reverse, none⟩]
  | '\n' :: t => ⟨front.reverse, some .lf⟩ :: linesAfter [] t
  | '\r' :: '\n' :: t => ⟨front.reverse, some .crlf⟩ :: linesAfter [] t
  | c :: t => linesAfter (c :: front) t

def lines (t : Text) : List Line := linesAfter [] t

def ofLines (ls : List Line) : Text := ls.flatMap Line.text

theorem ofLines_linesAfter (front t : Text) : ofLines (linesAfter front t) = front.reverse ++ t := by
  fun_induction linesAfter front t with
  | case1 front h => simp_all [ofLines]
  | case2 front h => simp [ofLines, Line.text, Line.ending]
  | case3 front t ih => simp_all [ofLines, Line.text, Line.ending, LineEnding.text]
  | case4 front t ih => simp_all [ofLines, Line.text, Line.ending, LineEnding.text]
  | case5 front c t _ _ ih => simp_all

theorem ofLines_lines (t : Text) : ofLines (lines t) = t := by
  simp [lines, ofLines_linesAfter]

end Text

end GrammarHeaders
