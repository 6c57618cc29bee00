import GrammarHeaders.Text.Basic

namespace GrammarHeaders.Text

def fold (c : Char) : Char :=
  if c = 'ſ' then 's' else if c = '\u212a' then 'k' else c.toLower

def foldedStart? : Text → Text → Option (Text × Text)
  | [], t => some ([], t)
  | _ :: _, [] => none
  | p :: literal, c :: t =>
    if fold c = p then (foldedStart? literal t).map fun (spelled, rest) => (c :: spelled, rest)
    else none

end GrammarHeaders.Text
