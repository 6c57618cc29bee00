import GrammarHeaders.Marker
import GrammarHeaders.Text.Upper

namespace GrammarHeaders.ModuleName

def dropCheckoutMark : Text → Text
  | c :: r :: s :: '-' :: rest =>
    if c.toLower = 'c' ∧ r.toLower = 'r' ∧ s.toLower = 's' then dropCheckoutMark rest
    else c :: r :: s :: '-' :: rest
  | t => t

/-- The module name that a directory name gives: trailing `-src` marks are dropped, and every
dash becomes an underscore. -/
def ofDirectory (dir : String) : String :=
  let name := (dropCheckoutMark dir.toList.reverse).reverse
  String.ofList (name.map fun c => if c = '-' then '_' else c)

def isIdentifierFragment (name : String) : Bool :=
  !name.toList.isEmpty && name.toList.all Text.isAsciiWord

/-- The factory that the parser of a module must define. A module that is named like a grammar
function gives the name itself. -/
def factoryName (module : String) : String :=
  if grammarFunctionPrefix.toList.isPrefixOf module.toList then module
  else grammarFunctionPrefix ++ module

def capitalize : Text → Text
  | [] => []
  | c :: t => Text.upper c ++ t

def pascalCase (name : String) : String :=
  String.ofList ((Text.splitOn '_' name.toList).flatMap capitalize)

end GrammarHeaders.ModuleName
