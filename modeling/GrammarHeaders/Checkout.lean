import GrammarHeaders.Config.Basic
import GrammarHeaders.ModuleName

namespace GrammarHeaders

def hasExtension (p : Path) (extensions : List String) : Bool :=
  match p.extension? with
  | some ext => extensions.contains (String.ofList (ext.toList.map Char.toLower))
  | none => false

def sourceExtensions : List String := ["c", "cc"]

def headerExtensions : List String := ["h", "hpp"]

def bindingExtensions : List String := ["cs"]

/-- A grammar's checkout. -/
structure LanguageModule where
  name : String
  repo : Path
  sourceDir : Path
  sourceFiles : List Path
  deriving DecidableEq, Repr

namespace LanguageModule

def factoryName (m : LanguageModule) : String := ModuleName.factoryName m.name

def parserFile (m : LanguageModule) (layout : LayoutSettings) : Except Failure Path :=
  match m.sourceFiles.find? fun file => file.fileName? == some layout.parserFile with
  | some file => .ok file
  | none => .error (.parserFileNotFound layout.parserFile m.sourceDir)

/-- How the header names the parser: the name of the checkout's directory and the path inside
it, so that the place of the checkout does not show. -/
def provenance (m : LanguageModule) (parser : Path) : Path :=
  let inside := (parser.below? m.repo).getD parser
  match m.repo.fileName? with
  | some name => (⟨name⟩ : Path).join inside
  | none => inside

end LanguageModule

/-- The root library's checkout. -/
structure RootLibrary where
  name : String
  repo : Path
  includeDir : Path
  headerFiles : List Path
  deriving DecidableEq, Repr

end GrammarHeaders
