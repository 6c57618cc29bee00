import GrammarHeaders.Discovery
import GrammarHeaders.Header
import GrammarHeaders.SmokeTest

namespace GrammarHeaders

def annotateFiles (a : Annotator) : List Path → Action (List Path)
  | [] => return []
  | file :: rest => do
    let (updated, prefixed) ← Action.updateInPlace file fun t =>
      let annotated := a.annotate t
      (annotated.text, annotated.prefixed)
    if updated then
      Stage.log (.debug s!"exported {prefixed} declaration(s) in {file}")
    let changed ← annotateFiles a rest
    return if updated then file :: changed else changed

/-- Copy headers into a directory, flattened by file name. -/
def copyHeaders (dir : Path) : List Path → Action (List Path)
  | [] => return []
  | header :: rest => match header.fileName? with
    | none => copyHeaders dir rest
    | some name => do
      let copy := dir / name
      Action.copyFile header copy
      return copy :: (← copyHeaders dir rest)

/-- Copy every header of the root library into its module directory and annotate the copies. The
copies are made anew each time, so that annotation starts from the headers as they are. -/
def exportRootHeaders (root : RootLibrary) (headersOut : Path) (config : Config) :
    Action (List Path) := do
  let dir ← Action.ensureModuleDir headersOut root.name
  Stage.log (.info
    s!"exporting {root.headerFiles.length} header(s) from {root.includeDir} to {dir}")
  let copies ← copyHeaders dir root.headerFiles
  let _ ← annotateFiles config.rootAnnotator copies
  return copies

/-- What was published for a grammar. -/
structure LanguageHeader where
  moduleName : String
  headerPath : Path
  /-- Number of exported declarations. -/
  exported : Nat
  deriving DecidableEq, Repr

def extractHeader (m : LanguageModule) (config : Config) : Action Header := do
  let parser ← Stage.ofExcept (m.parserFile config.layout)
  let source ← Action.readText parser
  match Factory.extractDeclarations source m.factoryName config.nameCheck parser with
  | .error fault => throw (.shape fault)
  | .ok (declarations, lines) =>
    Stage.logAll lines
    return Header.synthesize m.name (m.provenance parser) declarations (LineEnding.detect source)

/-- Write the header of a grammar into its module directory, as extracted. -/
def writeLanguageHeader (m : LanguageModule) (headersOut : Path) (config : Config) :
    Action Path := do
  let header ← extractHeader m config
  let dir ← Action.ensureModuleDir headersOut header.moduleName
  let path := dir / Header.fileName header.moduleName
  Action.writeText path header.text
  return path

/-- Annotate a header that has been written. -/
def annotateLanguageHeader (m : LanguageModule) (path : Path) (config : Config) :
    Action LanguageHeader := do
  let (_, exported) ← Action.updateInPlace path fun t =>
    let annotated := config.languageAnnotator.annotate t
    (annotated.text, annotated.prefixed)
  Stage.log (.info s!"generated {path} ({exported} exported declaration(s))")
  return ⟨m.name, path, exported⟩

def processGrammar (repo headersOut : Path) (config : Config) : Action LanguageHeader := do
  let m ← Stage.within (.layout repo) (LanguageModule.discover repo)
  Stage.log (.debug s!"{m.name}: {m.sourceFiles.length} source file(s) in {m.sourceDir}")
  let path ← writeLanguageHeader m headersOut config
  annotateLanguageHeader m path config

/-- Write the smoke test into a directory, which is created if need be. -/
def writeSmokeTest (dir : Path) (root language : String) : Action Path := do
  Action.ensureDirOr .createSmokeTestDirectory dir
  let path := dir / SmokeTest.fileName
  Action.writeText path (SmokeTest.program root language).toList
  Stage.log (.info s!"wrote smoke test {path}")
  return path

end GrammarHeaders
