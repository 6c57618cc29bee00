import GrammarHeaders.Generator
import GrammarHeaders.Patching
import GrammarHeaders.Publishing

namespace GrammarHeaders

structure Options where
  rootRepo : Path
  /-- Checkouts of grammars, in the order they were given. -/
  grammarRepos : List Path
  bindingsOut : Path
  headersOut : Path
  smokeTestOut : Option Path
  config : Config
  deriving DecidableEq, Repr

/-- A grammar that could not be processed. -/
structure ModuleFailure where
  repo : Path
  failure : Failure
  deriving DecidableEq, Repr

structure Report where
  rootModule : String
  rootHeaders : List Path
  languageHeaders : List LanguageHeader
  patch : PatchSummary
  smokeTest : Option Path
  failures : List ModuleFailure
  deriving DecidableEq, Repr

namespace Report

def totalModules (r : Report) : Nat := r.languageHeaders.length + r.failures.length

/-- The failure that the report amounts to; its exit status is that of the first grammar that
failed. -/
def failure? (r : Report) : Option Failure :=
  match r.failures with
  | [] => none
  | first :: _ => some (.modulesFailed r.failures.length r.totalModules first.failure.exitCode)

end Report

/-- Give every grammar its module name. A name belongs to the first that comes with it, and the root
library comes before all grammars. -/
def assignNames (d : Disk) (taken : List (String × Path)) : List Path → List (Except Failure Path)
  | [] => []
  | repo :: rest =>
    let module := moduleNameOf d repo
    match taken.lookup module with
    | some first => .error (.duplicateModule module repo first) :: assignNames d taken rest
    | none => .ok repo :: assignNames d (taken ++ [(module, repo)]) rest

/-- What the work on a grammar has come to. -/
abbrev ModuleResult := Except Failure (LanguageHeader × Outcome)

/-- Work on one grammar. The generator gets the header as extracted; the export macro comes
after it. -/
def runModule (o : Options) (g : Generator) (repo : Path) : Action (LanguageHeader × Outcome) := do
  let m ← Stage.within (.layout repo) (LanguageModule.discover repo)
  let header ← writeLanguageHeader m o.headersOut o.config
  let includeDir := header.parent?.getD o.headersOut
  let outcome ← g.ask ⟨m.name, [header], includeDir, o.bindingsOut⟩
  return (← annotateLanguageHeader m header o.config, outcome)

/-- Run a stage to its end; its failure is a result like any other. -/
def attempt {α : Type} (action : Action α) : Action (Except Failure α) :=
  ExceptT.mk fun s =>
    let (result, s) := action.start s
    (.ok result, s)

/-- Work on every grammar that has its name, in order: the schedule of a single worker. Several
workers share the grammars between them as `Work` and `runSchedule` have it. -/
def runModules (o : Options) (g : Generator) :
    List (Except Failure Path) → Action (List ModuleResult)
  | [] => return []
  | repo :: rest => do
    let result ← match repo with
      | .error failure => pure (.error failure)
      | .ok repo => attempt (runModule o g repo)
    return result :: (← runModules o g rest)

/-- What the grammars have come to. -/
structure ModuleResults where
  headers : List LanguageHeader := []
  failures : List ModuleFailure := []
  generated : Bool := false

/-- Sort results into headers and failures, and note the failures in the log. -/
def collect : List (Path × ModuleResult) → Action ModuleResults
  | [] => return {}
  | (_, .ok (header, outcome)) :: rest => do
    let others ← collect rest
    return { others with
      headers := header :: others.headers
      generated := outcome == .generated || others.generated }
  | (repo, .error failure) :: rest => do
    Stage.log (.debug s!"{repo} failed: {failure.message}")
    let others ← collect rest
    return { others with failures := ⟨repo, failure⟩ :: others.failures }

def smokeModule? : List ModuleResult → Option String
  | .ok (header, _) :: _ => some header.moduleName
  | _ => none

def writeSmokeTestFor (o : Options) (root : String) (language : Option String) :
    Action (Option Path) :=
  match o.smokeTestOut, language with
  | none, _ => return none
  | some dir, some language => some <$> writeSmokeTest dir root language
  | some dir, none => do
    Stage.log (.warn s!"not writing a smoke test to {dir}: the first grammar failed")
    return none

/-- The pipeline, where `work` is the loop over the grammars that have their names. -/
def generateWith (o : Options) (g : Generator)
    (work : List (Except Failure Path) → Action (List ModuleResult)) : Action Report := do
  if !(← Stage.disk).isDir o.rootRepo then throw (.rootRepoNotFound o.rootRepo)
  if o.grammarRepos.isEmpty then throw .missingGrammars
  let root ← Stage.within (.layout o.rootRepo) (RootLibrary.discover o.rootRepo o.config.layout)
  Stage.log (.info s!"root library {root.name} with {root.headerFiles.length} header(s)")
  let rootOutcome ← g.ask ⟨root.name, root.headerFiles, root.includeDir, o.bindingsOut⟩
  let rootHeaders ← exportRootHeaders root o.headersOut o.config
  let accepted := assignNames (← Stage.disk) [(root.name, root.repo)] o.grammarRepos
  let results ← work accepted
  let modules ← collect (o.grammarRepos.zip results)
  let patch ← patchGenerated root.name o.bindingsOut
    (rootOutcome == .generated || modules.generated)
  let smokeTest ← writeSmokeTestFor o root.name (smokeModule? results)
  return ⟨root.name, rootHeaders, modules.headers, patch, smokeTest, modules.failures⟩

/-- The pipeline with one worker. -/
def generate (o : Options) (g : Generator) : Action Report := generateWith o g (runModules o g)

end GrammarHeaders
