import GrammarHeaders.Pipeline

namespace GrammarHeaders

/-- How far a worker has come with a grammar. A discovery, an extraction, the making of a directory,
each reading and writing of a header and the answer of the generator are one call each, which is taken
as a whole; whatever comes between two calls is up to the schedule. -/
inductive Work where
  | waiting (repo : Path)
  | found (m : LanguageModule)
  | extracted (m : LanguageModule) (header : Header)
  | placed (m : LanguageModule) (path : Path) (text : Text)
  | written (m : LanguageModule) (path : Path)
  | bound (m : LanguageModule) (path : Path) (outcome : Outcome)
  | read (m : LanguageModule) (path : Path) (outcome : Outcome) (text : Text)
  | ended (result : ModuleResult)

namespace Work

def ofClaim : Except Failure Path → Work
  | .ok repo => waiting repo
  | .error failure => ended (.error failure)

/-- The next call that is made for a grammar. Between two of them other workers make theirs. -/
def advance (o : Options) (g : Generator) : Work → Action Work
  | waiting repo => do return found (← Stage.within (.layout repo) (LanguageModule.discover repo))
  | found m => do return extracted m (← extractHeader m o.config)
  | extracted m header => do
    let dir ← Action.ensureModuleDir o.headersOut header.moduleName
    return placed m (dir / Header.fileName header.moduleName) header.text
  | placed m path text => do
    Action.writeText path text
    return written m path
  | written m path => do
    let includeDir := path.parent?.getD o.headersOut
    return bound m path (← g.ask ⟨m.name, [path], includeDir, o.bindingsOut⟩)
  | bound m path outcome => do return read m path outcome (← Action.readText path)
  | read m path outcome text => do
    let annotated := o.config.languageAnnotator.annotate text
    if annotated.text ≠ text then Action.writeText path annotated.text
    Stage.log (.info s!"generated {path} ({annotated.prefixed} exported declaration(s))")
    return ended (.ok (⟨m.name, path, annotated.prefixed⟩, outcome))
  | ended result => return ended result

/-- A call that fails ends the work on the grammar. -/
def step (o : Options) (g : Generator) (w : Work) : Action Work := do
  match ← attempt (w.advance o g) with
  | .ok next => return next
  | .error failure => return ended (.error failure)

def calls : Nat := 7

def result? : Work → Option ModuleResult
  | ended result => some result
  | _ => none

end Work

/-- Let the worker of each grammar that a schedule names make one call. A schedule can be any list of
numbers; which workers there are, and how many at a time, only decides which schedules come up. -/
def runSchedule (o : Options) (g : Generator) : List Nat → List Work → Action (List Work)
  | [], works => return works
  | i :: rest, works => match works[i]? with
    | some w => do runSchedule o g rest (works.set i (← w.step o g))
    | none => runSchedule o g rest works

/-- All calls for one grammar after the other. -/
def inTurn (n : Nat) : List Nat := (List.range n).flatMap (List.replicate Work.calls)

/-- Work on every grammar that has its name, by a schedule. What the schedule leaves to do is done in
turn in the end. -/
def runModulesBy (o : Options) (g : Generator) (schedule : List Nat)
    (accepted : List (Except Failure Path)) : Action (List ModuleResult) := do
  let works ← runSchedule o g (schedule ++ inTurn accepted.length) (accepted.map .ofClaim)
  return works.filterMap Work.result?

end GrammarHeaders
