import GrammarHeaders.CommandLine.Commands
import GrammarHeaders.Config.Load
import GrammarHeaders.Pipeline

namespace GrammarHeaders.CommandLine

/-- What a command is run in. -/
structure Environment where
  machine : Machine
  /-- The absolute path of the current directory. -/
  cwd : Path
  home : Option Path
  noColor : Option String

/-- What goes to the standard output. -/
inductive Printed where
  | nothing
  | version
  | manual
  | completions (shell : String)
  deriving DecidableEq, Repr

structure Answer where
  exitCode : Int
  printed : Printed := .nothing
  errors : String := ""
  /-- The command line was not understood. -/
  misused : Bool := false
  deriving DecidableEq, Repr

def versionLine : String := "tsheader 0.1.0"

def Invocation.level (i : Invocation) : Level :=
  if i.verbose then .debug else if i.quiet then .warn else .info

def shown (level : Level) (lines : List LogLine) : String :=
  String.join ((lines.filter fun l => level.rank ≤ l.level.rank).map fun l => l.renderAligned ++ "\n")

/-- What a command says at its end, and the failure that it ends with all the same. -/
structure Closing where
  words : String
  failure : Option Failure := none

def generateCommand (env : Environment) (o : Options) : Action Closing := do
  let g := Generator.ofSettings env.machine o.config.bindings
  Stage.log (.debug s!"binding generator: {g.name}")
  let report ← generate o g
  let failures := report.failures.map fun f =>
    (f.failure.diagnostic.withContext s!"while processing {f.repo}").render false
  let summary := s!"   Generated {report.rootHeaders.length} root header(s) and " ++
    s!"{report.languageHeaders.length} grammar header(s) in {o.headersOut}\n"
  let patched :=
    if 0 < report.patch.filesPatched then
      s!"     Patched {report.patch.filesPatched} binding file(s) in {o.bindingsOut}\n"
    else ""
  let smokeTest := match report.smokeTest with
    | some path => s!"       Wrote {path}\n"
    | none => ""
  return ⟨String.join failures ++ summary ++ patched ++ smokeTest, report.failure?⟩

def headerCommand (grammar headersOut : Path) (config : Config) : Action Closing := do
  let header ← processGrammar grammar headersOut config
  return { words :=
    s!"   Generated {header.headerPath} ({header.exported} exported declaration(s))\n" }

def annotateCommand (files : List Path) (functionPrefix : String) (config : Config) :
    Action Closing := do
  let changed ← annotateFiles ⟨config.exportMacro, functionPrefix, .skip⟩ files
  let line (file : Path) : String :=
    if changed.any fun c => c.same file then s!"   Annotated {file}\n" else s!"   Unchanged {file}\n"
  return { words := String.join (files.map line) }

def patchPaths : List Path → Action PatchSummary
  | [] => return {}
  | path :: rest => do
    let first ← patchPath path
    return first.add (← patchPaths rest)

def patchCommand (paths : List Path) : Action Closing := do
  let total ← patchPaths paths
  return { words := s!"     Patched {total.linesPatched} line(s) in {total.filesPatched} of " ++
    s!"{total.filesScanned} file(s)\n" }

def conclude (level : Level) (before : List LogLine) (action : Action Closing) (d : Disk) :
    Answer × Disk :=
  let (result, s) := action.start { disk := d, log := before }
  let ending (f : Failure) : String := f.diagnostic.render false
  match result with
  | .error f => ({ exitCode := f.exitCode, errors := shown level s.log ++ ending f }, s.disk)
  | .ok ⟨words, none⟩ => ({ exitCode := 0, errors := shown level s.log ++ words }, s.disk)
  | .ok ⟨words, some f⟩ =>
    ({ exitCode := f.exitCode, errors := shown level s.log ++ words ++ ending f }, s.disk)

def runCommand (env : Environment) (i : Invocation) (d : Disk) : Answer × Disk :=
  let (config, warnings) := Config.loadLayered d (env.home.map Config.fileIn) (Config.fileIn env.cwd)
  let tolerant (allow : Bool) (c : Config) : Config :=
    if allow then { c with generate := { c.generate with allowNameMismatch := true } } else c
  match i.command with
  | .completions shell => ({ exitCode := 0, printed := .completions shell }, d)
  | .patchBindings paths => conclude i.level [] (patchCommand paths) d
  | .annotate files functionPrefix =>
    conclude i.level warnings (annotateCommand files functionPrefix config) d
  | .header grammar headersOut allow =>
    conclude i.level warnings (headerCommand grammar headersOut (tolerant allow config)) d
  | .generate root grammars bindingsOut headersOut smokeTestOut jobs allow generator =>
    let config := tolerant allow config
    let config := { config with
      generate := { config.generate with jobs := jobs.or config.generate.jobs }
      bindings := { config.bindings with generator := generator.or config.bindings.generator } }
    conclude i.level warnings
      (generateCommand env ⟨root, grammars, bindingsOut, headersOut, smokeTestOut, config⟩) d

def run (env : Environment) (args : List String) (d : Disk) : Answer × Disk :=
  match parse env.noColor args with
  | .usage => ({ exitCode := 2, misused := true }, d)
  | .help => ({ exitCode := 0, printed := .manual }, d)
  | .version => ({ exitCode := 0, printed := .version }, d)
  | .run i => runCommand env i d

end GrammarHeaders.CommandLine
