import GrammarHeaders.Config.Basic
import GrammarHeaders.Session
import GrammarHeaders.Text.Line
import GrammarHeaders.Text.Utf8
import GrammarHeaders.Text.Whitespace

namespace GrammarHeaders

structure Generator where
  name : String
  answer : Request → Action Outcome

namespace Generator

/-- Put a request to a generator, and keep it with the texts of its headers. -/
def ask (g : Generator) (r : Request) : Action Outcome := do
  let d ← Stage.disk
  let texts := r.headers.map fun header => (d.readText header).toOption
  modify fun s => { s with asked := s.asked ++ [⟨r, texts⟩] }
  g.answer r

def none : Generator :=
  ⟨"none", fun r => do
    Stage.log (.info s!"no binding generator configured, skipping bindings for {r.module}")
    return .skipped⟩

end Generator

/-- A program that has ended: with an exit status, or by a signal without one. -/
structure Finished where
  status : Option Nat
  output : List UInt8
  errors : List UInt8
  deriving DecidableEq, Repr

/-- The machine that programs run on. The pipeline takes any; `Shell.Program.machine` is one that runs
the scripts of a binding generator. -/
structure Machine where
  /-- Directories that are searched for a program given by its name. -/
  searchPath : List Path
  /-- Run a program file with arguments; it may fail to start. -/
  execute : Path → List String → Disk → Except Cause Finished × Disk

namespace Machine

def isExecutable (d : Disk) (path : Path) : Bool :=
  match d.entryAt path true with
  | .ok (_, .file _ executable) => executable
  | _ => false

/-- A directory of the search path. One that is not absolute is put below the current directory,
component by component. -/
def absoluteDir (d : Disk) (dir : Path) : Path :=
  if dir.isAbsolute || !d.hasCwd then dir
  else
    let here : Path := ⟨"/" ++ "/".intercalate d.cwd⟩
    here.extend (dir.components.filter (· != .here))

/-- The file of a program: an existing file is used as it is, and a bare name is searched. Where
there is no current directory, every name is. -/
def resolveProgram (m : Machine) (d : Disk) (program : Path) : Option Path :=
  if d.isFile program then some program
  else if program.text = "" ∨ (program.text.toList.contains '/' ∧ d.hasCwd) then none
  else (m.searchPath.map fun dir => absoluteDir d dir / program.text).find? (isExecutable d)

end Machine

namespace Generator

def outputLines (bytes : List UInt8) : List Text :=
  ((Text.lines (Utf8.decodeLossy bytes)).map Line.content).filter fun line =>
    line.any fun c => !Text.isWhite c

def statusWords : Option Nat → String
  | some code => s!"Some({code})"
  | .none => "None"

/-- The generator that runs a program. Its output goes to the log, and a program that cannot be
found, cannot be started or ends badly fails the request. -/
def external (m : Machine) (p : ExternalProgram) : Generator :=
  ⟨p.name, fun r => do
    match m.resolveProgram (← Stage.disk) p.program with
    | .none => throw (.bindingGeneration r.module s!"could not find `{p.program}`")
    | some program =>
      let args := p.expandArgs r
      let command := displayCommand program args
      Stage.log (.debug s!"running {command}")
      let (result, d) := m.execute program args (← Stage.disk)
      Stage.setDisk d
      match result with
      | .error cause =>
        throw (.bindingGeneration r.module s!"failed to spawn `{program}`: {cause.message}")
      | .ok finished =>
        if finished.status = some 0 then
          Stage.logAll ((outputLines finished.output).map fun line =>
            .debug (p.name ++ ": " ++ String.ofList line))
          return .generated
        else
          let errors := String.ofList (Utf8.decodeLossy finished.errors)
          let status := statusWords finished.status
          throw (.bindingGeneration r.module
            (s!"`{command}` failed with exit code {status}\n" ++ errors))⟩

def ofSettings (m : Machine) (settings : BindingSettings) : Generator :=
  match settings.generator with
  | some program => external m (.configured program settings.args)
  | .none => none

end Generator

end GrammarHeaders
