import GrammarHeaders.Generator
import GrammarHeaders.Shell.Evaluation
import GrammarHeaders.Shell.Utility.Table

namespace GrammarHeaders.Shell.Program

def shellNames : List String := ["sh", "dash", "bash"]

def depthLimit : Nat := 3000

def startDir (p : Process) (d : Disk) : Bytes :=
  let here := Utility.locationPath d.cwd
  match p.environment.lookup "PWD".toList with
  | some t => match d.entryAt (Host.pathOf t) true with
    | .ok (l, _) => if t.head? = some '/' ∧ l = d.cwd then t else here
    | .error _ => here
  | none => here

/-- The variables that a shell starts with: those of the environment, and its own, some of which
the environment cannot change. -/
def startVariables (p : Process) (d : Disk) : List (Bytes × Variable) :=
  let given := p.environment.filter fun entry => Bytes.isName entry.1
  let own : List (String × Bytes) :=
    [("PATH", Lookup.defaultPath), ("PS1", "# ".toList), ("PS2", "> ".toList), ("PS4", "+ ".toList)]
  let fixed : List (String × Bytes) :=
    [("IFS", " \t\n".toList), ("OPTIND", ['1']), ("PPID", Bytes.ofNat p.parent), ("PWD", startDir p d)]
  let isFixed (name : Bytes) : Bool := fixed.any fun f => f.1.toList == name
  let isGiven (name : Bytes) : Bool := given.any fun entry => entry.1 == name
  let fresh := own.filter fun o => !isGiven o.1.toList
  (given.filter fun entry => !isFixed entry.1).map (fun (name, value) => (name, ⟨some value, true, false⟩)) ++
    fresh.map (fun (name, value) => (name.toList, ⟨some value, false, false⟩)) ++
    fixed.map fun (name, value) => (name.toList, ⟨some value, name == "PWD" || isGiven name.toList, false⟩)

/-- Read the arguments of a shell: its options, and where its commands are. The commands are
returned, and whether they come from a file. -/
def commands (args : List Bytes) : Run (Bytes × Bool) := do
  let rest := (← Builtin.takeOptions true (args.length + 1) args).getD []
  let fromArgument ← Run.hasOption 'c'
  Builtin.switch false 'c'
  Builtin.switch false 'l'
  if fromArgument then
    match rest with
    | [] => Run.faultWords "-c requires an argument"
    | [text] => return (text, false)
    | text :: name :: rest =>
      modify fun s => { s with arg0 := name, args := rest }
      return (text, false)
  else if rest.isEmpty || (← Run.hasOption 's') then
    Builtin.switch true 's'
    modify fun s => { s with args := rest }
    match ← Run.onHost (Host.readAll 0) with
    | .ok text => return (text, true)
    | .error _ => return ([], true)
  else
    let path := rest.headD []
    match ← Run.onHost (Host.openPath path { read := true }) with
    | .error cause =>
      Run.fault ("cannot open ".toList ++ path ++ ": ".toList ++
        Redirection.openWords "No such file" cause)
    | .ok file =>
      Run.onHost (Host.setStream 1000 file)
      let text ← Run.onHost (Host.readAll 1000)
      Run.onHost (Host.closeStream 1000)
      modify fun s => { s with arg0 := path, args := rest.tail }
      return (match text with
        | .ok text => (text, true)
        | .error _ => ([], true))

def shell (launch : Launch) (argv : List Bytes) : StateM Host Ending := do
  let host ← get
  let number := host.world.nextNumber
  let start : Shell := {
    host := { host with world := { host.world with nextNumber := number + 1 } }
    arg0 := argv.headD [], processNumber := number, ownNumber := number
    variables_ := startVariables host.process ⟨host.world.tree, host.process.cwd⟩ }
  let tools : Tools := ⟨Evaluation.eval launch depthLimit, launch⟩
  let action : Run Unit := do
    let (text, inFile) ← commands argv.tail
    Control.evalText tools false text inFile
  let (result, s) := action.run.run start
  let (ending, s) := Control.finish tools result s
  set { host with world := s.host.world }
  return ending

def launch : Nat → Launch
  | 0, _, _ => return .error .tooManyLinks
  | n + 1, path, argv => do
    match Image.load (← Host.disk) (← get).process.environment path argv with
    | .error cause => return .error cause
    | .ok ⟨name, argv⟩ => do
      modify fun h => { h with process := { h.process with name := argv.headD [] } }
      if shellNames.contains name then return .ok (← shell (launch n) argv)
      else return .ok (← Utility.run (launch n) name argv.tail)

def nestingLimit : Nat := 60

def execute (environment : List (String × String)) (program : Path) (args : List String) (d : Disk) :
    Except Cause Finished × Disk :=
  let argv := Bytes.ofString program.text :: args.map Bytes.ofString
  let environment := environment.map fun (name, value) => (Bytes.ofString name, Bytes.ofString value)
  if argv.any fun arg => arg.contains '\x00' then (.error .zeroInArgument, d)
  else match Image.locate d environment false argv with
  | .error cause => (.error cause, d)
  | .ok file =>
    let world : World := {
      tree := d.tree
      files := #[{ channel := .null }, { channel := .pipe 0, readable := false },
        { channel := .pipe 1, readable := false }]
      pipes := #[{}, {}] }
    let process : Process := {
      name := argv.headD [], cwd := d.cwd, streams := [(0, 0), (1, 1), (2, 2)], environment }
    match (launch nestingLimit file argv).run ⟨world, process⟩ with
    | (.error cause, _) => (.error cause, d)
    | (.ok ending, host) =>
      let written (i : Nat) : List UInt8 := match host.world.pipes[i]? with
        | some p => p.content.toBytes
        | none => []
      let status : Option Nat := match ending with
        | .exit status => some status
        | .signal _ => none
      (.ok ⟨status, written 0, written 1⟩, Disk.settle ⟨host.world.tree, d.cwd⟩)

/-- The directories of a search path. A first component that is a tilde stands for the home
directory. -/
def searchDirs (environment : List (String × String)) : List Path :=
  let dir (p : Path) : Path := match p.components, environment.lookup "HOME" with
    | .name "~" :: rest, some home => (⟨home⟩ : Path).extend rest
    | _, _ => p
  match environment.lookup "PATH" with
  | some path => (Text.splitOn ':' path.toList).map fun t => dir ⟨String.ofList t⟩
  | none => []

/-- A machine that runs scripts and the utilities they call, for the program and for whole runs of it.
Nothing that is proved about the pipeline depends on it. -/
def machine (environment : List (String × String)) : Machine :=
  ⟨searchDirs environment, execute environment⟩

def names : List String := shellNames ++ Utility.table.map Prod.fst

end GrammarHeaders.Shell.Program
