import GrammarHeaders.CommandLine.Manual
import GrammarHeaders.CommandLine.Run
import GrammarHeaders.Shell.Installation

namespace GrammarHeaders

/-- A tree that is being read, with the directories whose content it has. -/
structure Snapshot where
  tree : Tree := {}
  loaded : List Location := []

def absolute (l : Location) : String := "/" ++ "/".intercalate l

def isNative (bytes : List UInt8) : Bool := (Content.programHead.take 4).isPrefixOf bytes

/-- The file of a name with some bytes. The file system shows no modes, so its first bytes tell
whether it is a program. -/
def fileOf (name : String) (bytes : List UInt8) : Entry :=
  if isNative bytes && Shell.Program.names.contains name then .file (.program name) true
  else .file (.ofBytes bytes) (isNative bytes || [0x23, 0x21].isPrefixOf bytes)

def entryOnDisk (l : Location) : IO (Option Entry) := do
  let entry : IO.FS.DirEntry := ⟨absolute l.dropLast, l.getLast?.getD ""⟩
  try
    match (← entry.path.symlinkMetadata).type with
    | .dir => return some .directory
    | .file =>
      return some (fileOf (l.getLast?.getD "") (← IO.FS.readBinFile (absolute l)).toList)
    | .symlink => return some (.link (← IO.FS.realPath (absolute l)).toString)
    | .other => return none
  catch _ => return none

def namesOnDisk (l : Location) : IO (List String) := do
  let entry : IO.FS.DirEntry := ⟨absolute l.dropLast, l.getLast?.getD ""⟩
  try
    return (← entry.path.readDir).toList.map fun e => e.fileName
  catch _ => return []

partial def Snapshot.load (s : Snapshot) (here : Location) : List String → IO Snapshot
  | [] => do
    if s.loaded.contains here then return s
    let s := { s with loaded := here :: s.loaded }
    if s.tree.get? here = some .directory then
      (← namesOnDisk here).foldlM (fun s name => s.load here [name]) s
    else return s
  | "." :: rest => s.load here rest
  | ".." :: rest => s.load here.dropLast rest
  | name :: rest => do
    let l := here ++ [name]
    match ← entryOnDisk l with
    | none => return s
    | some (.link target) =>
      Snapshot.load { s with tree := s.tree.set l (.link target) } [] (Disk.steps target ++ rest)
    | some e => Snapshot.load { s with tree := s.tree.put l e } l rest

def Snapshot.loadPaths (s : Snapshot) (cwd : Location) (paths : List Path) : IO Snapshot :=
  paths.foldlM (fun s path => s.load (Disk.startOf cwd path.text) (Disk.steps path.text)) s

def programPaths (searchPath : List Path) (program : Path) : List Path :=
  program :: searchPath.flatMap fun dir =>
    (program.text :: Shell.Program.names).map fun name => dir / name

def store (before after : Tree) : IO Unit := do
  for (l, e) in before.entries.reverse do
    if after.get? l = none then
      if e = .directory then IO.FS.removeDir (absolute l) else IO.FS.removeFile (absolute l)
  for (l, e) in after.entries do
    if before.get? l ≠ some e then
      match e with
      | .directory => IO.FS.createDir (absolute l)
      | .file content executable =>
        IO.FS.writeBinFile (absolute l) ⟨content.bytes.toArray⟩
        if executable then
          let all : IO.AccessRight := ⟨true, true, true⟩
          let others : IO.AccessRight := ⟨true, false, true⟩
          IO.setAccessRights (absolute l) ⟨all, others, others⟩
      | .link _ | .device _ => pure ()

def snapshotFor (env : CommandLine.Environment) (cwd : Location) (i : CommandLine.Invocation) :
    IO Snapshot := do
  let user := env.home.map Config.fileIn
  let project := Config.fileIn env.cwd
  let s : Snapshot := {}
  let s ← s.loadPaths cwd (project :: user.toList)
  let s ← s.loadPaths cwd i.command.paths
  let (config, _) := Config.loadLayered ⟨s.tree, cwd⟩ user project
  match i.command with
  | .generate _ _ _ _ _ _ _ generator => match generator.or config.bindings.generator with
    | some program => s.loadPaths cwd (programPaths env.machine.searchPath program)
    | none => return s
  | _ => return s

def runOnDisk (args : List String) : IO UInt32 := do
  let fromEnvironment (name : String) : IO (Option String) :=
    return (← IO.getEnv name).filter fun value => value != ""
  let here := (← IO.currentDir).toString
  let cwd := Disk.steps here
  let home ← fromEnvironment "HOME"
  let path := (← fromEnvironment "PATH").getD Shell.Installation.searchPath
  let variables_ := ("PATH", path) :: home.toList.map fun dir => ("HOME", dir)
  let env : CommandLine.Environment :=
    ⟨Shell.Program.machine variables_, ⟨here⟩, home.map Path.mk, ← IO.getEnv "NO_COLOR"⟩
  let before ← match CommandLine.parse env.noColor args with
    | .run i => snapshotFor env cwd i
    | _ => pure {}
  let (answer, after) := CommandLine.run env args ⟨before.tree, cwd⟩
  store before.tree after.tree
  IO.eprint (if answer.misused then CommandLine.misuse else answer.errors)
  match answer.printed with
  | .nothing => pure ()
  | .version => IO.println CommandLine.versionLine
  | .manual => IO.print CommandLine.manual
  | .completions shell => IO.print (CommandLine.completionScript shell)
  return UInt32.ofNat answer.exitCode.toNat

end GrammarHeaders

def main (args : List String) : IO UInt32 := GrammarHeaders.runOnDisk args
