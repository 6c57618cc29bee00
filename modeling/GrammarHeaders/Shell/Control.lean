import GrammarHeaders.Shell.Builtin.Directory
import GrammarHeaders.Shell.Builtin.Read
import GrammarHeaders.Shell.Builtin.Jobs
import GrammarHeaders.Shell.Builtin.Test
import GrammarHeaders.Shell.Lookup
import GrammarHeaders.Shell.Redirection
import GrammarHeaders.Shell.Task

namespace GrammarHeaders.Shell

/-- What running commands needs of the whole. -/
structure Tools where
  eval : Command → Bool → Run Unit
  launch : Launch

namespace Control

def settle : Run Unit :=
  Run.onHost (modify fun h =>
    { h with process := { h.process with cwd := (Disk.settle ⟨h.world.tree, h.process.cwd⟩).cwd } })

/-- Read and run the next line of a text. The rest of the text is returned, unless it is at its
end. -/
def evalLine (t : Tools) (tested : Bool) (source : Source) : Run (Option Source) := do
  let s ← get
  let source := { source with aliases := s.aliases, nextDocument := s.nextDocument, documents := [] }
  let showLines (after : Source) : Run Unit := do
    if source.inFile && s.options.contains 'v' then
      let size := source.rest.length - after.rest.length
      let front := source.rest.take size
      Run.errors (if front.getLast? = some '\n' then front
        else front ++ Host.upTo '\n' (source.rest.drop size))
  match Parse.commandLine.run source with
  | .error f after => do
    showLines after
    modify fun s => { s with line := f.line }
    Run.fault f.message
  | .ok none _ => return none
  | .ok (some c) after => do
    showLines after
    let source := after
    modify fun s => { s with
      documents := source.documents ++ s.documents, nextDocument := source.nextDocument
      readTo := source.line }
    t.eval c tested
    return some source

def evalText (t : Tools) (tested : Bool) (text : Bytes) (inFile : Bool := false) : Run Unit := do
  let readTo := (← get).readTo
  let step (source : Source) : Run (Source ⊕ Unit) := do
    match ← evalLine t tested source with
    | some source => return .inl source
    | none => return .inr ()
  iterate step (fun _ => pure ()) (text.length + 1000) { rest := text, inFile }
  modify fun s => { s with readTo }

def runDue (t : Tools) : Run Unit := do
  let due := (← get).due
  if !due.isEmpty then
    modify fun s => { s with due := [] }
    for n in due do
      match (← get).traps.lookup n with
      | some action => do
        let s ← get
        let before := s.statusBefore
        modify fun s => { s with statusBefore := some s.status }
        evalText t false action
        modify fun after => { after with status := s.status, statusBefore := before }
      | none => pure ()

def finish (t : Tools) (result : Except Stop Unit) (s : Shell) : Ending × Shell :=
  let rest (ending : Ending) (s : Shell) : Ending × Shell :=
    (ending, ((Builtin.runJobs).run.run s).2)
  match result with
  | .error (.killed n) => rest (.signal n) s
  | _ => match s.traps.lookup 0 with
    | some action =>
      let (result, after) := (evalText t false action).run.run { s with
        traps := s.traps.filter (fun trap => trap.1 != 0)
        statusBefore := some s.status, loopDepth := 0 }
      match result with
      | .error (.killed n) => rest (.signal n) after
      | .error .exit => rest (.exit after.status) after
      | _ => rest (.exit s.status) after
    | none => rest (.exit s.status) s

def copyOf (s : Shell) (number : Nat) : Shell :=
  { s with
    ownNumber := number, traps := s.traps.filter fun trap => trap.2.isEmpty
    due := [], jobs := [], statusBefore := none }

def runCopy (t : Tools) (child : Shell) (action : Run Unit) : Ending × World :=
  let (result, after) := action.run.run child
  let (ending, after) := finish t result after
  (ending, after.host.world)

def inCopy (t : Tools) (action : Run Unit) : Run Ending := do
  let _ ← Run.takePlace
  let number ← Run.newNumber
  let s ← get
  let (ending, world) := runCopy t (copyOf s number) action
  modify fun s => { s with host := { s.host with world } }
  settle
  Builtin.receiveSent
  return ending

def capture (t : Tools) (c : Command) : Run Bytes := do
  let pipe ← Run.onHost (Host.newPipe false)
  let file ← Run.onHost (Host.addFile { channel := .pipe pipe, readable := false })
  let ending ← inCopy t do
    Run.onHost (Host.setStream 1 file)
    t.eval c false
  Builtin.report ending
  modify fun s => { s with substituted := some ending.status }
  return (((← get).host.world.pipes[pipe]?).map Pipe.content).getD []

def start (t : Tools) (path : Bytes) (argv : List Bytes) : Run (Except Cause Ending) := do
  let environment ← Run.environment
  let s ← get
  let ignored := (s.traps.filter fun trap => trap.2.isEmpty).map Prod.fst
  let process := { s.host.process with
    name := argv.headD [], environment, parent := s.ownNumber
    ignored := ignored ++ s.host.process.ignored }
  let run (path : Bytes) (argv : List Bytes) := (t.launch path argv).run { s.host with process }
  let (result, host) := match run path argv with
    | (.error .notExecutable, _) => run "/bin/sh".toList ("/bin/sh".toList :: path :: argv.tail)
    | other => other
  modify fun s => { s with host := { s.host with world := host.world } }
  settle
  Builtin.receiveSent
  return result

def startStatus (cause : Cause) : Nat :=
  if cause = .notFound ∨ cause = .notADirectory ∨ cause = .tooManyLinks ∨ cause = .nameTooLong then 127
  else 126

def startWords (name : Bytes) (cause : Cause) : Bytes :=
  name ++ ": ".toList ++ Redirection.openWords "not found" cause

def programs (path name : Bytes) : Run (Except Cause (List Bytes)) := do
  if name.contains '/' then return .ok [name]
  match Lookup.search (← Run.disk) path name with
  | .ok paths => do
    modify fun s => { s with known := if s.known.contains name then s.known else name :: s.known }
    return .ok paths
  | .error cause => return .error cause

def startFirst (t : Tools) (argv : List Bytes) (last : Cause) :
    List Bytes → Run (Except Cause Ending)
  | [] => return .error last
  | path :: rest => do
    match ← start t path argv with
    | .ok ending => return .ok ending
    | .error cause => startFirst t argv (if Image.isMissing cause then last else cause) rest

def runProgram (t : Tools) (path : Bytes) (argv : List Bytes) : Run Unit := do
  let name := argv.headD []
  match ← programs path name with
  | .error cause =>
    Run.warn (startWords name cause)
    Run.setStatus 127
  | .ok files =>
    if name = "sleep".toList then Builtin.runJobs
    let _ ← Run.takePlace
    match ← startFirst t argv .notFound files with
    | .ok ending =>
      Builtin.report ending
      Run.setStatus ending.status
    | .error cause =>
      Run.warn (startWords name cause)
      Run.setStatus (startStatus cause)

def become (t : Tools) (argv : List Bytes) : Run Nat := do
  let name := argv.headD []
  let path ← Lookup.pathValue
  let files := if name.contains '/' then [name] else Lookup.candidates path name
  match ← startFirst t argv .notFound files with
  | .error cause =>
    Run.warn (startWords name cause)
    Run.setStatus (startStatus cause)
    throw .exit
  | .ok ending =>
    modify fun s => { s with traps := [] }
    match ending with
    | .exit status =>
      Run.setStatus status
      throw .exit
    | .signal n => throw (.killed n)

def regularNames : List String :=
  ["alias", "bg", "cd", "chdir", "command", "echo", "false", "fg", "getopts", "hash", "jobs", "kill",
   "printf", "pwd", "read", "test", "[", "true", "type", "ulimit", "umask", "unalias", "wait"]

def isSpecial (name : Bytes) : Bool := Parse.specialNames.contains (String.ofList name)

def isBuiltin (name : Bytes) : Bool :=
  isSpecial name || regularNames.contains (String.ofList name)

def takesAssignments (name : Bytes) : Bool :=
  ["alias", "export", "local", "readonly"].contains (String.ofList name)

def describe (path : Bytes) (long : Bool) (name : Bytes) : Run Nat := do
  let s ← get
  let say (short words : Bytes) : Run Nat :=
    Builtin.print ((if long then name ++ words else short) ++ ['\n'])
  if (Keyword.ofText? name).isSome then say name " is a shell keyword".toList
  else match s.aliases.lookup name with
    | some value =>
      say ("alias ".toList ++ name ++ '=' :: Builtin.quoted value) (" is an alias for ".toList ++ value)
    | none =>
      if s.functions.any fun f => f.1 == name then say name " is a shell function".toList
      else if isSpecial name then say name " is a special shell builtin".toList
      else if isBuiltin name then say name " is a shell builtin".toList
      else
        let d ← Run.disk
        let missing : Run Nat := do
          if long then
            let _ ← Builtin.print (name ++ ": not found\n".toList)
          return 127
        if name.contains '/' then
          match d.entryAt (Host.pathOf name) true with
          | .ok (_, .file _ true) => say name (" is ".toList ++ name)
          | _ => missing
        else
          let known := s.known.contains name
          match Lookup.file? d path name with
          | some file => do
            modify fun s => { s with
              known := if s.known.contains name then s.known else name :: s.known }
            say file ((if known then " is a tracked alias for ".toList else " is ".toList) ++ file)
          | none => missing

def describeAll (names : List Bytes) : Run Nat := do
  let mut status := 0
  for name in names do
    status := max status (← describe (← Lookup.pathValue) true name)
  return status

def hash (args : List Bytes) : Run Nat := do
  let (options, operands) ← Builtin.letters ['r'] args
  if options.contains 'r' then
    modify fun s => { s with known := [] }
    return 0
  let path ← Lookup.pathValue
  if operands.isEmpty then
    let d ← Run.disk
    let known := (← get).known.reverse.mergeSort fun a b => Run.slot 31 a ≤ Run.slot 31 b
    return ← Builtin.print (known.flatMap fun name => match Lookup.file? d path name with
      | some file => file ++ ['\n']
      | none => [])
  let mut status := 0
  for name in operands do
    if !isBuiltin name && !(← get).functions.any (fun f => f.1 == name) then
      match ← programs path name with
      | .ok _ => pure ()
      | .error cause =>
        Run.warn (startWords name cause)
        status := 1
  return status

def leave (stop : Nat → Stop) (args : List Bytes) : Run Nat := do
  let levels ← match args with
    | [] => pure 1
    | arg :: _ => Builtin.number arg
  if levels = 0 then Run.fault ("Illegal number: ".toList ++ args.headD [])
  let levels := min levels (← get).loopDepth
  if levels = 0 then return 0
  Run.setStatus 0
  throw (stop levels)

def runFile (t : Tools) (args : List Bytes) : Run Nat := do
  let args := if args.head? = some ['-', '-'] then args.tail else args
  match args with
  | [] => return 0
  | name :: _ => do
    let path ←
      if name.contains '/' then pure name
      else do
        let d ← Run.disk
        match (Lookup.candidates (← Lookup.pathValue) name).find? fun p => d.isFile (Host.pathOf p) with
        | some path => pure path
        | none => Run.fault (name ++ ": not found".toList)
    match ← Run.onHost (Host.openPath path { read := true }) with
    | .error cause =>
      Run.fault ("cannot open ".toList ++ path ++ ": ".toList ++
        Redirection.openWords "No such file" cause)
    | .ok file => do
      let before := (← get).host.process.streams
      Run.onHost (Host.setStream 1000 file)
      let content ← Run.onHost (Host.readAll 1000)
      modify fun s => { s with
        host := { s.host with process := { s.host.process with streams := before } }
        callDepth := s.callDepth + 1, status := 0 }
      match content with
      | .error _ => Run.setStatus 2
      | .ok text => do
        try
          Run.withCommand (some path) (evalText t false text true)
        catch stop =>
          if stop ≠ .returnFrom then throw stop
      modify fun s => { s with callDepth := s.callDepth - 1 }
      return (← get).status

def exitStatus (args : List Bytes) : Run Nat := do
  match args with
  | [] => return (← get).statusBefore.getD (← get).status
  | arg :: _ => return (← Builtin.number arg) % 256

def builtin (t : Tools) (tested : Bool) (name : Bytes) (args : List Bytes) : Run Nat := do
  match String.ofList name with
  | ":" | "true" => return 0
  | "bg" | "fg" => Builtin.resume args
  | "false" => return 1
  | "." => runFile t args
  | "alias" => Builtin.aliasCommand args
  | "break" => leave .breakLoop args
  | "cd" | "chdir" => Builtin.cd args
  | "continue" => leave .continueLoop args
  | "echo" => Builtin.print (Builtin.echoed args)
  | "eval" => do
    let args := if args.head? = some ['-', '-'] then args.tail else args
    modify fun s => { s with status := 0 }
    evalText t tested (Bytes.join [' '] args)
    return (← get).status
  | "exec" => do
    let args := if args.head? = some ['-', '-'] then args.tail else args
    if args.isEmpty then return 0 else become t args
  | "exit" => do
    Run.setStatus (← exitStatus args)
    throw .exit
  | "export" => Builtin.exportVariables args
  | "getopts" => Builtin.getopts args
  | "hash" => hash args
  | "jobs" => Builtin.listJobs args
  | "kill" => Builtin.kill args
  | "local" => Builtin.localVariables args
  | "printf" => Builtin.printf args
  | "pwd" => Builtin.pwd args
  | "read" => Builtin.read args
  | "readonly" => Builtin.readOnlyVariables args
  | "return" => do
    let status ← match args with
      | [] => pure (← get).status
      | arg :: _ => Builtin.number arg
    Run.setStatus status
    throw .returnFrom
  | "set" => Builtin.set args
  | "shift" => Builtin.shift args
  | "test" | "[" => match Builtin.Test.run (← Run.disk) name args with
    | .ok result => return if result then 0 else 1
    | .error message => Run.fault message
  | "times" => Builtin.print "0m0.000000s 0m0.000000s\n0m0.000000s 0m0.000000s\n".toList
  | "trap" => Builtin.trap args
  | "type" => describeAll args
  | "ulimit" => Builtin.print "unlimited\n".toList
  | "umask" => Builtin.umask args
  | "unalias" => Builtin.unaliasCommand args
  | "unset" => Builtin.unset args
  | "wait" => Builtin.wait args
  | _ => return 0

end Control

end GrammarHeaders.Shell
