import GrammarHeaders.Shell.Host
import GrammarHeaders.Shell.Parser.Command

namespace GrammarHeaders.Shell

structure Variable where
  value : Option Bytes := none
  exported : Bool := false
  readOnly : Bool := false
  deriving DecidableEq, Repr

/-- A command in the background. It is run when somebody waits for it. -/
structure Job where
  number : Nat
  place : Nat
  start : World → Ending × World
  ending : Option Ending := none
  waited : Bool := false

/-- What a shell consists of, apart from what it runs on. -/
structure Shell where
  host : Host
  arg0 : Bytes
  args : List Bytes := []
  variables_ : List (Bytes × Variable) := []
  functions : List (Bytes × Command) := []
  status : Nat := 0
  line : Nat := 0
  command : Option Bytes := none
  options : List Char := []
  traps : List (Nat × Bytes) := []
  due : List Nat := []
  loopDepth : Nat := 0
  callDepth : Nat := 0
  processNumber : Nat := 0
  ownNumber : Nat := 0
  lastBackground : Option Nat := none
  jobs : List Job := []
  substituted : Option Nat := none
  saved : List (List (Bytes × Option Variable)) := []
  documents : List (Nat × Word) := []
  nextDocument : Nat := 0
  aliases : List (Bytes × Bytes) := []
  logicalDir : Option Bytes := none
  optionOffset : Nat := 0
  known : List Bytes := []
  mask : Nat := 18
  statusBefore : Option Nat := none
  readTo : Nat := 1

/-- Why running commands is broken off. -/
inductive Stop where
  | exit
  | killed (signal : Nat)
  | fault
  | breakLoop (levels : Nat)
  | continueLoop (levels : Nat)
  | returnFrom
  deriving DecidableEq, Repr

abbrev Run := ExceptT Stop (StateM Shell)

namespace Run

def onHost {α : Type} (operation : Host.Operation α) : Run α := do
  let s ← get
  let (a, host) := operation.run s.host
  set { s with host }
  return a

def disk : Run Disk := onHost Host.disk

def writeTo (stream : Nat) (t : Bytes) : Run (Except Cause Unit) := do
  match ← onHost (Host.write stream t) with
  | .ok () => return .ok ()
  | .error cause =>
    if cause = Cause.brokenPipe then throw (.killed 13)
    return .error cause

def errors (t : Bytes) : Run Unit := do
  let _ ← writeTo 2 t

def warn (message : Bytes) : Run Unit := do
  let s ← get
  let command := match s.command with
    | some name => name ++ ": ".toList
    | none => []
  errors (s.arg0 ++ ": ".toList ++ Bytes.ofNat s.line ++ ": ".toList ++ command ++ message ++ ['\n'])

def setStatus (status : Nat) : Run Unit := modify fun s => { s with status }

def fault {α : Type} (message : Bytes) : Run α := do
  warn message
  setStatus 2
  throw .fault

def faultWords {α : Type} (message : String) : Run α := fault message.toList

def freePlace (jobs : List Job) : Nat :=
  ((List.range jobs.length).find? fun i => jobs.all fun j => j.waited || j.place != i).getD jobs.length

def takePlace : Run Nat := do
  let place := freePlace (← get).jobs
  modify fun s => { s with jobs := s.jobs.filter fun j => j.place != place }
  return place

def newNumber : Run Nat := do
  let s ← get
  let number := s.host.world.nextNumber
  set { s with host := { s.host with world := { s.host.world with nextNumber := number + 1 } } }
  return number

def hasOption (letter : Char) : Run Bool := return (← get).options.contains letter

def withCommand {α : Type} (name : Option Bytes) (action : Run α) : Run α := do
  let before := (← get).command
  modify fun s => { s with command := name }
  try
    let a ← action
    modify fun s => { s with command := before }
    return a
  catch stop =>
    modify fun s => { s with command := before }
    throw stop

def variable_ (name : Bytes) : Run (Option Variable) := return (← get).variables_.lookup name

def value? (name : Bytes) : Run (Option Bytes) := do
  return (← variable_ name).bind Variable.value

def replaceEntry (name : Bytes) (v : Variable) : List (Bytes × Variable) → List (Bytes × Variable)
  | [] => [(name, v)]
  | entry :: rest => if entry.1 = name then (name, v) :: rest else entry :: replaceEntry name v rest

def putVariable (name : Bytes) (v : Option Variable) : Run Unit :=
  modify fun s => { s with
    variables_ := match v with
      | some v => replaceEntry name v s.variables_
      | none => s.variables_.filter fun entry => entry.1 != name
    known := if name = "PATH".toList then [] else s.known }

def assign (name value : Bytes) : Run Unit := do
  let v := (← variable_ name).getD {}
  if v.readOnly then fault (name ++ ": is read only".toList)
  let all ← hasOption 'a'
  putVariable name (some { v with value := some value, exported := v.exported || all })
  if name = "OPTIND".toList then modify fun s => { s with optionOffset := 0 }

def unset (name : Bytes) : Run Unit := do
  match ← variable_ name with
  | some v =>
    if v.readOnly then fault (name ++ ": is read only".toList)
    putVariable name none
  | none => pure ()

def exportVariable (name : Bytes) : Run Unit := do
  let v := (← variable_ name).getD {}
  putVariable name (some { v with exported := true })

def save (name : Bytes) : Run Unit := do
  let v ← variable_ name
  modify fun s => match s.saved with
    | frame :: rest =>
      if frame.any fun entry => entry.1 == name then s
      else { s with saved := ((name, v) :: frame) :: rest }
    | [] => s

def withSaved {α : Type} (action : Run α) : Run α := do
  modify fun s => { s with saved := [] :: s.saved }
  let giveBack : Run Unit := do
    match (← get).saved with
    | frame :: rest =>
      modify fun s => { s with saved := rest }
      frame.forM fun (name, v) => putVariable name v
    | [] => pure ()
  try
    let a ← action
    giveBack
    return a
  catch stop =>
    giveBack
    throw stop

def slot (count : Nat) (name : Bytes) : Nat :=
  (name.foldl (fun n c => n + c.toNat) (16 * (name.headD '\x00').toNat)) % count

def environment : Run (List (Bytes × Bytes)) := do
  let exported := (← get).variables_.filterMap fun (name, v) =>
    if v.exported then v.value.map (name, ·) else none
  return exported.mergeSort fun a b => slot 39 a.1 ≤ slot 39 b.1

def separators : Run (Option Bytes) := value? "IFS".toList

end Run

end GrammarHeaders.Shell
