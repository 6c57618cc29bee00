import GrammarHeaders.Shell.Control

namespace GrammarHeaders.Shell.Evaluation

open Control

def checked (tested : Bool) (action : Run Unit) : Run Unit := do
  action
  let s ← get
  if !tested && s.status != 0 && s.options.contains 'e' then throw .exit

def atLine (line : Nat) : Run Unit := modify fun s => { s with line }

def firstFields (t : Tools) : List Word → Run (List Bytes × List Word)
  | [] => return ([], [])
  | w :: rest => do
    let fs ← Expansion.fields (capture t) w
    if fs.isEmpty then firstFields t rest else return (fs, rest)

def otherFields (t : Tools) (assignments : Bool) (words : List Word) : Run (List Bytes) := do
  let fields ← words.mapM fun w => do
    match (if assignments then Part.assignment? w else none) with
    | some (name, value) =>
      return [name ++ '=' :: (← Expansion.assigned (capture t) value)]
    | none => Expansion.fields (capture t) w
  return fields.flatten

/-- How a command is meant: options of `command` in front of it are taken away. -/
structure Meant where
  argv : List Bytes
  functions : Bool := true
  special : Bool := true
  defaultPath : Bool := false
  describe : Option Bool := none

def meant : Nat → Meant → Run Meant
  | 0, m => return m
  | n + 1, m => do
    match m.argv with
    | name :: rest =>
      let isFunction := m.functions && (← get).functions.any fun f => f.1 == name
      if String.ofList name ≠ "command" ∨ isFunction ∨ m.describe.isSome then return m
      let (options, operands) ← Run.withCommand (some name) (Builtin.letters ['p', 'v', 'V'] rest)
      let describe : Option Bool :=
        if options.contains 'V' then some true else if options.contains 'v' then some false else none
      meant n { m with
        argv := operands, functions := false, special := false
        defaultPath := m.defaultPath || options.contains 'p', describe }
    | [] => return m

def callFunction (t : Tools) (tested : Bool) (body : Command) (args : List Bytes) : Run Unit := do
  let s ← get
  let inner : Command := match body with
    | .define _ _ inner => inner
    | c => c
  let back : Run Unit := modify fun after => { after with
    args := s.args, loopDepth := s.loopDepth, callDepth := s.callDepth
    optionOffset := s.optionOffset }
  modify fun s => { s with
    args, loopDepth := 0, callDepth := s.callDepth + 1, optionOffset := 0 }
  try
    t.eval inner tested
    back
  catch stop =>
    back
    if stop ≠ .returnFrom then throw stop

def traceFront (t : Tools) : Run Bytes := do
  let front := (← Run.value? "PS4".toList).getD "+ ".toList
  match Parse.template.run { rest := front } with
  | .ok w _ => do
    Builtin.switch false 'x'
    let front ← Expansion.document (capture t) w
    Builtin.switch true 'x'
    return front
  | .error .. => return front

def trace (t : Tools) (streams : List (Nat × Nat)) (assignments argv : List Bytes) : Run Unit := do
  if ← Run.hasOption 'x' then
    let front ← traceFront t
    let now := (← get).host.process.streams
    let use (streams : List (Nat × Nat)) : Run Unit := modify fun s => { s with
      host := { s.host with process := { s.host.process with streams } } }
    use streams
    Run.errors (front ++ Bytes.join [' '] (assignments ++ argv) ++ ['\n'])
    use now

def assignAll (t : Tools) (restore exported : Bool) (assignments : List Word) : Run (List Bytes) :=
  assignments.mapM fun w => do
    match Part.assignment? w with
    | some (name, value) => do
      let value ← Expansion.assigned (capture t) value
      if restore then Run.save name
      Run.assign name value
      if restore || exported then Run.exportVariable name
      return name ++ '=' :: value
    | none => return []

def runBuiltin (t : Tools) (tested special : Bool) (name : Bytes) (args : List Bytes) : Run Unit := do
  try
    Run.setStatus (← Run.withCommand (some name) (builtin t tested name args))
  catch stop =>
    if stop = .fault ∧ !special then Run.setStatus 2 else throw stop

def dispatch (t : Tools) (tested : Bool) (m : Meant) : Run Unit := do
  let path ← if m.defaultPath then pure Lookup.defaultPath else Lookup.pathValue
  match m.describe, m.argv with
  | some long, name :: _ =>
    Run.setStatus (← Run.withCommand (some "command".toList) (describe path long name))
  | some _, [] => Run.setStatus 0
  | none, [] => Run.setStatus ((← get).substituted.getD 0)
  | none, name :: args => do
    let s ← get
    match (if m.functions then s.functions.lookup name else none) with
    | some body => callFunction t tested body args
    | none =>
      if isBuiltin name then runBuiltin t tested (m.special && isSpecial name) name args
      else runProgram t path (name :: args)

def simple (t : Tools) (tested : Bool) (line : Nat) (assignments words : List Word)
    (redirects : List Redirect) : Run Unit := do
  atLine line
  modify fun s => { s with substituted := none }
  let (first, rest) ← firstFields t words
  let literal (w : Word) : Bytes := (Part.plain? w).getD []
  let subject := match first with
    | [name] => if String.ofList name = "command" then literal (rest.headD []) else name
    | name :: _ => name
    | [] => []
  let argv := first ++ (← otherFields t (takesAssignments subject) rest)
  let m ← meant (argv.length + 1) { argv }
  let name := m.argv.headD []
  let isFunction := m.functions && (← get).functions.any fun f => f.1 == name
  let special := m.special && !argv.isEmpty && !isFunction && isSpecial name
  let execs := String.ofList name = "exec" && !isFunction && m.describe.isNone
  let streams := (← get).host.process.streams
  let ready ← redirects.mapM (Redirection.prepare (capture t))
  let back : Run Unit := modify fun s => { s with
    host := { s.host with process := { s.host.process with streams } } }
  if !(← Redirection.tryConnect ready) then
    back
    Run.setStatus 2
    if special then throw .fault
  else
    let run : Run Unit := do
      let assigned ← assignAll t (!special && !argv.isEmpty) (execs && 1 < m.argv.length) assignments
      trace t streams assigned argv
      dispatch t tested m
    try
      if special || argv.isEmpty then run else Run.withSaved run
      if !(execs && m.argv.length = 1) then back
    catch stop =>
      back
      throw stop

def loopBody (action : Run Unit) : Run Bool := do
  try
    action
    return true
  catch stop => match stop with
    | .breakLoop n => if n ≤ 1 then return false else throw (.breakLoop (n - 1))
    | .continueLoop n => if n ≤ 1 then return true else throw (.continueLoop (n - 1))
    | stop => throw stop

def loopLimit : Nat := 10000000

def asLoop (action : Run Unit) : Run Unit := do
  let depth := (← get).loopDepth
  modify fun s => { s with loopDepth := depth + 1 }
  try
    action
    modify fun s => { s with loopDepth := depth }
  catch stop =>
    modify fun s => { s with loopDepth := depth }
    throw stop

/-- What the condition of a loop has come to. -/
inductive Tested where
  | go
  | stop
  | again
  deriving DecidableEq, Repr

def whileLoop (t : Tools) (tested stopWhen : Bool) (test body : Command) : Run Unit := asLoop do
  let step (status : Nat) : Run (Nat ⊕ Nat) := do
    let verdict : Tested ← try
        t.eval test true
        pure (if ((← get).status == 0) == stopWhen then Tested.stop else Tested.go)
      catch stop => match stop with
        | .breakLoop n => if n ≤ 1 then pure Tested.stop else throw (.breakLoop (n - 1))
        | .continueLoop n => if n ≤ 1 then pure Tested.again else throw (.continueLoop (n - 1))
        | stop => throw stop
    match verdict with
    | .stop => return .inr status
    | .again => return .inl status
    | .go =>
      let more ← loopBody (t.eval body tested)
      let status := (← get).status
      return if more then .inl status else .inr status
  Run.setStatus (← iterate step pure loopLimit 0)

def forLoop (t : Tools) (tested : Bool) (line : Nat) (name : Bytes) (items : List Word)
    (body : Command) : Run Unit := do
  atLine line
  let fields ← items.mapM (Expansion.fields (capture t))
  asLoop do
    let step (s : List Bytes × Nat) : Run ((List Bytes × Nat) ⊕ Nat) := do
      match s with
      | ([], status) => return .inr status
      | (field :: rest, _) => do
        Run.assign name field
        let more ← loopBody (t.eval body tested)
        let status := (← get).status
        return if more then .inl (rest, status) else .inr status
    let all := fields.flatten
    Run.setStatus (← iterate step (fun s => pure s.2) (all.length + 1) (all, 0))

def selectBranch (t : Tools) (tested : Bool) (subject : Bytes) :
    List (List Word × Option Command) → Run Unit
  | [] => Run.setStatus 0
  | (patterns, body) :: rest => do
    let fits ← patterns.anyM fun w => do
      return Pattern.fits (← Expansion.pattern (capture t) w) subject
    if fits then
      match body with
      | some c => t.eval c tested
      | none => Run.setStatus 0
    else selectBranch t tested subject rest

def note (c : Command) : Run Unit := do
  match c with
  | .simple _ _ (w :: _) _ => match Part.plain? w with
    | some name =>
      if Bytes.isName name && !isBuiltin name && !(← get).functions.any (fun f => f.1 == name) then
        let _ ← programs (← Lookup.pathValue) name
    | none => pure ()
  | _ => pure ()

def pipeline (t : Tools) (tested : Bool) (commands : List Command) : Run Unit := do
  commands.forM note
  let count := commands.length
  let step (s : List Command × Nat × Option Nat) : Run ((List Command × Nat × Option Nat) ⊕ Unit) := do
    match s with
    | ([], _, _) => return .inr ()
    | (c :: rest, i, input) => do
      let last := i + 1 == count
      let pipe ← Run.onHost (Host.newPipe true)
      let writer ← Run.onHost (Host.addFile { channel := .pipe pipe, readable := false })
      let reader ← Run.onHost (Host.addFile { channel := .pipe pipe, writable := false })
      let ending ← inCopy t do
        match input with
        | some file => Run.onHost (Host.setStream 0 file)
        | none => pure ()
        if !last then Run.onHost (Host.setStream 1 writer)
        t.eval c tested
      Builtin.report ending
      Run.setStatus ending.status
      return .inl (rest, i + 1, some reader)
  iterate step (fun _ => pure ()) (count + 1) (commands, 0, none)

def inBackground (t : Tools) (body : Command) (redirects : List Redirect) : Run Unit := do
  let ready ← redirects.mapM (Redirection.prepare (capture t))
  let null ← Run.onHost (Host.addFile { channel := .null })
  let place ← Run.takePlace
  let number ← Run.newNumber
  let s ← get
  let child := copyOf s number
  let action : Run Unit := do
    Run.onHost (Host.setStream 0 null)
    Redirection.connectAll ready
    t.eval body false
  let start (world : World) : Ending × World :=
    runCopy t { child with host := { child.host with world } } action
  modify fun s => { s with
    jobs := { number, place, start } :: s.jobs, lastBackground := some number, status := 0 }

def step (t : Tools) (c : Command) (tested : Bool) : Run Unit := do
  if ← Run.hasOption 'n' then return
  match c with
  | .nothing => pure ()
  | .simple line assignments words redirects =>
    checked tested (simple t tested line assignments words redirects)
  | .redirected line body redirects => do
    atLine line
    let ready ← redirects.mapM (Redirection.prepare (capture t))
    Redirection.within do
      if ← Redirection.tryConnect ready then t.eval body tested else Run.setStatus 2
  | .pipeline commands => checked tested (pipeline t tested commands)
  | .negated body => do
    t.eval body true
    Run.setStatus (if (← get).status = 0 then 1 else 0)
  | .both first second => do
    t.eval first true
    if (← get).status = 0 then t.eval second tested
  | .either first second => do
    t.eval first true
    if (← get).status ≠ 0 then t.eval second tested
  | .sequence first second => do
    t.eval first tested
    t.eval second tested
  | .subshell line body redirects => checked tested do
    atLine line
    let ready ← redirects.mapM (Redirection.prepare (capture t))
    let ending ← inCopy t do
      Redirection.connectAll ready
      t.eval body tested
    Builtin.report ending
    Run.setStatus ending.status
  | .background _ body redirects => checked tested (inBackground t body redirects)
  | .choice test good bad => do
    t.eval test true
    if (← get).status = 0 then t.eval good tested
    else match bad with
      | some c => t.eval c tested
      | none => Run.setStatus 0
  | .loop stopWhen test body => whileLoop t tested stopWhen test body
  | .forEach line name items body => forLoop t tested line name items body
  | .select line subject branches => do
    atLine line
    selectBranch t tested (← Expansion.text (capture t) subject) branches
  | .define name line body => modify fun s => { s with
      functions := (name, .define name line body) :: s.functions.filter fun f => f.1 != name
      status := 0 }
  runDue t

def eval (launch : Launch) : Nat → Command → Bool → Run Unit
  | 0, _, _ => Run.faultWords "commands nested too deeply"
  | n + 1, c, tested => step ⟨eval launch n, launch⟩ c tested

end GrammarHeaders.Shell.Evaluation
