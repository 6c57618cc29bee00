import GrammarHeaders.Shell.Builtin.Signals

namespace GrammarHeaders.Shell.Builtin

def runJob (job : Job) : Run Ending := do
  match job.ending with
  | some ending => return ending
  | none => do
    let s ← get
    let (ending, world) := job.start s.host.world
    modify fun s => { s with
      host := { s.host with world }
      jobs := s.jobs.map fun j =>
        if j.number == job.number then { j with ending := some ending } else j }
    return ending

def runJobs : Run Unit := do
  for job in (← get).jobs.reverse do
    let _ ← runJob job

def namedJob (t : Bytes) : Run Job := do
  let jobs := (← get).jobs
  let found (job : Option Job) (message : String) : Run Job := do
    match job with
    | some job => return job
    | none => Run.faultWords message
  match t with
  | ['%'] | ['%', '+'] | ['%', '%'] => found jobs.head? "No current job"
  | ['%', '-'] => found (jobs[1]?) "No previous job"
  | _ =>
    let place := Text.decimalValue (t.drop 1)
    match jobs.find? fun j => Bytes.isNumber (t.drop 1) && j.place + 1 == place with
    | some job => return job
    | none => Run.fault ("No such job: ".toList ++ t)

def setWaited (wanted : Job → Bool) : Run Unit :=
  modify fun s => { s with jobs := s.jobs.map fun j => { j with waited := j.waited || wanted j } }

def wait (args : List Bytes) : Run Nat := do
  let (_, operands) ← letters [] args
  if operands.isEmpty then
    runJobs
    setWaited fun _ => true
    return 0
  let mut status := 127
  for arg in operands do
    let job? : Option Job ← match arg with
      | '%' :: _ => some <$> namedJob arg
      | arg => do
        let n ← number arg
        pure ((← get).jobs.find? fun job => job.number == n)
    match job? with
    | some job => do
      let ending ← runJob job
      if !job.waited then report ending
      status := ending.status
      setWaited fun j => j.number == job.number
    | none => pure ()
  return status

def listJobs (args : List Bytes) : Run Nat := do
  let (options, _) ← letters ['l', 'p'] args
  let jobs := (← get).jobs
  let line (job : Job) : Bytes :=
    if options.contains 'p' then Bytes.ofNat job.number ++ ['\n']
    else
      let rank := (jobs.map Job.place).takeWhile (· != job.place)
      let mark := match rank with
        | [] => '+'
        | [_] => '-'
        | _ => ' '
      let front := '[' :: Bytes.ofNat (job.place + 1) ++ "] ".toList ++ [mark, ' '] ++
        (if options.contains 'l' then Bytes.ofNat job.number ++ [' '] else [])
      let state : Bytes := match job.ending with
        | none => "Running".toList
        | some (.exit 0) => "Done".toList
        | some (.exit n) => "Done(".toList ++ Bytes.ofNat n ++ [')']
        | some (.signal n) => signalWords n
      padded 33 (front ++ state) ++ ['\n']
  modify fun s => { s with jobs := s.jobs.filter fun j => j.ending.isNone }
  print (jobs.flatMap line)

def resume (args : List Bytes) : Run Nat := do
  let (_, operands) ← letters [] args
  let name := operands.head?
  let _ ← namedJob (name.getD ['%'])
  Run.fault ("job ".toList ++ name.getD "(null)".toList ++ " not created under job control".toList)

def listSignals (args : List Bytes) : Run Nat := do
  match args with
  | [] => print ((['0', '\n'] : Bytes) ++
      ((List.range lastSignal).flatMap fun n => signalName (n + 1) ++ ['\n']))
  | arg :: _ => do
    let n ← number arg
    let n := if 128 < n then n - 128 else n
    if 0 < n ∧ n ≤ lastSignal then print (signalName n ++ ['\n'])
    else Run.fault ("invalid signal number or exit status: ".toList ++ arg)

/-- Send a signal to a process, the shell itself among them. Commands in the background do not mind
being interrupted. -/
def sendSignal (n : Nat) (target : Nat) : Run Bool := do
  let s ← get
  if target = s.ownNumber then
    receive n
    return true
  else if target = s.processNumber then
    modify fun s => { s with host := { s.host with world := { s.host.world with
      signals := s.host.world.signals ++ [(target, n)] } } }
    return true
  else if s.jobs.any fun job => job.number == target then
    if n ≠ 0 ∧ !isHarmless n ∧ !([2, 3, 19, 20, 21, 22].contains n) then
      modify fun s => { s with jobs := s.jobs.map fun job =>
        if job.number == target ∧ job.ending.isNone then { job with ending := some (.signal n) }
        else job }
    return true
  else return false

def killUsage : String :=
  "Usage: kill [-s sigspec | -signum | -sigspec] [pid | job]... or\nkill -l [exitstatus]"

def kill (args : List Bytes) : Run Nat := do
  if args.isEmpty then Run.faultWords killUsage
  let send (n : Nat) (targets : List Bytes) : Run Nat := do
    let targets := if targets.head? = some ['-', '-'] then targets.tail else targets
    if targets.isEmpty then Run.faultWords killUsage
    let mut status := 0
    for t in targets do
      let target ← match t with
        | '%' :: _ => do
          let _ ← namedJob t
          pure 0
        | '-' :: rest => number rest
        | t => number t
      if !(← sendSignal n target) then
        Run.warn "No such process\n".toList
        status := 1
    return status
  match args with
  | ['-', 'l'] :: rest => listSignals rest
  | [['-', 's']] => Run.faultWords "No arg for -s option"
  | ('-' :: 's' :: c :: name) :: rest => match signal? (c :: name) 0 with
    | some n => send n rest
    | none => Run.fault ("invalid signal number or name: ".toList ++ c :: name)
  | ['-', 's'] :: name :: rest => match signal? name 0 with
    | some n => send n rest
    | none => Run.fault ("invalid signal number or name: ".toList ++ name)
  | ['-', '-'] :: rest => send 15 rest
  | ('-' :: c :: name) :: rest => match signal? (c :: name) 0 with
    | some n => send n rest
    | none => Run.fault ("Illegal option -".toList ++ [c])
  | targets => send 15 targets

end GrammarHeaders.Shell.Builtin
