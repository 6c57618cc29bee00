import GrammarHeaders.Shell.Builtin.Settings
import GrammarHeaders.Shell.Mode

namespace GrammarHeaders.Shell.Builtin

def signalNames : List String :=
  ["EXIT", "HUP", "INT", "QUIT", "ILL", "TRAP", "ABRT", "BUS", "FPE", "KILL", "USR1", "SEGV", "USR2",
   "PIPE", "ALRM", "TERM", "16", "CHLD", "CONT", "STOP", "TSTP", "TTIN", "TTOU", "URG", "XCPU",
   "XFSZ", "VTALRM", "PROF", "WINCH", "IO", "PWR", "SYS"]

def lastSignal : Nat := 64

def signalName (n : Nat) : Bytes :=
  match signalNames[n]? with
  | some name => name.toList
  | none =>
    if n = 34 then "RTMIN".toList
    else if n = 64 then "RTMAX".toList
    else if 34 < n ∧ n < 50 then "RTMIN+".toList ++ Bytes.ofNat (n - 34)
    else if 50 ≤ n ∧ n < 64 then "RTMAX-".toList ++ Bytes.ofNat (64 - n)
    else Bytes.ofNat n

def signal? (t : Bytes) (least : Nat) : Option Nat :=
  if Bytes.isNumber t then
    let n := Text.decimalValue t
    if least ≤ n ∧ n ≤ lastSignal then some n else none
  else
    let name := t.map Char.toUpper
    (List.range (lastSignal + 1)).find? fun n => decide (least ≤ n) && signalName n == name

def isHarmless (n : Nat) : Bool := [17, 18, 23, 28].contains n

def trap (args : List Bytes) : Run Nat := do
  let (_, operands) ← letters [] args
  let listed : Run Nat := do
    let traps := (← get).traps.mergeSort fun a b => a.1 ≤ b.1
    print (traps.flatMap fun (n, action) =>
      "trap -- ".toList ++ quoted action ++ [' '] ++ signalName n ++ ['\n'])
  let apply (action : Option Bytes) (names : List Bytes) : Run Nat := do
    for name in names do
      match signal? name 0 with
      | none =>
        Run.errors ("trap: ".toList ++ name ++ ": bad trap\n".toList)
        return 1
      | some n =>
        modify fun s =>
          let others := s.traps.filter fun t => t.1 != n
          { s with traps := match action with
            | some action => (n, action) :: others
            | none => others }
    return 0
  match operands with
  | [] => listed
  | [name] => apply none [name]
  | action :: names =>
    if action = ['-'] || (Bytes.isNumber action && (signal? action 0).isSome) then
      apply none (if action = ['-'] then names else operands)
    else apply (some action) names

def signalWords (n : Nat) : Bytes :=
  match [(1, "Hangup"), (3, "Quit"), (4, "Illegal instruction"), (5, "Trace/breakpoint trap"),
    (6, "Aborted"), (7, "Bus error"), (8, "Floating point exception"), (9, "Killed"),
    (10, "User defined signal 1"), (11, "Segmentation fault"), (12, "User defined signal 2"),
    (14, "Alarm clock"), (15, "Terminated"), (16, "Stack fault"), (24, "CPU time limit exceeded"),
    (25, "File size limit exceeded"), (26, "Virtual timer expired"), (27, "Profiling timer expired"),
    (29, "I/O possible"), (30, "Power failure"), (31, "Bad system call")].lookup n with
  | some words => words.toList
  | none => "Unknown signal ".toList ++ Bytes.ofNat n

def report (ending : Ending) : Run Unit := do
  match ending with
  | .signal n => if n ≠ 2 ∧ n ≠ 13 then Run.errors (signalWords n ++ ['\n'])
  | .exit _ => pure ()

def receive (n : Nat) : Run Unit := do
  if (← get).host.process.ignored.contains n then return
  match (← get).traps.lookup n with
  | some action =>
    if n = 9 ∨ n = 19 then throw (.killed n)
    if !action.isEmpty then modify fun s => { s with due := s.due ++ [n] }
  | none => if n ≠ 0 ∧ !isHarmless n then throw (.killed n)

def receiveSent : Run Unit := do
  let s ← get
  let (mine, others) := s.host.world.signals.partition fun sent => sent.1 == s.ownNumber
  if !mine.isEmpty then
    modify fun s => { s with host := { s.host with world := { s.host.world with signals := others } } }
    mine.forM fun sent => receive sent.2

def octal (n : Nat) : Bytes :=
  let ds := Nat.toDigits 8 n
  List.replicate (4 - ds.length) '0' ++ ds

def symbolicMask (mask : Nat) : Bytes :=
  let part (who : Char) (shift : Nat) : Bytes :=
    let bits := 7 - (mask / shift) % 8
    who :: '=' :: (if bits / 4 % 2 = 1 then ['r'] else []) ++ (if bits / 2 % 2 = 1 then ['w'] else []) ++
      (if bits % 2 = 1 then ['x'] else [])
  Bytes.join [','] [part 'u' 64, part 'g' 8, part 'o' 1]

def umask (args : List Bytes) : Run Nat := do
  let (options, operands) ← letters ['S'] args
  match operands with
  | [] => do
    let mask := (← get).mask
    print ((if options.contains 'S' then symbolicMask mask else octal mask) ++ ['\n'])
  | arg :: _ =>
    if arg.all Format.isOctal && !arg.isEmpty then
      modify fun s => { s with mask := (Format.upToDigits 8 10 arg).1 % 512 }
      return 0
    else if (arg.head?.map Char.isDigit).getD false then
      Run.fault ("Illegal number: ".toList ++ arg)
    else
      let rights := 511 - (← get).mask
      match Mode.changed? arg rights with
      | some rights =>
        modify fun s => { s with mask := 511 - rights % 512 }
        return 0
      | none => Run.fault ("Illegal mode: ".toList ++ arg)

end GrammarHeaders.Shell.Builtin
