import GrammarHeaders.Shell.Host

namespace GrammarHeaders.Shell

/-- What a utility does; it may end before it is through. -/
abbrev Task := ExceptT Ending (StateM Host)

/-- Runs a program file with its arguments, the first of which is its name. -/
abbrev Launch := Bytes → List Bytes → StateM Host (Except Cause Ending)

namespace Task

def end_ {α : Type} (status : Nat) : Task α := throw (.exit status)

def name : Task Bytes := return (← get).process.name

def disk : Task Disk := Host.disk

def errors (t : Bytes) : Task Unit := do
  let _ ← (Host.write 2 t : StateM Host _)

def complain (message : Bytes) : Task Unit := do
  errors ((← name) ++ ": ".toList ++ message ++ ['\n'])

def fail {α : Type} (status : Nat) (message : Bytes) : Task α := do
  complain message
  end_ status

def write (t : Bytes) : Task Unit := do
  match ← (Host.write 1 t : StateM Host _) with
  | .ok () => return
  | .error cause =>
    if cause = Cause.brokenPipe then throw (.signal 13)
    else fail 1 ("write error: ".toList ++ cause.words.toList)

def writeLine (t : Bytes) : Task Unit := write (t ++ ['\n'])

def because (subject : Bytes) (cause : Cause) : Bytes := subject ++ ": ".toList ++ cause.words.toList

def readOperand (path : Bytes) : Task (Except Cause Bytes) := do
  if path = ['-'] then Host.readAll 0
  else match ← (Host.openPath path { read := true } : StateM Host _) with
    | .error cause => return .error cause
    | .ok file => do
      let streams := (← get).process.streams
      Host.setStream 1000 file
      let t ← (Host.readAll 1000 : StateM Host _)
      modify fun h => { h with process := { h.process with streams } }
      return t

end Task

end GrammarHeaders.Shell
