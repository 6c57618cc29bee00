import GrammarHeaders.Shell.Expansion

namespace GrammarHeaders.Shell.Redirection

/-- A redirection whose words have been expanded. -/
inductive Ready where
  | file (fd : Nat) (opening : Opening) (path : Bytes)
  | same (fd source : Nat)
  | close (fd : Nat)
  | text (fd : Nat) (t : Bytes)

def prepare (capture : Expansion.Capture) (r : Redirect) : Run Ready := do
  match r with
  | .file fd opening target => return .file fd opening (← Expansion.text capture target)
  | .same fd source => return .same fd source
  | .close fd => return .close fd
  | .named fd source => match ← Expansion.text capture source with
    | ['-'] => return .close fd
    | [d] => if d.isDigit then return .same fd (d.toNat - 48) else badNumber
    | _ => badNumber
  | .document fd number => match (← get).documents.lookup number with
    | some w => return .text fd (← Expansion.document capture w)
    | none => return .text fd []
where
  badNumber {α : Type} : Run α := do
    modify fun s => { s with line := s.readTo }
    Run.faultWords "Syntax error: Bad fd number"

def openWords (missing : String) (cause : Cause) : Bytes :=
  if cause = .notFound ∨ cause = .notADirectory then missing.toList else cause.words.toList

def access (spare : Bool) : Opening → Host.Access
  | .read => { read := true }
  | .write => { write := true, create := true, truncate := true, fresh := spare }
  | .append => { write := true, create := true, append := true }
  | .readWrite => { read := true, write := true, create := true }
  | .clobber => { write := true, create := true, truncate := true }

def connect (r : Ready) : Run Unit := do
  match r with
  | .file fd opening path => do
    let spare ← Run.hasOption 'C'
    match ← Run.onHost (Host.openPath path (access spare opening)) with
    | .ok file => Run.onHost (Host.setStream fd file)
    | .error cause =>
      if opening = .read then
        Run.fault ("cannot open ".toList ++ path ++ ": ".toList ++ openWords "No such file" cause)
      else
        Run.fault ("cannot create ".toList ++ path ++ ": ".toList ++
          openWords "Directory nonexistent" cause)
  | .same fd source => match ← Run.onHost (Host.streamFile? source) with
    | some file => Run.onHost (Host.setStream fd file)
    | none => Run.fault (Bytes.ofNat source ++ ": Bad file descriptor".toList)
  | .close fd => Run.onHost (Host.closeStream fd)
  | .text fd t => do
    let pipe ← Run.onHost (Host.newPipe false)
    Run.onHost (Host.setPipe pipe { chunks := [t], size := t.length })
    let file ← Run.onHost (Host.addFile { channel := .pipe pipe, writable := false })
    Run.onHost (Host.setStream fd file)

def connectAll (rs : List Ready) : Run Unit := rs.forM connect

def within {α : Type} (action : Run α) : Run α := do
  let streams := (← get).host.process.streams
  let back : Run Unit := modify fun s => { s with
    host := { s.host with process := { s.host.process with streams } } }
  try
    let a ← action
    back
    return a
  catch stop =>
    back
    throw stop

def tryConnect (rs : List Ready) : Run Bool := do
  try
    connectAll rs
    return true
  catch stop =>
    if stop = .fault then return false else throw stop

end GrammarHeaders.Shell.Redirection
