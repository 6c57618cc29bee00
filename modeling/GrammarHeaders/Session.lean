import GrammarHeaders.Disk
import GrammarHeaders.Failure
import GrammarHeaders.Log
import GrammarHeaders.Request

namespace GrammarHeaders

/-- A request as it was made: with the text that each header had at that time, if it had one. -/
structure Asked where
  request : Request
  texts : List (Option Text)
  deriving DecidableEq, Repr

structure Session where
  disk : Disk
  log : List LogLine := []
  asked : List Asked := []
  deriving DecidableEq, Repr

/-- A stage that may fail in the ways of `ε`. -/
abbrev Stage (ε α : Type) := ExceptT ε (StateM Session) α

/-- A stage of the pipeline. -/
abbrev Action (α : Type) := Stage Failure α

namespace Stage

variable {ε α : Type}

def logAll (lines : List LogLine) : Stage ε Unit :=
  modify fun s => { s with log := s.log ++ lines }

def log (line : LogLine) : Stage ε Unit := logAll [line]

def disk : Stage ε Disk := return (← get).disk

def setDisk (d : Disk) : Stage ε Unit := modify fun s => { s with disk := d }

def ofExcept (result : Except ε α) : Stage ε α := ExceptT.mk (pure result)

/-- Run a stage, and read its failures as those of a larger one. -/
def within {ε' : Type} (wrap : ε → ε') (stage : Stage ε α) : Stage ε' α := ExceptT.adapt wrap stage

def start (stage : Stage ε α) (s : Session) : Except ε α × Session := StateT.run (ExceptT.run stage) s

end Stage

namespace Action

def change (failure : Cause → Failure) (operation : Disk → Except Cause Disk) : Action Unit := do
  match operation (← Stage.disk) with
  | .ok d => Stage.setDisk d
  | .error cause => throw (failure cause)

def readText (path : Path) : Action Text := do
  match (← Stage.disk).readText path with
  | .ok t => return t
  | .error cause => throw (.file .read path cause)

def writeText (path : Path) (t : Text) : Action Unit :=
  change (.file .write path) fun d => d.write path (.text t)

def copyFile (source target : Path) : Action Unit :=
  change (.file .copy source) fun d => d.copy source target

/-- Read a file, transform its text, and write it back if the text has changed. The answer says
whether it was written, with what the transformation says besides. -/
def updateInPlace {α : Type} (path : Path) (transform : Text → Text × α) : Action (Bool × α) := do
  let before ← readText path
  let (after, note) := transform before
  if after = before then return (false, note)
  writeText path after
  return (true, note)

def ensureDirOr (failure : Path → Cause → Failure) (path : Path) : Action Unit := do
  let d ← Stage.disk
  if !d.isDir path then
    let (result, d) := d.makeDirAll path
    Stage.setDisk d
    match result with
    | .ok () => return
    | .error cause => throw (failure path cause)

def ensureModuleDir (root : Path) (module : String) : Action Path := do
  let dir := root / module
  ensureDirOr .createDirectory dir
  return dir

end Action

end GrammarHeaders
