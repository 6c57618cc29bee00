import GrammarHeaders.Shell.Host

namespace GrammarHeaders.Shell

/-- What a file comes down to: a program of the machine, and the arguments that it gets. -/
structure Image where
  program : String
  argv : List Bytes

namespace Image

def headSize : Nat := 256

def isBlank (c : Char) : Bool := c == ' ' || c == '\t'

def interpreter? (t : Bytes) : Option (List Bytes) :=
  let head := t.take headSize
  let line := (head.drop 2).takeWhile fun c => c != '\n' && c != '\x00'
  let trimmed := Bytes.dropEndWhile isBlank (line.dropWhile isBlank)
  let interpreter := trimmed.takeWhile fun c => !isBlank c
  let argument := (trimmed.drop interpreter.length).dropWhile isBlank
  let cut := head.length = headSize ∧ line.length + 2 = headSize ∧ argument.isEmpty
  if !"#!".toList.isPrefixOf head ∨ interpreter.isEmpty ∨ cut then none
  else some (interpreter :: (if argument.isEmpty then [] else [argument]))

def open? (d : Disk) (path : Bytes) : Except Cause Content :=
  match d.entryAt (Host.pathOf path) true with
  | .error cause => .error cause
  | .ok (_, .file content true) => .ok content
  | .ok _ => .error .permissionDenied

def scriptLimit : Nat := 5

def loadThrough (d : Disk) : Nat → Bytes → List Bytes → Except Cause Image
  | scripts, path, argv => do
    match ← open? d path with
    | .program name => return ⟨name, argv⟩
    | content => match interpreter? (Bytes.ofBytes content.bytes) with
      | none => throw .notExecutable
      | some front => match scripts with
        | 0 => do
          let _ ← open? d (front.headD [])
          throw .tooManyLinks
        | scripts + 1 => loadThrough d scripts (front.headD []) (front ++ path :: argv.tail)

def argumentLimit : Nat := 131072

def totalLimit : Nat := 2097152

def isTooMuch (texts : List Bytes) : Bool :=
  let sizes := texts.map fun t => t.length + 1
  sizes.any (fun n => decide (argumentLimit < n)) ||
    decide (totalLimit < sizes.foldl (· + ·) 0 + 8 * texts.length)

def load (d : Disk) (environment : List (Bytes × Bytes)) (path : Bytes) (argv : List Bytes) :
    Except Cause Image :=
  if isTooMuch (path :: argv ++ environment.map fun e => e.1 ++ '=' :: e.2) then
    .error Cause.tooManyArguments
  else loadThrough d scriptLimit path argv

def searchDirs (path : Bytes) : List Bytes := Text.splitOn ':' path

def inDir (dir name : Bytes) : Bytes := if dir.isEmpty then name else dir ++ '/' :: name

def isMissing (cause : Cause) : Bool := cause = .notFound || cause = .notADirectory

/-- Try files until one of them can be loaded. A file that is missing or cannot be run is passed
over, but a file that cannot be run is what is reported in the end. -/
def firstLoaded (load : Bytes → Except Cause Unit) (denied : Bool) (last : Cause) :
    List Bytes → Except Cause Bytes
  | [] => .error (if denied then .permissionDenied else last)
  | path :: rest => match load path with
    | .ok () => .ok path
    | .error cause =>
      if cause = .permissionDenied then firstLoaded load true cause rest
      else if isMissing cause then firstLoaded load denied cause rest
      else .error cause

def systemPath : Bytes := "/bin:/usr/bin".toList

def nameLimit : Nat := 255

/-- The file of a program that is given by a path, or by a name. Where `scripts` is set, a file
without an interpreter is one for the shell. -/
def locate (d : Disk) (environment : List (Bytes × Bytes)) (scripts : Bool) (argv : List Bytes) :
    Except Cause Bytes :=
  let name := argv.headD []
  let attempt (path : Bytes) : Except Cause Unit := match load d environment path argv with
    | .ok _ => .ok ()
    | .error cause => if scripts ∧ cause = .notExecutable then .ok () else .error cause
  if name.isEmpty then .error .notFound
  else if name.contains '/' then do
    attempt name
    return name
  else if nameLimit < name.length then .error .nameTooLong
  else
    let path := (environment.lookup "PATH".toList).getD systemPath
    firstLoaded attempt false .notFound ((searchDirs path).map fun dir => inDir dir name)

end Image

end GrammarHeaders.Shell
