import GrammarHeaders.Cause
import GrammarHeaders.Path
import GrammarHeaders.Tree

namespace GrammarHeaders

structure Disk where
  tree : Tree := {}
  /-- The current directory. -/
  cwd : Location := []
  deriving DecidableEq, Repr

namespace Disk

/-- Where a path leads. -/
inductive Place where
  /-- To an entry. -/
  | taken (l : Location) (e : Entry)
  /-- To a name that is free in a directory. -/
  | free (l : Location)
  deriving DecidableEq, Repr

def nameLimit : Nat := 255

def pathLimit : Nat := 4096

def linkLimit : Nat := 40

/-- The names that a path text asks for. A separator at the end asks for a directory, as a point
does. -/
def steps (path : String) : List String :=
  let pieces := (Text.splitOn '/' path.toList).map String.ofList
  let names := pieces.filter fun piece => piece != ""
  if pieces.getLast? == some "" && !names.isEmpty then names ++ ["."] else names

def startOf (here : Location) (path : String) : Location :=
  if path.toList.head? = some '/' then [] else here

/-- Follow names from a directory; `onLink` goes on behind a link. Nothing can be found or created
in a directory that has been removed. -/
def followWith (t : Tree) (followLast : Bool) (onLink : Location → List String → Except Cause Place) :
    Location → List String → Except Cause Place
  | here, [] => .ok (.taken here .directory)
  | here, name :: rest =>
    if name = "." then followWith t followLast onLink here rest
    else if name = ".." then followWith t followLast onLink here.dropLast rest
    else if nameLimit < name.utf8ByteSize then .error .nameTooLong
    else
      let next := here ++ [name]
      match t.get? next with
      | none =>
        if rest.isEmpty ∧ t.get? here = some .directory then .ok (.free next) else .error .notFound
      | some .directory => followWith t followLast onLink next rest
      | some (.file content executable) =>
        if rest.isEmpty then .ok (.taken next (.file content executable)) else .error .notADirectory
      | some (.device device) =>
        if rest.isEmpty then .ok (.taken next (.device device)) else .error .notADirectory
      | some (.link target) =>
        if rest.isEmpty && !followLast then .ok (.taken next (.link target))
        else if target = "" then .error .notFound
        else onLink (startOf here target) (steps target ++ rest)

def follow (t : Tree) (followLast : Bool) : Nat → Location → List String → Except Cause Place
  | 0, _, _ => .error .tooManyLinks
  | links + 1, here, names => followWith t followLast (follow t followLast links) here names

/-- Where a path leads; a link at its end is followed only if `followLast` says so. -/
def resolve (d : Disk) (path : String) (followLast : Bool) : Except Cause Place :=
  if path.toList.contains '\x00' then .error .zeroInPath
  else if path = "" then .error .notFound
  else if pathLimit ≤ path.utf8ByteSize then .error .nameTooLong
  else follow d.tree followLast (linkLimit + 1) (startOf d.cwd path) (steps path)

def entryAt (d : Disk) (path : Path) (followLast : Bool) : Except Cause (Location × Entry) :=
  match d.resolve path.text followLast with
  | .error cause => .error cause
  | .ok (.free _) => .error .notFound
  | .ok (.taken l e) => .ok (l, e)

def isDir (d : Disk) (path : Path) : Bool :=
  match d.entryAt path true with
  | .ok (_, .directory) => true
  | _ => false

def isFile (d : Disk) (path : Path) : Bool :=
  match d.entryAt path true with
  | .ok (_, .file ..) => true
  | _ => false

def pathExists (d : Disk) (path : Path) : Bool := (d.entryAt path true).isOk

def readContent (d : Disk) (path : Path) : Except Cause Content :=
  match d.entryAt path true with
  | .error cause => .error cause
  | .ok (_, .file content _) => .ok content
  | .ok (_, .device _) => .ok (.text [])
  | .ok (_, _) => .error .isADirectory

def readText (d : Disk) (path : Path) : Except Cause Text :=
  match d.readContent path with
  | .error cause => .error cause
  | .ok (.text t) => .ok t
  | .ok _ => .error .notText

/-- Where a write goes. -/
inductive Target where
  /-- To a file, new or not, with the mode that an existing one keeps. -/
  | file (l : Location) (executable : Bool)
  | device (device : Device)
  deriving DecidableEq, Repr

def writable (d : Disk) (path : Path) : Except Cause Target :=
  match d.resolve path.text true with
  | .error cause => .error cause
  | .ok (.free l) => .ok (.file l false)
  | .ok (.taken l (.file _ executable)) => .ok (.file l executable)
  | .ok (.taken _ (.device device)) => .ok (.device device)
  | .ok (.taken _ _) => .error .isADirectory

def writeDevice (d : Disk) (device : Device) (content : Content) : Except Cause Disk :=
  if device = .full ∧ !content.bytes.isEmpty then .error .noSpace else .ok d

/-- Write a whole file, creating it if its directory exists. -/
def write (d : Disk) (path : Path) (content : Content) : Except Cause Disk :=
  match d.writable path with
  | .error cause => .error cause
  | .ok (.device device) => d.writeDevice device content
  | .ok (.file l executable) => .ok { d with tree := d.tree.set l (.file content executable) }

/-- Copy a file with its mode. The target is emptied before the source is read, so that a file
copied onto itself ends up empty. -/
def copy (d : Disk) (source target : Path) : Except Cause Disk :=
  match d.entryAt source true with
  | .error cause => .error cause
  | .ok (l, .file content executable) => match d.writable target with
    | .error cause => .error cause
    | .ok (.device device) => d.writeDevice device content
    | .ok (.file l' _) =>
      let content := if l = l' then .text [] else content
      .ok { d with tree := d.tree.set l' (.file content executable) }
  | .ok (_, _) => .error .notARegularFile

def dropEndSlashes (path : String) : String :=
  let kept := (path.toList.reverse.dropWhile (· == '/')).reverse
  if kept.isEmpty then path else String.ofList kept

def makeDir (d : Disk) (path : Path) : Except Cause Disk :=
  match d.resolve (dropEndSlashes path.text) false with
  | .error cause => .error cause
  | .ok (.taken ..) => .error .alreadyExists
  | .ok (.free l) => .ok { d with tree := d.tree.set l .directory }

def unlessPresent (d : Disk) (path : Path) (cause : Cause) : Except Cause Unit × Disk :=
  if cause = .alreadyExists ∧ d.isDir path then (.ok (), d) else (.error cause, d)

def makeDirs (d : Disk) : List Path → Except Cause Unit × Disk
  | [] => (.ok (), d)
  | path :: parents =>
    if path.text = "" ∨ path.parent? = none then (.ok (), d)
    else match d.makeDir path with
      | .ok d => (.ok (), d)
      | .error .notFound => match d.makeDirs parents with
        | (.error cause, d) => (.error cause, d)
        | (.ok (), d) => match d.makeDir path with
          | .ok d => (.ok (), d)
          | .error cause => d.unlessPresent path cause
      | .error cause => d.unlessPresent path cause

/-- Create a directory with its parents. -/
def makeDirAll (d : Disk) (path : Path) : Except Cause Unit × Disk := d.makeDirs path.ancestors

def hasCwd (d : Disk) : Bool := d.tree.get? d.cwd == some .directory

def directoryName (d : Disk) (path : Path) : String :=
  match path.fileName? with
  | some name => name
  | none => match d.entryAt path true with
    | .ok (l, _) => if path.isAbsolute || d.hasCwd then l.getLast?.getD "" else ""
    | .error _ => ""

/-- A location of which only the first names are left; a name that nothing can have stands for
each of the others. -/
def orphaned (kept l : Location) : Location :=
  kept ++ List.replicate (l.length - kept.length) ""

/-- The disk after its tree has changed: of a current directory that is gone only the part that is
still there is left. -/
def settle (d : Disk) : Disk :=
  if d.hasCwd then d
  else
    let kept (n : Nat) : Bool := d.tree.get? (d.cwd.take n) == some .directory
    let n := ((List.range d.cwd.length).reverse.find? kept).getD 0
    { d with cwd := orphaned (d.cwd.take n) d.cwd }

def erase (d : Disk) (l : Location) : Disk :=
  ⟨d.tree.erase l, if l.isPrefixOf d.cwd then orphaned l.dropLast d.cwd else d.cwd⟩

def opens (dir : Path) (names : List String) : Bool :=
  (names.foldl (· / ·) dir).text.utf8ByteSize < pathLimit

/-- The files below a directory, or only those right in it, sorted by path. Links below the
directory are neither listed nor followed, and a directory that cannot be opened lists nothing. -/
def listFiles (d : Disk) (dir : Path) (recursive : Bool) : Except Cause (List Path) :=
  match d.entryAt dir false with
  | .error cause => .error cause
  | .ok _ => match d.entryAt dir true with
    | .error cause => .error cause
    | .ok (l, .directory) =>
      let files := (d.tree.below l).filterMap fun (names, entry) =>
        match entry with
        | .file .. =>
          if (recursive || names.length == 1) && opens dir names.dropLast then
            some (names.foldl (· / ·) dir)
          else none
        | _ => none
      .ok (files.mergeSort Path.le)
    | .ok _ => .ok []

def unopened (d : Disk) (dir : Path) : List Path :=
  match d.entryAt dir true with
  | .ok (l, .directory) => (d.tree.below l).filterMap fun (names, entry) =>
    if entry = .directory ∧ opens dir names.dropLast ∧ !opens dir names then
      some (names.foldl (· / ·) dir)
    else none
  | _ => []

end Disk

end GrammarHeaders
