import GrammarHeaders.Disk
import GrammarHeaders.Shell.Bytes

namespace GrammarHeaders.Shell

/-- Where the bytes of an open file come from and go to. -/
inductive Channel where
  | file (l : Location)
  | directory
  | null
  | zero
  | full
  | pipe (number : Nat)
  deriving DecidableEq, Repr

structure OpenFile where
  channel : Channel
  offset : Nat := 0
  append : Bool := false
  readable : Bool := true
  writable : Bool := true
  deriving DecidableEq, Repr

/-- Bytes that have been written and not read; the chunks are kept last first. -/
structure Pipe where
  chunks : List Bytes := []
  size : Nat := 0
  writes : Nat := 0
  limited : Bool := false
  deriving DecidableEq, Repr

def Pipe.content (p : Pipe) : Bytes :=
  match p.chunks with
  | [t] => t
  | chunks => chunks.reverse.flatten

/-- What all programs share. -/
structure World where
  tree : Tree
  files : Array OpenFile := #[]
  pipes : Array Pipe := #[]
  nextNumber : Nat := 4711
  signals : List (Nat × Nat) := []

/-- What a program has of its own: its streams by number, each an open file. -/
structure Process where
  name : Bytes
  cwd : Location
  streams : List (Nat × Nat) := []
  environment : List (Bytes × Bytes) := []
  parent : Nat := 1
  ignored : List Nat := []

structure Host where
  world : World
  process : Process

/-- How a program has ended. -/
inductive Ending where
  | exit (status : Nat)
  | signal (number : Nat)
  deriving DecidableEq, Repr

def Ending.status : Ending → Nat
  | exit status => status
  | signal number => 128 + number

namespace Host

abbrev Operation (α : Type) := StateM Host α

def disk : Operation Disk := do
  let h ← get
  return ⟨h.world.tree, h.process.cwd⟩

def setDisk (d : Disk) : Operation Unit :=
  modify fun h => { h with
    world := { h.world with tree := d.tree }
    process := { h.process with cwd := d.cwd } }

def pathOf (t : Bytes) : Path := ⟨t.toString⟩

def change (operation : Disk → Except Cause Disk) : Operation (Except Cause Unit) := do
  match operation (← disk) with
  | .error cause => return .error cause
  | .ok d =>
    setDisk d
    return .ok ()

def addFile (f : OpenFile) : Operation Nat := do
  let h ← get
  set { h with world := { h.world with files := h.world.files.push f } }
  return h.world.files.size

def newPipe (limited : Bool) : Operation Nat := do
  let h ← get
  set { h with world := { h.world with pipes := h.world.pipes.push { limited } } }
  return h.world.pipes.size

def streamFile? (stream : Nat) : Operation (Option Nat) :=
  return (← get).process.streams.lookup stream

def setStream (stream file : Nat) : Operation Unit :=
  modify fun h => { h with process := { h.process with
    streams := (stream, file) :: h.process.streams.filter fun s => s.1 != stream } }

def closeStream (stream : Nat) : Operation Unit :=
  modify fun h => { h with process := { h.process with
    streams := h.process.streams.filter fun s => s.1 != stream } }

/-- The way of opening a file. -/
structure Access where
  read : Bool := false
  write : Bool := false
  create : Bool := false
  truncate : Bool := false
  append : Bool := false
  fresh : Bool := false
  deriving DecidableEq, Repr

def Access.file (a : Access) (channel : Channel) : OpenFile :=
  { channel, append := a.append, readable := a.read, writable := a.write }

def openPath (path : Bytes) (a : Access) : Operation (Except Cause Nat) := do
  let d ← disk
  match d.resolve (pathOf path).text true with
  | .error cause => return .error cause
  | .ok (.free l) =>
    if a.create then
      setDisk { d with tree := d.tree.set l (.file (.text []) false) }
      return .ok (← addFile (a.file (.file l)))
    else return .error .notFound
  | .ok (.taken l entry) =>
    match entry with
    | .file _ executable =>
      if a.fresh then return .error .alreadyExists
      if a.truncate then setDisk { d with tree := d.tree.set l (.file (.text []) executable) }
      return .ok (← addFile (a.file (.file l)))
    | .directory =>
      if a.write then return .error .isADirectory
      return .ok (← addFile (a.file .directory))
    | .device .null => return .ok (← addFile (a.file .null))
    | .device .zero => return .ok (← addFile (a.file .zero))
    | .device .full => return .ok (← addFile (a.file .full))
    | .device (.stream n) => match (← get).process.streams.lookup n with
      | none => return .error .notFound
      | some file => match (← get).world.files[file]? with
        | none => return .error .notFound
        | some open_ =>
          match open_.channel with
          | .file l =>
            if a.truncate then
              match d.tree.get? l with
              | some (.file _ executable) =>
                setDisk { d with tree := d.tree.set l (.file (.text []) executable) }
              | _ => pure ()
            return .ok (← addFile (a.file (.file l)))
          | channel => return .ok (← addFile (a.file channel))
    | .link _ => return .error .notFound

def bytesAt (t : Tree) (l : Location) : Bytes :=
  match t.get? l with
  | some (.file content _) => Bytes.ofBytes content.bytes
  | _ => []

def setFile (number : Nat) (f : OpenFile) : Operation Unit :=
  modify fun h => { h with world := { h.world with files := h.world.files.setIfInBounds number f } }

def setPipe (number : Nat) (p : Pipe) : Operation Unit :=
  modify fun h => { h with world := { h.world with pipes := h.world.pipes.setIfInBounds number p } }

def setTree (t : Tree) : Operation Unit :=
  modify fun h => { h with world := { h.world with tree := t } }

def openFile? (stream : Nat) : Operation (Option (Nat × OpenFile)) := do
  let h ← get
  match h.process.streams.lookup stream with
  | none => return none
  | some number => return (h.world.files[number]?).map (number, ·)

def pipeLimit : Nat := 3000000

def writeLimit : Nat := 30000

def readWith (stream : Nat) (take : Bytes → Bytes) : Operation (Except Cause Bytes) := do
  match ← openFile? stream with
  | none => return .error Cause.badStream
  | some (number, f) =>
    if !f.readable then return .error Cause.badStream
    match f.channel with
    | .null => return .ok []
    | .zero | .full => return .ok (take (List.replicate pipeLimit '\x00'))
    | .directory => return .error .isADirectory
    | .file l =>
      let taken := take ((bytesAt (← get).world.tree l).drop f.offset)
      setFile number { f with offset := f.offset + taken.length }
      return .ok taken
    | .pipe n => match (← get).world.pipes[n]? with
      | none => return .ok []
      | some p =>
        let content := p.content
        let taken := take content
        let size := taken.length
        setPipe n { p with chunks := [content.drop size], size := p.size - size }
        return .ok taken

def readAll (stream : Nat) : Operation (Except Cause Bytes) := readWith stream id

def upTo (stop : Char) (t : Bytes) : Bytes :=
  let front := t.takeWhile (· != stop)
  if (t.drop front.length).isEmpty then front else front ++ [stop]

def giveBack (stream : Nat) (count : Nat) : Operation Unit := do
  match ← openFile? stream with
  | some (number, f) => match f.channel with
    | .file _ => setFile number { f with offset := f.offset - count }
    | _ => pure ()
  | none => pure ()

def overwrite (content : Bytes) (offset : Nat) (t : Bytes) : Bytes :=
  let front := content.take offset
  front ++ List.replicate (offset - front.length) '\x00' ++ t ++ content.drop (offset + t.length)

def write (stream : Nat) (t : Bytes) : Operation (Except Cause Unit) := do
  match ← openFile? stream with
  | none => return .error Cause.badStream
  | some (number, f) =>
    if !f.writable then return .error Cause.badStream
    if t.isEmpty then return .ok ()
    match f.channel with
    | .null | .zero => return .ok ()
    | .full => return .error .noSpace
    | .directory => return .error Cause.badStream
    | .file l => do
      let tree := (← get).world.tree
      match tree.get? l with
      | some (.file content executable) =>
        let size := content.size
        let offset := if f.append then size else f.offset
        let new := if offset = size then content.append t.toBytes
          else .ofBytes (overwrite (Bytes.ofBytes content.bytes) offset t).toBytes
        setTree (tree.set l (.file new executable))
        setFile number { f with offset := offset + t.length }
      | _ => pure ()
      return .ok ()
    | .pipe n => match (← get).world.pipes[n]? with
      | none => return .ok ()
      | some p =>
        let size := p.size + t.length
        let writes := p.writes + 1
        if p.limited && (pipeLimit < size || writeLimit < writes) then
          let kept := t.take (pipeLimit - p.size)
          setPipe n { p with chunks := kept :: p.chunks, size := p.size + kept.length, writes }
          return .error Cause.brokenPipe
        setPipe n { p with chunks := t :: p.chunks, size, writes }
        return .ok ()

end Host

end GrammarHeaders.Shell
