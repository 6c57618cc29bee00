import GrammarHeaders.Shell.Mode
import GrammarHeaders.Shell.Utility.Printing

namespace GrammarHeaders.Shell.Utility

open Shell.Options

def stat (path : Bytes) (follow : Bool) : Task (Except Cause (Location × Entry)) :=
  return (← Task.disk).entryAt (Host.pathOf path) follow

def isDir (path : Bytes) : Task Bool := return (← Task.disk).isDir (Host.pathOf path)

def change (operation : Disk → Except Cause Disk) : Task (Except Cause Unit) :=
  (Host.change operation : StateM Host _)

def under (dir name : Bytes) : Bytes :=
  if dir.getLast? = some '/' then dir ++ name else dir ++ '/' :: name

def namesIn (d : Disk) (l : Location) : List Bytes :=
  ((d.tree.below l).filterMap fun (names, _) => match names with
    | [name] => some (Bytes.ofString name)
    | _ => none).mergeSort Bytes.le

def isOctalMode (t : Bytes) : Bool :=
  !t.isEmpty && t.all Format.isOctal && decide ((Format.upToDigits 8 20 t).1 ≤ 4095)

def isMode (t : Bytes) : Bool :=
  isOctalMode t || (!t.isEmpty && (Mode.changed? t 0).isSome && (Text.splitOn ',' t).all fun clause =>
    clause.any fun c => c == '+' || c == '-' || c == '=')

def executableAfter (mode : Bytes) (executable : Bool) : Bool :=
  let rights := if isOctalMode mode then (Format.upToDigits 8 20 mode).1
    else (Mode.changed? mode (if executable then 493 else 420)).getD 0
  rights &&& 73 != 0

def chmod (args : List Bytes) : Task Nat := do
  let isMinus (arg : Bytes) : Bool := match arg with
    | '-' :: c :: _ => "rwxXst".toList.contains c
    | _ => false
  let dashed := args.filter isMinus
  let g ← parse { letters := "Rcfv", long := [⟨"recursive", 'R', .none⟩, ⟨"changes", 'c', .none⟩,
    ⟨"silent", 'f', .none⟩, ⟨"quiet", 'f', .none⟩, ⟨"verbose", 'v', .none⟩,
    ⟨"reference", 'r', .required⟩] } (args.filter fun arg => !isMinus arg)
  let operands := dashed ++ g.operands
  match operands with
  | [] => missingOperand 1
  | [mode] => misuse 1 ("missing operand after ".toList ++ Quoting.words mode)
  | mode :: files =>
    if !isMode mode then misuse 1 ("invalid mode: ".toList ++ Quoting.words mode)
    forAll files fun path => do
      match ← stat path true with
      | .error cause =>
        if !g.has 'f' then
          Task.complain (Task.because ("cannot access ".toList ++ Quoting.always path) cause)
        return false
      | .ok (l, _) =>
        modify fun h =>
          let inside (k : Location) : Bool := k == l || (g.has 'R' && l.isPrefixOf k)
          { h with world := { h.world with tree := .ofEntries (h.world.tree.entries.map fun (k, e) =>
            match e with
            | .file content x => if inside k then (k, .file content (executableAfter mode x)) else (k, e)
            | e => (k, e)) } }
        return true

def pathSteps (path : Bytes) : List Bytes :=
  let step (done : List Bytes) (n : Nat) : List Bytes :=
    let front := path.take n
    if front.getLast? = some '/' ∨ (n < path.length ∧ path[n]? ≠ some '/') ∨ front.isEmpty then done
    else front :: done
  ((List.range (path.length + 1)).foldl step []).reverse

def makeParents (verbose : Bool) (path : Bytes) : Task Bool := do
  let steps := pathSteps path
  if steps.isEmpty then
    if path.isEmpty then
      Task.complain "cannot create directory '': No such file or directory".toList
      return false
    return true
  for step in steps do
    let last := step.length == (steps.getLastD []).length
    match ← change fun d => d.makeDir (Host.pathOf step) with
    | .ok () =>
      if verbose then
        Task.writeLine ((← Task.name) ++ ": created directory ".toList ++ Quoting.always step)
    | .error cause =>
      if !(← isDir step) then
        let cause := if !last ∧ cause = .alreadyExists then .notADirectory else cause
        Task.complain (Task.because ("cannot create directory ".toList ++ Quoting.always step) cause)
        return false
  return true

def mkdir (args : List Bytes) : Task Nat := do
  let g ← parse { letters := "pm:vZ", long := [⟨"parents", 'p', .none⟩, ⟨"mode", 'm', .required⟩,
    ⟨"verbose", 'v', .none⟩, ⟨"context", 'Z', .optional⟩] } args
  if g.operands.isEmpty then missingOperand 1
  match g.value? 'm' with
  | some mode =>
    if !isMode mode then Task.fail 1 ("invalid mode ".toList ++ Quoting.words mode)
  | none => pure ()
  forAll g.operands fun path => do
    if g.has 'p' then makeParents (g.has 'v') path
    else match ← change fun d => d.makeDir (Host.pathOf path) with
      | .ok () =>
        if g.has 'v' then
          Task.writeLine ((← Task.name) ++ ": created directory ".toList ++ Quoting.always path)
        return true
      | .error cause =>
        Task.complain (Task.because ("cannot create directory ".toList ++ Quoting.always path) cause)
        return false

def eraseDir (path : Bytes) (d : Disk) : Except Cause Disk :=
  match d.entryAt (Host.pathOf path) false with
  | .error cause => .error cause
  | .ok (l, .directory) =>
    if (lastName path) = ['.'] then .error (.numbered 22)
    else if (d.tree.below l).isEmpty then .ok (d.erase l) else .error .notEmpty
  | .ok _ => .error .notADirectory

def rmdir (args : List Bytes) : Task Nat := do
  let g ← parse { letters := "pv", long := [⟨"parents", 'p', .none⟩, ⟨"verbose", 'v', .none⟩,
    ⟨"ignore-fail-on-non-empty", 'i', .none⟩] } args
  if g.operands.isEmpty then missingOperand 1
  forAll g.operands fun path => do
    let paths := if g.has 'p' then (pathSteps path).reverse else [path]
    let mut good := true
    for p in paths do
      if good then
        if g.has 'v' then
          Task.writeLine ((← Task.name) ++ ": removing directory, ".toList ++ Quoting.always p)
        match ← change (eraseDir p) with
        | .ok () => pure ()
        | .error cause =>
          good := g.has 'i' && cause = .notEmpty
          if !good then
            let words := if p.length < path.length then "failed to remove directory " else "failed to remove "
            Task.complain (Task.because (words.toList ++ Quoting.always p) cause)
    return good

def eraseBelow (verbose : Bool) (path : Bytes) (l : Location) (e : Entry) : Task Unit := do
  let d ← Task.disk
  if verbose then
    let inside := (d.tree.below l).mergeSort fun a b => Bytes.le
      (Bytes.ofString ("/".intercalate b.1)) (Bytes.ofString ("/".intercalate a.1))
    for (names, e) in inside do
      let shown := under path (Bytes.ofString ("/".intercalate names))
      Task.writeLine ((if e = .directory then "removed directory " else "removed ").toList ++
        Quoting.always shown)
    Task.writeLine ((if e = .directory then "removed directory " else "removed ").toList ++
      Quoting.always path)
  Host.setDisk ((← Task.disk).erase l)

def kindWords : Entry → String
  | .directory => "directory"
  | .link _ => "symbolic link"
  | .device _ => "character special file"
  | .file content _ => if content.bytes.isEmpty then "regular empty file" else "regular file"

def rm (args : List Bytes) : Task Nat := do
  let g ← parse { letters := "dfirvIR", long := [⟨"force", 'f', .none⟩, ⟨"recursive", 'r', .none⟩,
    ⟨"dir", 'd', .none⟩, ⟨"verbose", 'v', .none⟩, ⟨"interactive", 'i', .optional⟩,
    ⟨"one-file-system", 'o', .none⟩, ⟨"no-preserve-root", 'N', .none⟩,
    ⟨"preserve-root", 'P', .optional⟩] } args
  let force := g.last? ['f', 'i'] == some 'f'
  let asking := g.last? ['f', 'i'] == some 'i'
  let recursive := g.has 'r' || g.has 'R'
  if g.operands.isEmpty then
    if force then return 0 else missingOperand 1
  forAll g.operands fun path => do
    let cannot (cause : Cause) : Task Bool := do
      Task.complain (Task.because ("cannot remove ".toList ++ Quoting.always path) cause)
      return false
    let name := lastName path
    if recursive && (name = ['.'] || name = ['.', '.']) then
      Task.complain ("refusing to remove '.' or '..' directory: skipping ".toList ++ Quoting.always path)
      return false
    match ← stat path false with
    | .error cause =>
      if force ∧ (cause = .notFound ∨ cause = .notADirectory) then return true
      cannot cause
    | .ok (l, e) =>
      if recursive ∧ l = [] then
        Task.complain "it is dangerous to operate recursively on '/'".toList
        Task.complain "use --no-preserve-root to override this failsafe".toList
        return false
      let occupied := !((← Task.disk).tree.below l).isEmpty
      if e = .directory ∧ !recursive then
        if !g.has 'd' then return ← cannot .isADirectory
        if occupied then return ← cannot .notEmpty
      if asking then
        let verb := if e = .directory ∧ occupied then "descend into " else "remove "
        Task.errors ((← Task.name) ++ ": ".toList ++ verb.toList ++ (kindWords e).toList ++ [' '] ++
          Quoting.always path ++ "? ".toList)
        return true
      eraseBelow (g.has 'v') path l e
      return true

def touch (args : List Bytes) : Task Nat := do
  let g ← parse { letters := "acd:fhmr:t:", long := [⟨"no-create", 'c', .none⟩, ⟨"date", 'd', .required⟩,
    ⟨"reference", 'r', .required⟩, ⟨"no-dereference", 'h', .none⟩, ⟨"time", 'T', .required⟩] } args
  if g.operands.isEmpty then misuse 1 "missing file operand".toList
  match g.value? 'r' with
  | some path => match ← stat path true with
    | .error cause => Task.fail 1 (Task.because ("failed to get attributes of ".toList ++
        Quoting.always path) cause)
    | .ok _ => pure ()
  | none => pure ()
  forAll g.operands fun path => do
    if path = ['-'] then return true
    match ← stat path true with
    | .ok _ => return true
    | .error cause =>
      let d ← Task.disk
      if g.has 'c' then
        if cause = .notFound then return true
        Task.complain (Task.because ("setting times of ".toList ++ Quoting.always path) cause)
        return false
      match ← (Host.openPath path { write := true, create := true } : StateM Host _) with
      | .ok _ => return true
      | .error cause =>
        let inFile := cause = .notADirectory ∧ path.getLast? = some '/' ∧
          d.isFile (Host.pathOf (Bytes.dropEndWhile (· == '/') path))
        Task.complain (Task.because ((if inFile then "setting times of " else "cannot touch ").toList ++
          Quoting.always path) cause)
        return false

end GrammarHeaders.Shell.Utility
