import GrammarHeaders.Shell.Utility.Directory

namespace GrammarHeaders.Shell.Utility

open Shell.Options

/-- Where things go: each source with its target. -/
structure Transfer where
  source : Bytes
  target : Bytes

/-- The sources and targets of the operands: several sources, or one and a directory, go into the
directory under their own names. -/
def transfers (g : Given) : Task (List Transfer) := do
  let into (dir : Bytes) (sources : List Bytes) : List Transfer := sources.map fun source =>
    let name := lastName source
    ⟨source, if name = ['.', '.'] then dir else under dir name⟩
  let checkDir (dir : Bytes) : Task Unit := do
    match ← stat dir true with
    | .ok (_, .directory) => pure ()
    | .ok _ => Task.fail 1 (Task.because ("target ".toList ++ Quoting.always dir) .notADirectory)
    | .error cause => Task.fail 1 (Task.because ("target ".toList ++ Quoting.always dir) cause)
  if g.operands.isEmpty then misuse 1 "missing file operand".toList
  match g.value? 't' with
  | some dir =>
    checkDir dir
    return into dir g.operands
  | none => match g.operands with
    | [] => misuse 1 "missing file operand".toList
    | [source] =>
      misuse 1 ("missing destination file operand after ".toList ++ Quoting.always source)
    | [source, target] =>
      if g.has 'T' then return [⟨source, target⟩]
      match ← stat target true with
      | .ok (_, .directory) => return into target [source]
      | .error .notADirectory =>
        if target.getLast? = some '/' then
          Task.fail 1 (Task.because ("cannot stat ".toList ++ Quoting.always target) .notADirectory)
        return [⟨source, target⟩]
      | _ => return [⟨source, target⟩]
    | _ :: _ :: extra :: _ =>
      if g.has 'T' then extraOperand 1 extra
      let dir := g.operands.getLastD []
      checkDir dir
      return into dir g.operands.dropLast

def complainOf (words : String) (path : Bytes) (cause : Cause) : Task Bool := do
  Task.complain (Task.because (words.toList ++ Quoting.always path) cause)
  return false

def overwrites (a b : Bytes) (words middle : String) : Task Bool := do
  Task.complain (words.toList ++ Quoting.always a ++ middle.toList ++ Quoting.always b)
  return false

/-- How copies are made. -/
structure CopyStyle where
  recursive : Bool
  follow : Bool
  verbose : Bool
  spare : Bool
  keepMode : Bool
  asLink : Bool
  asking : Bool

def putEntry (path : Bytes) (e : Entry) : Task (Except Cause Unit) :=
  change fun d => match d.resolve (Host.pathOf path).text false with
    | .error cause => .error cause
    | .ok (.free l) => .ok { d with tree := d.tree.put l e }
    | .ok (.taken l _) => .ok { d with tree := d.tree.put l e }

def copyFile (s : CopyStyle) (target : Bytes) (content : Content) (executable : Bool) : Task Bool := do
  let d ← Task.disk
  let text := (Host.pathOf target).text
  match d.resolve text true with
  | .error cause =>
    let cause := if cause = .notFound ∧ target.getLast? = some '/' then .notADirectory else cause
    complainOf "cannot create regular file " target cause
  | .ok (.free l) => match d.resolve text false with
    | .ok (.taken _ (.link _)) => do
      Task.complain ("not writing through dangling symlink ".toList ++ Quoting.always target)
      return false
    | _ => do
      Host.setDisk { d with tree := d.tree.set l (.file content executable) }
      return true
  | .ok (.taken l (.file _ old)) => do
    Host.setDisk { d with tree := d.tree.set l (.file content (if s.keepMode then executable else old)) }
    return true
  | .ok (.taken _ (.device _)) => return true
  | .ok (.taken ..) => complainOf "cannot create regular file " target .isADirectory

def copyTree (s : CopyStyle) : Nat → Bool → Bytes → Bytes → Task Bool
  | 0, _, _, _ => return false
  | n + 1, top, source, target => do
    match ← stat source (s.follow || (!s.recursive && top)) with
    | .error cause => complainOf "cannot stat " source cause
    | .ok (l, e) =>
      if e = .directory ∧ !s.recursive then
        Task.complain ("-r not specified; omitting directory ".toList ++ Quoting.always source)
        return false
      let there ← stat target true
      match there with
      | .ok (k, old) =>
        if k = l ∧ e ≠ .directory then
          Task.complain (Quoting.always source ++ " and ".toList ++ Quoting.always target ++
            " are the same file".toList)
          return false
        if old = .directory ∧ e ≠ .directory then
          Task.complain ("cannot overwrite directory ".toList ++ Quoting.always target ++
            " with non-directory".toList)
          return false
        if old ≠ .directory ∧ e = .directory then
          return ← overwrites target source "cannot overwrite non-directory " " with directory "
        if s.spare ∧ e ≠ .directory then return true
        if s.asking ∧ e ≠ .directory then
          Task.errors ((← Task.name) ++ ": overwrite ".toList ++ Quoting.always target ++ "? ".toList)
          return false
      | .error _ => pure ()
      let tell : Task Unit := if s.verbose then
        Task.writeLine (Quoting.always source ++ " -> ".toList ++ Quoting.always target) else pure ()
      match e with
      | .directory => do
        let d ← Task.disk
        let names := namesIn d l
        let exists_ := there.isOk
        match ← (if exists_ then pure (.ok ()) else change fun d => d.makeDir (Host.pathOf target)) with
        | .error cause => complainOf "cannot create directory " target cause
        | .ok () =>
          if !exists_ then tell
          let made := match (← Task.disk).entryAt (Host.pathOf target) true with
            | .ok (k, _) => k
            | .error _ => []
          let mut good := true
          if l.isPrefixOf made then
            Task.complain ("cannot copy a directory, ".toList ++ Quoting.always source ++
              ", into itself, ".toList ++ Quoting.always target)
            return false
          for name in names do
            if !(← copyTree s n false (under source name) (under target name)) then good := false
          return good
      | .link goal => do
        match ← putEntry target (.link goal) with
        | .error cause => complainOf "cannot create symbolic link " target cause
        | .ok () =>
          tell
          return true
      | .file content executable =>
        if s.asLink then
          match ← putEntry target (.link source.toString) with
          | .error cause => complainOf "cannot create symbolic link " target cause
          | .ok () => return true
        else
          let good ← copyFile s target content executable
          if good then tell
          return good
      | .device _ =>
        let good ← copyFile s target (.text []) false
        if good then tell
        return good

def depthLimit : Nat := 200

def cp (args : List Bytes) : Task Nat := do
  let g ← parse { letters := "abdfHilLnprsRPt:TuvxS:Z", long := [⟨"archive", 'a', .none⟩,
    ⟨"recursive", 'r', .none⟩, ⟨"force", 'f', .none⟩, ⟨"interactive", 'i', .none⟩, ⟨"link", 'l', .none⟩,
    ⟨"dereference", 'L', .none⟩, ⟨"no-clobber", 'n', .none⟩, ⟨"no-dereference", 'P', .none⟩,
    ⟨"preserve", 'p', .optional⟩, ⟨"parents", '^', .none⟩, ⟨"symbolic-link", 's', .none⟩,
    ⟨"target-directory", 't', .required⟩, ⟨"no-target-directory", 'T', .none⟩,
    ⟨"update", 'u', .optional⟩, ⟨"verbose", 'v', .none⟩] } args
  let recursive := g.has 'r' || g.has 'R' || g.has 'a'
  if g.has 'n' then
    Task.complain ("warning: behavior of -n is non-portable and may change in future; " ++
      "use --update=none instead").toList
  let style : CopyStyle := {
    recursive, follow := g.last? ['L', 'P', 'd', 'a'] == some 'L', verbose := g.has 'v'
    spare := g.last? ['n', 'f', 'i'] == some 'n' || g.value? 'u' == some "none".toList
    keepMode := g.has 'p' || g.has 'a', asLink := g.has 's'
    asking := g.last? ['n', 'i'] == some 'i' }
  let all ← transfers g
  let mut status := 0
  let mut seen : List Bytes := []
  for t in all do
    if seen.contains t.source then
      Task.complain ("warning: source file ".toList ++ Quoting.always t.source ++
        " specified more than once".toList)
    else
      seen := t.source :: seen
      let top := !(g.has 'P' || g.has 'd')
      if !(← copyTree style depthLimit top t.source t.target) then status := 1
  return status

def rename (old new : Location) : Task Unit := do
  let moved (l : Location) : Location := if old.isPrefixOf l then new ++ l.drop old.length else l
  modify fun h =>
    let t := h.world.tree.erase new
    { h with
      world := { h.world with
        tree := .ofEntries (t.entries.map fun (l, e) => (moved l, e))
        files := h.world.files.map fun f => match f.channel with
          | .file l => { f with channel := .file (moved l) }
          | _ => f }
      process := { h.process with cwd := moved h.process.cwd } }

def moveTo (g : Given) (source target : Bytes) : Task Bool := do
  match ← stat source false with
  | .error cause => complainOf "cannot stat " source cause
  | .ok (l, e) =>
    let d ← Task.disk
    let cannot (cause : Cause) : Task Bool := do
      Task.complain (Task.because ("cannot move ".toList ++ Quoting.always source ++ " to ".toList ++
        Quoting.always target) cause)
      return false
    let tell : Task Unit := if g.has 'v' then
      Task.writeLine ("renamed ".toList ++ Quoting.always source ++ " -> ".toList ++ Quoting.always target)
      else pure ()
    let intoItself (k : Location) : Bool := e == .directory && l.isPrefixOf k
    let refuse : Task Bool :=
      overwrites source target "cannot move " " to a subdirectory of itself, "
    let wanted := if e = .directory then Bytes.dropEndWhile (· == '/') target else target
    match d.resolve (Host.pathOf wanted).text false with
    | .error cause =>
      let cause := if cause = .notFound ∧ target.getLast? = some '/' then .notADirectory else cause
      cannot cause
    | .ok (.free k) =>
      if intoItself k then refuse
      else
        rename l k
        tell
        return true
    | .ok (.taken k old) =>
      if k = l then
        Task.complain (Quoting.always source ++ " and ".toList ++ Quoting.always target ++
          " are the same file".toList)
        return false
      if intoItself k then return ← refuse
      if g.last? ['n', 'f', 'i'] == some 'n' then
        Task.complain ("not replacing ".toList ++ Quoting.always target)
        return false
      if g.last? ['n', 'f', 'i'] == some 'i' then
        Task.errors ((← Task.name) ++ ": overwrite ".toList ++ Quoting.always target ++ "? ".toList)
        return false
      if old = .directory ∧ e ≠ .directory then
        Task.complain ("cannot overwrite directory ".toList ++ Quoting.always target ++
          " with non-directory".toList)
        return false
      if old ≠ .directory ∧ e = .directory then
        return ← overwrites target source "cannot overwrite non-directory " " with directory "
      if old = .directory ∧ !(d.tree.below k).isEmpty then
        return ← complainOf "cannot overwrite " target .notEmpty
      rename l k
      tell
      return true

def mv (args : List Bytes) : Task Nat := do
  let g ← parse { letters := "bfint:uvS:TZ", long := [⟨"force", 'f', .none⟩, ⟨"interactive", 'i', .none⟩,
    ⟨"no-clobber", 'n', .none⟩, ⟨"target-directory", 't', .required⟩,
    ⟨"no-target-directory", 'T', .none⟩, ⟨"update", 'u', .optional⟩, ⟨"verbose", 'v', .none⟩] } args
  let all ← transfers g
  let mut status := 0
  for t in all do
    if !(← moveTo g t.source t.target) then status := 1
  return status

def relative (dir l : Location) : Bytes :=
  let rec skip : Location → Location → Location × Location
    | a :: s, b :: t => if a = b then skip s t else (a :: s, b :: t)
    | s, t => (s, t)
  let (up, down) := skip dir l
  let names := up.map (fun _ => "..") ++ down
  if names.isEmpty then ['.'] else Bytes.ofString ("/".intercalate names)

def lnOne (g : Given) (source target : Bytes) : Task Bool := do
  let symbolic := g.has 's'
  let words := if symbolic then "failed to create symbolic link " else "failed to create hard link "
  let d ← Task.disk
  let entry : Except Bool Entry ← if symbolic then pure (.ok (.link source.toString)) else do
    match ← stat source (g.has 'L') with
    | .error cause => do
      let _ ← complainOf "failed to access " source cause
      pure (.error false)
    | .ok (_, .directory) => do
      Task.complain (Quoting.ifNeeded source ++ ": hard link not allowed for directory".toList)
      pure (.error false)
    | .ok (_, e) => pure (.ok e)
  match entry with
  | .error bad => return bad
  | .ok e =>
    let e : Entry := if symbolic && g.has 'r' then
        match d.resolve (Host.pathOf source).text true, d.entryAt (Host.pathOf (dirPart target)) true with
        | .ok (.taken l _), .ok (dir, _) | .ok (.free l), .ok (dir, _) => .link (relative dir l).toString
        | _, _ => e
      else e
    let shown := if symbolic && source.isEmpty then
        Quoting.always target ++ " -> ''".toList else Quoting.always target
    let cannot (cause : Cause) : Task Bool := do
      Task.complain (Task.because (words.toList ++ shown) cause)
      return false
    let finish : Task Bool := do
      if g.has 'v' then
        Task.writeLine (Quoting.always target ++ (if symbolic then " -> " else " => ").toList ++
          Quoting.always source)
      return true
    match d.resolve (Host.pathOf (Bytes.dropEndWhile (· == '/') target)).text false with
    | .error cause => cannot cause
    | .ok (.free l) =>
      if symbolic && source.isEmpty then return ← cannot .notFound
      Host.setDisk { d with tree := d.tree.put l e }
      finish
    | .ok (.taken l old) =>
      if !g.has 'f' then return ← cannot .alreadyExists
      let same := match d.entryAt (Host.pathOf source) false with
        | .ok (k, _) => k == l
        | .error _ => false
      if same then
        Task.complain (Quoting.always source ++ " and ".toList ++ Quoting.always target ++
          " are the same file".toList)
        return false
      if old = .directory then
        Task.complain (Quoting.always target ++ ": cannot overwrite directory".toList)
        return false
      Host.setDisk { d with tree := d.tree.put l e }
      finish

def ln (args : List Bytes) : Task Nat := do
  let g ← parse { letters := "bdfFiLnPrsS:t:Tv", long := [⟨"symbolic", 's', .none⟩, ⟨"force", 'f', .none⟩,
    ⟨"no-dereference", 'n', .none⟩, ⟨"relative", 'r', .none⟩, ⟨"verbose", 'v', .none⟩,
    ⟨"target-directory", 't', .required⟩, ⟨"no-target-directory", 'T', .none⟩] } args
  match g.operands with
  | [] => misuse 1 "missing file operand".toList
  | [source] =>
    if (g.value? 't').isNone then
      return if ← lnOne g source (under ['.'] (lastName source)) then 0 else 1
  | [source, target] =>
    if (g.value? 't').isNone then
      let isLink := match ← stat target false with
        | .ok (_, .link _) => true
        | _ => false
      if g.has 'T' || !(← isDir target) || (g.has 'n' && isLink) then
        return if ← lnOne g source target then 0 else 1
  | _ => pure ()
  let mut status := 0
  for t in ← transfers g do
    if !(← lnOne g t.source t.target) then status := 1
  return status

def canonical? (d : Disk) (path : Bytes) (complete : Bool) : Except Cause Location :=
  match d.resolve (Host.pathOf path).text true with
  | .ok (.taken l _) => .ok l
  | .ok (.free l) => if complete then .error .notFound else .ok l
  | .error cause => .error cause

def wouldBe (d : Disk) (path : Bytes) : Location :=
  let names := Disk.steps (Host.pathOf path).text
  names.foldl (fun l name =>
    if name = "." then l
    else if name = ".." then l.dropLast
    else match d.entryAt ⟨"/" ++ "/".intercalate (l ++ [name])⟩ true with
      | .ok (k, _) => k
      | .error _ => l ++ [name]) (Disk.startOf d.cwd (Host.pathOf path).text)

def readlink (args : List Bytes) : Task Nat := do
  let g ← parse { letters := "efmnqsvz", long := [⟨"canonicalize", 'f', .none⟩,
    ⟨"canonicalize-existing", 'e', .none⟩, ⟨"canonicalize-missing", 'm', .none⟩,
    ⟨"no-newline", 'n', .none⟩, ⟨"quiet", 'q', .none⟩, ⟨"silent", 's', .none⟩, ⟨"verbose", 'v', .none⟩,
    ⟨"zero", 'z', .none⟩] } args
  if g.operands.isEmpty then missingOperand 1
  let ending : Bytes := if g.has 'z' then ['\x00']
    else if g.has 'n' && g.operands.length == 1 then [] else ['\n']
  forAll g.operands fun path => do
    let d ← Task.disk
    let found : Except Cause Bytes := match g.last? ['f', 'e', 'm'] with
      | some 'f' => (canonical? d path false).map locationPath
      | some 'e' => (canonical? d path true).map locationPath
      | some _ => .ok (locationPath (wouldBe d path))
      | none => match d.entryAt (Host.pathOf path) false with
        | .ok (_, .link target) => .ok (Bytes.ofString target)
        | .ok _ => .error (.numbered 22)
        | .error cause => .error cause
    match found with
    | .ok t =>
      Task.write (t ++ ending)
      return true
    | .error cause =>
      if g.has 'v' then Task.complain (Task.because (Quoting.ifNeeded path) cause)
      return false

def realpath (args : List Bytes) : Task Nat := do
  let g ← parse { letters := "eEmLPqsz", long := [⟨"canonicalize-existing", 'e', .none⟩,
    ⟨"canonicalize-missing", 'm', .none⟩, ⟨"quiet", 'q', .none⟩, ⟨"strip", 's', .none⟩,
    ⟨"no-symlinks", 's', .none⟩, ⟨"zero", 'z', .none⟩, ⟨"relative-to", 'R', .required⟩,
    ⟨"relative-base", 'B', .required⟩] } args
  if g.operands.isEmpty then missingOperand 1
  let ending : Bytes := if g.has 'z' then ['\x00'] else ['\n']
  let d ← Task.disk
  let find (path : Bytes) : Except Cause Location :=
    if path.isEmpty then .error .notFound
    else if g.has 's' then
      .ok ((Disk.steps (Host.pathOf path).text).foldl (fun l name =>
        if name = "." then l else if name = ".." then l.dropLast else l ++ [name])
        (Disk.startOf d.cwd (Host.pathOf path).text))
    else if g.has 'm' then .ok (wouldBe d path) else canonical? d path (g.has 'e')
  forAll g.operands fun path => do
    match find path with
    | .ok l =>
      let shown := match (g.value? 'R').map find with
        | some (.ok dir) => relative dir l
        | _ => locationPath l
      Task.write (shown ++ ending)
      return true
    | .error cause =>
      if !g.has 'q' then Task.complain (Task.because (Quoting.ifNeeded path) cause)
      return false

def install (args : List Bytes) : Task Nat := do
  let g ← parse { letters := "bcCdDg:m:o:psS:t:TvZ", long := [⟨"directory", 'd', .none⟩,
    ⟨"mode", 'm', .required⟩, ⟨"target-directory", 't', .required⟩,
    ⟨"no-target-directory", 'T', .none⟩, ⟨"verbose", 'v', .none⟩] } args
  if g.has 'd' then
    if g.operands.isEmpty then misuse 1 "missing file operand".toList
    return ← forAll g.operands (makeParents false)
  if g.has 'D' then
    match g.operands with
    | [_, target] => if (g.value? 't').isNone then
        let _ ← makeParents false (dirPart target)
    | _ => pure ()
  let executable := match g.value? 'm' with
    | some mode => executableAfter mode false
    | none => true
  let mut status := 0
  for t in ← transfers g do
    match ← stat t.source true with
    | .error cause =>
      let _ ← complainOf "cannot stat " t.source cause
      status := 1
    | .ok (_, .file content _) =>
      let style : CopyStyle := ⟨false, true, false, false, true, false, false⟩
      if !(← copyFile style t.target content executable) then status := 1
      else if g.has 'v' then
        Task.writeLine (Quoting.always t.source ++ " -> ".toList ++ Quoting.always t.target)
    | .ok _ =>
      Task.complain ("omitting directory ".toList ++ Quoting.always t.source)
      status := 1
  return status

end GrammarHeaders.Shell.Utility
