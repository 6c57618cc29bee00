import GrammarHeaders.Shell.Builtin.Settings

namespace GrammarHeaders.Shell.Builtin

def locationPath (l : Location) : Bytes := Bytes.ofString ("/" ++ "/".intercalate l)

def tidy (path : Bytes) : Bytes :=
  let parts := (Text.splitOn '/' path).filter fun p => !p.isEmpty && p != ['.']
  let kept := parts.foldl (fun (kept : List Bytes) p =>
    if p = ['.', '.'] then kept.drop 1 else p :: kept) []
  '/' :: Bytes.join ['/'] kept.reverse

def currentDir : Run Bytes := do
  let s ← get
  return s.logicalDir.getD (locationPath s.host.process.cwd)

def enter (physical : Bool) (path : Bytes) : Run Bool := do
  let d ← Run.disk
  let here ← currentDir
  let full := if path.head? = some '/' then path else here ++ '/' :: path
  let target := if physical then full else tidy full
  let target := if d.isDir (Host.pathOf target) then target else full
  match d.entryAt (Host.pathOf target) true with
  | .ok (l, .directory) => do
    modify fun s => { s with
      host := { s.host with process := { s.host.process with cwd := l } }
      logicalDir := some (if physical then locationPath l else tidy full) }
    Run.assign "OLDPWD".toList here
    Run.exportVariable "OLDPWD".toList
    Run.assign "PWD".toList (← currentDir)
    Run.exportVariable "PWD".toList
    return true
  | _ => return false

def cd (args : List Bytes) : Run Nat := do
  let (options, operands) ← letters ['L', 'P'] args
  let physical := options.getLast? == some 'P'
  let go (target : Bytes) (loud : Bool) : Run Nat := do
    let dirs := match ← Run.value? "CDPATH".toList with
      | some t =>
        if target.head? = some '/' ∨ target = ['.'] ∨ target = ['.', '.'] ∨
          "./".toList.isPrefixOf target ∨ "../".toList.isPrefixOf target then [[]]
        else Text.splitOn ':' t ++ [[]]
      | none => [[]]
    for dir in dirs do
      let path := if dir.isEmpty then target else dir ++ '/' :: target
      if ← enter physical (if path.isEmpty then ['.'] else path) then
        if loud || !dir.isEmpty then return ← print ((← currentDir) ++ ['\n'])
        return 0
    Run.fault ("can't cd to ".toList ++ target)
  match operands with
  | [] => match ← Run.value? "HOME".toList with
    | some home => if home.isEmpty then return 0 else go home false
    | none => return 0
  | ['-'] :: _ => go ((← Run.value? "OLDPWD".toList).getD []) true
  | target :: _ => go target false

def pwd (args : List Bytes) : Run Nat := do
  let (options, _) ← letters ['L', 'P'] args
  if options.getLast? == some 'P' then print (locationPath (← get).host.process.cwd ++ ['\n'])
  else print ((← currentDir) ++ ['\n'])

end GrammarHeaders.Shell.Builtin
