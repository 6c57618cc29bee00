import GrammarHeaders.Shell.Lookup
import GrammarHeaders.Shell.Utility.Lines

namespace GrammarHeaders.Shell.Utility

open Shell.Options

def runProgram (launch : Launch) (environment : List (Bytes × Bytes)) (argv : List Bytes) :
    Task (Except Cause Ending) := do
  match Image.locate (← Task.disk) environment true argv with
  | .error cause => return .error cause
  | .ok file => do
    let before ← get
    let start : Host := { before with
      process := { before.process with environment, name := argv.headD [] } }
    let (result, after) := match (launch file argv).run start with
      | (.error .notExecutable, _) =>
        (launch "/bin/sh".toList ("/bin/sh".toList :: file :: argv.tail)).run start
      | other => other
    set ({ before with world := after.world } : Host)
    return result

def ownEnvironment : Task (List (Bytes × Bytes)) := return (← get).process.environment

def putVariable (environment : List (Bytes × Bytes)) (name value : Bytes) : List (Bytes × Bytes) :=
  if environment.any fun e => e.1 == name then
    environment.map fun e => if e.1 == name then (name, value) else e
  else environment ++ [(name, value)]

def missingStatus (cause : Cause) : Nat := if cause = .notFound then 127 else 126

def endAs (ending : Ending) : Task Nat := do
  match ending with
  | .exit status => return status
  | .signal n => throw (.signal n)

def env (launch : Launch) (args : List Bytes) : Task Nat := do
  let g ← parse { letters := "iu:0vC:S:", status := 125, ordered := true, long :=
    [⟨"ignore-environment", 'i', .none⟩, ⟨"unset", 'u', .required⟩, ⟨"null", '0', .none⟩,
     ⟨"chdir", 'C', .required⟩, ⟨"split-string", 'S', .required⟩] } args
  let operands := if g.operands.head? = some ['-'] then g.operands.tail else g.operands
  let cleared := g.has 'i' || g.operands.head? = some ['-']
  let split := ((g.value? 'S').map fun t =>
    (Text.splitOn ' ' (t.map fun c => if c = '\t' then ' ' else c)).filter fun w => !w.isEmpty).getD []
  let operands := split ++ operands
  let unset := (g.options.filter fun o => o.1 == 'u').map Prod.snd
  let own ← ownEnvironment
  let start := if cleared then [] else own.filter fun e => !unset.contains e.1
  let assigned := operands.takeWhile fun t => t.contains '='
  let environment := assigned.foldl (fun environment t =>
    let name := t.takeWhile (· != '=')
    putVariable environment name (t.drop (name.length + 1))) start
  match operands.drop assigned.length with
  | [] =>
    let ending : Bytes := if g.has '0' then ['\x00'] else ['\n']
    Task.write (environment.flatMap fun (name, value) => name ++ '=' :: value ++ ending)
    return 0
  | name :: rest =>
    match g.value? 'C' with
    | some dir => match ← stat dir true with
      | .ok (l, .directory) =>
        modify fun h => { h with process := { h.process with cwd := l } }
      | .ok _ => Task.fail 125 (Task.because ("cannot change directory to ".toList ++ Quoting.always dir) .notADirectory)
      | .error cause => Task.fail 125 (Task.because ("cannot change directory to ".toList ++ Quoting.always dir) cause)
    | none => pure ()
    match ← runProgram launch environment (name :: rest) with
    | .ok ending => endAs ending
    | .error cause =>
      Task.complain (Task.because (Quoting.words name) cause)
      if cause = .notFound ∧ name.any Bytes.isSpace then
        Task.complain "use -[v]S to pass options in shebang lines".toList
      return missingStatus cause

def printenv (args : List Bytes) : Task Nat := do
  let g ← parse { letters := "0", status := 2, ordered := true, long := [⟨"null", '0', .none⟩] } args
  let environment ← ownEnvironment
  let ending : Bytes := if g.has '0' then ['\x00'] else ['\n']
  if g.operands.isEmpty then
    Task.write (environment.flatMap fun (name, value) => name ++ '=' :: value ++ ending)
    return 0
  forAll g.operands fun name => do
    match environment.lookup name with
    | some value =>
      Task.write (value ++ ending)
      return true
    | none => return false

def wrapped (launch : Launch) (spec : Spec) (taken : Nat) (args : List Bytes) : Task Nat := do
  let g ← parse { spec with ordered := true } args
  if g.operands.length ≤ taken then
    if taken = 0 then missingOperand spec.status else suggestHelp spec.status
  match ← runProgram launch (← ownEnvironment) (g.operands.drop taken) with
  | .ok ending => return ending.status
  | .error cause =>
    Task.complain (Task.because ("failed to run command ".toList ++
      Quoting.words ((g.operands.drop taken).headD [])) cause)
    return missingStatus cause

def timeout (launch : Launch) (args : List Bytes) : Task Nat :=
  wrapped launch { letters := "k:s:v", status := 125, long := [⟨"kill-after", 'k', .required⟩,
    ⟨"signal", 's', .required⟩, ⟨"preserve-status", 'p', .none⟩, ⟨"foreground", 'f', .none⟩] } 1 args

def nohup (launch : Launch) (args : List Bytes) : Task Nat := wrapped launch { status := 125 } 0 args

def nice (launch : Launch) (args : List Bytes) : Task Nat :=
  wrapped launch { letters := "n:", status := 125, long := [⟨"adjustment", 'n', .required⟩] } 0 args

def which (args : List Bytes) : Task Nat := do
  let g ← parse { letters := "as", status := 2 } args
  let path := ((← ownEnvironment).lookup "PATH".toList).getD []
  let d ← Task.disk
  if g.operands.isEmpty then return 1
  forAll g.operands fun name => do
    let candidates := if name.contains '/' then [name]
      else Lookup.candidates path name
    let found := candidates.filter fun p => match d.entryAt (Host.pathOf p) true with
      | .ok (_, .file _ true) => true
      | _ => false
    let shown := if g.has 'a' then found else found.take 1
    if !g.has 's' then Task.write (shown.flatMap fun p => p ++ ['\n'])
    return !found.isEmpty

namespace Arguments

def split : Nat → Bool → Bytes → Bytes → Except Bytes (List Bytes)
  | 0, _, _, _ => .ok []
  | n + 1, inWord, word, t =>
    match t with
    | [] => .ok (if inWord then [word.reverse] else [])
    | '\\' :: c :: rest => split n true (c :: word) rest
    | '\\' :: [] => .ok [word.reverse]
    | c :: rest =>
      if c = '\'' ∨ c = '"' then
        let body := rest.takeWhile fun d => d != c && d != '\n'
        match rest.drop body.length with
        | d :: after =>
          if d = c then split n true (body.reverse ++ word) after
          else .error (unmatched c)
        | [] => .error (unmatched c)
      else if Bytes.isSpace c then
        if inWord then do return word.reverse :: (← split n false [] rest) else split n false [] rest
      else split n true (c :: word) rest
where
  unmatched (c : Char) : Bytes :=
    "unmatched ".toList ++ (if c = '"' then "double" else "single").toList ++
      " quote; by default quotes are special to xargs unless you use the -0 option".toList

def chunks (size : Nat) : Nat → List Bytes → List (List Bytes)
  | 0, _ => []
  | n + 1, args => if args.isEmpty then [] else args.take size :: chunks size n (args.drop size)

def replaceMark (mark value : Bytes) : Nat → Bytes → Bytes
  | 0, t => t
  | _ + 1, [] => []
  | n + 1, c :: t =>
    if mark.isPrefixOf (c :: t) && !mark.isEmpty then
      value ++ replaceMark mark value n ((c :: t).drop mark.length)
    else c :: replaceMark mark value n t

end Arguments

open Arguments in
def xargs (launch : Launch) (args : List Bytes) : Task Nat := do
  let g ← parse { letters := "0a:d:E:eI:i::L:l::n:oP:prs:tx", ordered := true, long :=
    [⟨"null", '0', .none⟩, ⟨"arg-file", 'a', .required⟩, ⟨"delimiter", 'd', .required⟩,
     ⟨"max-args", 'n', .required⟩, ⟨"no-run-if-empty", 'r', .none⟩, ⟨"verbose", 't', .none⟩,
     ⟨"max-procs", 'P', .required⟩, ⟨"max-lines", 'L', .optional⟩, ⟨"replace", 'i', .optional⟩] } args
  let command := if g.operands.isEmpty then ["echo".toList] else g.operands
  let input ← match g.value? 'a' with
    | some path => Task.readOperand path
    | none => (Host.readAll 0 : StateM Host _)
  let text := match input with
    | .ok t => t
    | .error _ => []
  let delimiter : Option Char := if g.has '0' then some '\x00' else
    (g.value? 'd').map fun t => match t with
      | '\\' :: c :: _ => (Format.namedEscape? c).getD (if c = '0' then '\x00' else c)
      | t => t.headD ' '
  let mark : Option Bytes := match g.value? 'I' with
    | some m => some m
    | none => (g.value? 'i').map fun m => if m.isEmpty then ['{', '}'] else m
  let lines := (Bytes.lines text).map Bytes.chomp
  let words : List Bytes ← match delimiter, mark with
    | some c, _ =>
      let parts := Text.splitOn c text
      pure (if parts.getLast? = some [] then parts.dropLast else parts)
    | none, some _ => pure ((lines.map fun l => l.dropWhile Bytes.isSpace).filter fun l => !l.isEmpty)
    | none, none => match split (text.length + 2) false [] text with
      | .ok words => pure words
      | .error message => Task.fail 1 message
  let size := ((g.value? 'n').map Text.decimalValue).getD 0
  let perLine := ((g.value? 'L').map Text.decimalValue).getD 0
  let commands : List (List Bytes) ← match mark with
    | some m => pure (words.map fun w => command.map fun t => replaceMark m w (t.length + 1) t)
    | none =>
      let groups ← if size ≠ 0 then pure (chunks size (words.length + 1) words)
        else if perLine ≠ 0 then
          let filled := lines.filter fun l => l.any fun c => !Bytes.isSpace c
          let rows := chunks perLine (filled.length + 1) filled
          rows.mapM fun row => match split (row.flatten.length + row.length + 2) false []
              (Bytes.join ['\n'] row) with
            | .ok words => pure words
            | .error message => Task.fail 1 message
        else pure (if words.isEmpty then [] else [words])
      pure (if groups.isEmpty then (if g.has 'r' then [] else [command])
        else groups.map fun group => command ++ group)
  let mut status := 0
  let environment ← ownEnvironment
  -- What is run has no input.
  let null ← (Host.addFile { channel := .null } : StateM Host _)
  Host.setStream 0 null
  for argv in commands do
    if g.has 't' then Task.errors (Bytes.join [' '] (argv.map fun t =>
      if Quoting.needsQuotes [] t then Quoting.always t else t) ++ ['\n'])
    match ← runProgram launch environment argv with
    | .ok (.exit 0) => pure ()
    | .ok (.exit 255) =>
      Task.fail 124 ((argv.headD []) ++ ": exited with status 255; aborting".toList)
    | .ok (.exit _) => status := 123
    | .ok (.signal n) => Task.fail 125 ((argv.headD []) ++ ": terminated by signal ".toList ++ Bytes.ofNat n)
    | .error cause =>
      Task.fail (missingStatus cause) (Task.because (argv.headD []) cause)
  return status

end GrammarHeaders.Shell.Utility
