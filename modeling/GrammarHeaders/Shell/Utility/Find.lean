import GrammarHeaders.Shell.Regex
import GrammarHeaders.Shell.Utility.Running

namespace GrammarHeaders.Shell.Utility.Find

/-- A file that has been found. -/
structure Node where
  start : Bytes
  path : Bytes
  location : Location
  entry : Entry
  depth : Nat

/-- What a search has come to. -/
structure State where
  pruned : Bool := false
  quit : Bool := false
  status : Nat := 0
  batches : List (Nat × List Bytes) := []

abbrev Search := StateT State Task

abbrev Predicate := Node → Search Bool

/-- The settings that hold for the whole search. -/
structure Settings where
  least : Nat := 0
  most : Option Nat := none
  depthFirst : Bool := false
  follow : Bool := false
  acts : Bool := false
  nextBatch : Nat := 0
  commands : List (Nat × List Bytes) := []

structure Reading where
  rest : List Bytes
  settings : Settings := {}

abbrev Read := EStateM Bytes Reading

def next? : Read (Option Bytes) := do
  let s ← get
  match s.rest with
  | [] => return none
  | t :: rest =>
    set { s with rest }
    return some t

def argument (name : Bytes) : Read Bytes := do
  match ← next? with
  | some t => return t
  | none => throw ("missing argument to `".toList ++ name ++ ['\''])

def set_ (f : Settings → Settings) : Read Unit := modify fun s => { s with settings := f s.settings }

def fitsGlob (ignoreCase : Bool) (pattern t : Bytes) : Bool :=
  let lower (t : Bytes) : Bytes := if ignoreCase then t.map Char.toLower else t
  Pattern.fits (Pattern.ofGlyphs (Glyph.ofBytes false (lower pattern))) (lower t)

def kindOf : Entry → Char
  | .directory => 'd'
  | .file .. => 'f'
  | .link _ => 'l'
  | .device _ => 'c'

def sizeOf : Entry → Nat
  | .file content _ => content.bytes.length
  | .link target => target.utf8ByteSize
  | .directory => 4096
  | .device _ => 0

def bounded? (t : Bytes) : Option (Nat → Bool) :=
  match t with
  | '+' :: ds => if Bytes.isNumber ds then some fun n => decide (Text.decimalValue ds < n) else none
  | '-' :: ds => if Bytes.isNumber ds then some fun n => decide (n < Text.decimalValue ds) else none
  | ds => if Bytes.isNumber ds then some fun n => n == Text.decimalValue ds else none

def sizeTest? (t : Bytes) : Option (Nat → Bool) :=
  let (unit, t) : Nat × Bytes := match t.getLast? with
    | some 'c' => (1, t.dropLast)
    | some 'w' => (2, t.dropLast)
    | some 'b' => (512, t.dropLast)
    | some 'k' => (1024, t.dropLast)
    | some 'M' => (1048576, t.dropLast)
    | some 'G' => (1073741824, t.dropLast)
    | _ => (512, t)
  (bounded? t).map fun p n => p ((n + unit - 1) / unit)

def formatted (n : Node) : Nat → Bytes → Bytes
  | 0, _ => []
  | _ + 1, [] => []
  | k + 1, '\\' :: t =>
    let (c, rest) := Format.escape t
    c :: formatted n k rest
  | k + 1, '%' :: c :: t =>
    let value : Bytes := match c with
      | 'p' => n.path
      | 'f' => lastName n.path
      | 'h' =>
        let name := lastName n.path
        let front := n.path.take (n.path.length - name.length - 1)
        if n.path.contains '/' then front else ['.']
      | 'P' => (n.path.drop n.start.length).dropWhile (· == '/')
      | 'H' => n.start
      | 's' => Bytes.ofNat (sizeOf n.entry)
      | 'd' => Bytes.ofNat n.depth
      | 'y' => [kindOf n.entry]
      | 'l' => match n.entry with
        | .link target => Bytes.ofString target
        | _ => []
      | 'm' => match n.entry with
        | .file _ true | .directory => "755".toList
        | .link _ => "777".toList
        | _ => "644".toList
      | '%' => ['%']
      | c => ['%', c]
    value ++ formatted n k t
  | k + 1, c :: t => c :: formatted n k t

def commandWords (name : Bytes) : Nat → List Bytes → Read (List Bytes × Bool)
  | 0, _ => throw ("missing argument to `".toList ++ name ++ ['\''])
  | n + 1, done => do
    match ← next? with
    | none => throw ("missing argument to `".toList ++ name ++ ['\''])
    | some [';'] => return (done.reverse, false)
    | some ['+'] =>
      if done.head? = some ['{', '}'] then return (done.tail.reverse, true)
      commandWords name n (['+'] :: done)
    | some t => commandWords name n (t :: done)

def say (t : Bytes) : Search Unit := (Task.write t : Task Unit)

def fail (message : Bytes) : Search Unit := do
  (Task.complain message : Task Unit)
  modify fun s => { s with status := 1 }

def runFor (launch : Launch) (words : List Bytes) (inDir : Bool) (n : Node) : Search Bool := do
  let shown := if inDir then "./".toList ++ lastName n.path else n.path
  let argv := words.map fun t => Arguments.replaceMark ['{', '}'] shown (t.length + 1) t
  let before := (← (get : StateT State Task State))
  let cwd := (← (Task.disk : Task Disk)).cwd
  if inDir then (modify fun h => { h with process := { h.process with cwd := n.location.dropLast } } : Task Unit)
  let result ← (do runProgram launch (← ownEnvironment) argv : Task (Except Cause Ending))
  (modify fun h => { h with process := { h.process with cwd } } : Task Unit)
  set before
  match result with
  | .ok (.exit 0) => return true
  | .ok _ => return false
  | .error cause => do
    (Task.complain (Task.because (Quoting.always (argv.headD [])) cause) : Task Unit)
    return false

def delete (n : Node) : Search Bool := do
  let result ← (change fun d => match d.tree.get? n.location with
    | some .directory => if (d.tree.below n.location).isEmpty then .ok (d.erase n.location) else .error .notEmpty
    | some _ => .ok (d.erase n.location)
    | none => .error .notFound : Task (Except Cause Unit))
  match result with
  | .ok () => return true
  | .error cause => do
    fail (Task.because ("cannot delete ".toList ++ Quoting.always n.path) cause)
    return false

def primary (launch : Launch) (name : Bytes) : Read Predicate := do
  let pure_ (f : Node → Bool) : Read Predicate := return fun n => return f n
  let always : Read Predicate := return fun _ => return true
  let act (f : Node → Search Bool) : Read Predicate := do
    set_ fun s => { s with acts := true }
    return f
  let count (t : Bytes) : Read Nat := do
    if Bytes.isNumber t then return Text.decimalValue t
    throw ("Expected a positive decimal integer argument to ".toList ++ name ++ ", but got ".toList ++
      Quoting.words t)
  match String.ofList name with
  | "-name" => do
    let p ← argument name
    pure_ fun n => fitsGlob false p (lastName n.path)
  | "-iname" => do
    let p ← argument name
    pure_ fun n => fitsGlob true p (lastName n.path)
  | "-path" | "-wholename" => do
    let p ← argument name
    pure_ fun n => fitsGlob false p n.path
  | "-ipath" | "-iwholename" => do
    let p ← argument name
    pure_ fun n => fitsGlob true p n.path
  | "-regex" | "-iregex" => do
    let p ← argument name
    match Regex.ofText {} p with
    | .error message => throw message.toList
    | .ok r => pure_ fun n =>
        let subject : Regex.Subject := ⟨n.path.toArray, name == "-iregex".toList, false⟩
        ((r.matchAt? subject 0).map fun m => m.stop == subject.text.size).getD false
  | "-type" | "-xtype" => do
    let kinds ← argument name
    let letters := (Text.splitOn ',' kinds).flatten
    match letters.find? fun c => !"bcdpflsD".toList.contains c with
    | some c => throw ("Unknown argument to ".toList ++ name ++ ": ".toList ++ [c])
    | none => pure_ fun n => letters.contains (kindOf n.entry)
  | "-empty" => return fun n => do
      match n.entry with
      | .directory => return ((← (Task.disk : Task Disk)).tree.below n.location).isEmpty
      | .file content _ => return content.bytes.isEmpty
      | _ => return false
  | "-size" => do
    let t ← argument name
    match sizeTest? t with
    | some p => pure_ fun n => p (sizeOf n.entry)
    | none => throw ("Invalid argument `".toList ++ t ++ "' to -size".toList)
  | "-executable" => pure_ fun n => match n.entry with
      | .file _ executable => executable
      | _ => true
  | "-readable" | "-writable" => always
  | "-perm" => do
    let t ← argument name
    pure_ fun n => match n.entry with
      | .file _ executable => executable == (t.any fun c => c == '1' || c == '7' || c == '5' || c == 'x')
      | _ => true
  | "-newer" | "-user" | "-group" | "-mtime" | "-mmin" | "-ctime" | "-cmin" | "-atime" | "-amin" | "-links" => do
    let _ ← argument name
    always
  | "-maxdepth" => do
    let n ← count (← argument name)
    set_ fun s => { s with most := some n }
    always
  | "-mindepth" => do
    let n ← count (← argument name)
    set_ fun s => { s with least := n }
    always
  | "-depth" | "-d" => do
    set_ fun s => { s with depthFirst := true }
    always
  | "-follow" => do
    set_ fun s => { s with follow := true }
    always
  | "-mount" | "-xdev" | "-noleaf" | "-daystart" | "-true" | "-nowarn" | "-warn" => always
  | "-false" => pure_ fun _ => false
  | "-prune" => return fun _ => do
      modify fun s => { s with pruned := true }
      return true
  | "-quit" => act fun _ => do
      modify fun s => { s with quit := true }
      return true
  | "-print" => act fun n => do
      say (n.path ++ ['\n'])
      return true
  | "-print0" => act fun n => do
      say (n.path ++ ['\x00'])
      return true
  | "-printf" => do
    let format ← argument name
    act fun n => do
      say (formatted n (format.length + 1) format)
      return true
  | "-delete" => do
    set_ fun s => { s with depthFirst := true }
    act delete
  | "-exec" | "-execdir" | "-ok" | "-okdir" => do
    let (words, batch) ← commandWords name ((← get).rest.length + 1) []
    if batch then
      let number := (← get).settings.nextBatch
      set_ fun s => { s with
        nextBatch := number + 1, commands := (number, words) :: s.commands, acts := true }
      return fun n => do
        modify fun s =>
          let old := (s.batches.lookup number).getD []
          { s with batches := (number, old ++ [n.path]) :: s.batches.filter fun b => b.1 != number }
        return true
    else act (runFor launch words (name = "-execdir".toList))
  | _ =>
    if name.head? = some '-' then throw ("unknown predicate `".toList ++ name ++ ['\''])
    else throw ("paths must precede expression: `".toList ++ name ++ ['\''])

def peek? : Read (Option Bytes) := return (← get).rest.head?

def expression (launch : Launch) : Nat → Read Predicate
  | 0 => throw "expression too deep".toList
  | n + 1 => do
    let size := (← get).rest.length + 1
    let inner := expression launch n
    let rec simple : Nat → Read Predicate
      | 0 => throw "expected an expression".toList
      | k + 1 => do
        match ← next? with
        | none => throw "expected an expression".toList
        | some t =>
          if t = ['!'] ∨ t = "-not".toList then
            if (← peek?).isNone then throw ("expected an expression after `".toList ++ t ++ ['\''])
            let p ← simple k
            return fun n => return !(← p n)
          else if t = ['('] then
            let p ← inner
            match ← next? with
            | some [')'] => return p
            | _ => throw ("invalid expression; I was expecting to find a ')' somewhere but did not see one.").toList
          else if t = [')'] then
            throw ("invalid expression; expected to find a ')' but didn't see one. Perhaps you need an extra predicate after '('").toList
          else primary launch t
    let rec conjunction : Nat → Predicate → Read Predicate
      | 0, p => return p
      | k + 1, p => do
        match ← peek? with
        | none | some [')'] => return p
        | some t =>
          if t = ['-', 'o'] ∨ t = "-or".toList ∨ t = [','] then return p
          if t = ['-', 'a'] ∨ t = "-and".toList then
            let _ ← next?
          let q ← simple size
          conjunction k fun n => do if ← p n then q n else return false
    let rec alternatives : Nat → Predicate → Read Predicate
      | 0, p => return p
      | k + 1, p => do
        match ← peek? with
        | none | some [')'] => return p
        | some t =>
          let _ ← next?
          if (← peek?).isNone then throw ("expected an expression after `".toList ++ t ++ ['\''])
          let q ← conjunction size (← simple size)
          if t = [','] then
            alternatives k fun n => do
              let _ ← p n
              q n
          else alternatives k fun n => do if ← p n then return true else q n
    alternatives size (← conjunction size (← simple size))

def visit (s : Settings) (p : Predicate) : Nat → Node → Search Unit
  | 0, _ => return
  | fuel + 1, n => do
    if (← get).quit then return
    let wanted := decide (s.least ≤ n.depth)
    let test : Search Unit := do
      if wanted then
        let _ ← p n
    modify fun st => { st with pruned := false }
    if !s.depthFirst then test
    let descend := n.entry == .directory && (s.depthFirst || !(← get).pruned) &&
      (s.most.map fun m => decide (n.depth < m)).getD true
    if descend && !(← get).quit then
      let d ← (Task.disk : Task Disk)
      if (d.tree.get? n.location).isNone then
        Find.fail (Task.because (Quoting.always n.path) .notFound)
      for name in namesIn d n.location do
        let l := n.location ++ [name.toString]
        match (← (Task.disk : Task Disk)).tree.get? l with
        | some e =>
          let (l, e) : Location × Entry := match s.follow, e with
            | true, .link _ => match d.entryAt ⟨"/" ++ "/".intercalate l⟩ true with
              | .ok found => found
              | .error _ => (l, e)
            | _, e => (l, e)
          visit s p fuel ⟨n.start, under n.path name, l, e, n.depth + 1⟩
        | none => pure ()
    if s.depthFirst && !(← get).quit then test

end Find

open Find in
def find (launch : Launch) (args : List Bytes) : Task Nat := do
  let options := args.takeWhile fun t => t = ['-', 'H'] ∨ t = ['-', 'L'] ∨ t = ['-', 'P']
  let args := args.drop options.length
  let isExpression (t : Bytes) : Bool := match t with
    | '-' :: _ :: _ => true
    | ['('] | ['!'] | [')'] | [','] => true
    | _ => false
  let starts := args.takeWhile fun t => !isExpression t
  let rest := args.drop starts.length
  let follow := options.getLast? = some ['-', 'L']
  let read : Read Predicate :=
    if rest.isEmpty then return fun _ => return true
    else do
      let p ← expression launch (rest.length + 1)
      match (← get).rest with
      | [] => return p
      | _ => throw "you have too many ')'".toList
  match read.run { rest, settings := { follow } } with
  | .error message _ => Task.fail 1 message
  | .ok p r =>
    let settings := r.settings
    let p : Predicate := if settings.acts then p else fun n => do
      if ← p n then
        say (n.path ++ ['\n'])
        return true
      return false
    let search : Search Unit := do
      for start in (if starts.isEmpty then [['.']] else starts) do
        match ← (stat start (settings.follow || start.getLast? = some '/') : Task _) with
        | .error cause => Find.fail (Task.because (Quoting.always start) cause)
        | .ok (l, e) => visit settings p 200 ⟨start, start, l, e, 0⟩
      for (number, words) in settings.commands.reverse do
        match (← get).batches.lookup number with
        | some paths =>
          let result ← (do runProgram launch (← ownEnvironment) (words ++ paths) : Task (Except Cause Ending))
          match result with
          | .ok (.exit 0) => pure ()
          | .ok _ => modify fun s => { s with status := 1 }
          | .error cause => Find.fail (Task.because (Quoting.always (words.headD [])) cause)
        | none => pure ()
    let ((), after) ← search.run {}
    return after.status

end GrammarHeaders.Shell.Utility
