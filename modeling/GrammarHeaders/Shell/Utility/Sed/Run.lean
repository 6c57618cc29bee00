import GrammarHeaders.Shell.Utility.Lines
import GrammarHeaders.Shell.Utility.Sed.Script

namespace GrammarHeaders.Shell.Sed

/-- A line of the input. -/
structure Line where
  text : Bytes
  ended : Bool := true

/-- What is added behind a line. -/
inductive Queued where
  | text (t : Bytes)
  | file (path : Bytes)

/-- Where a range of lines stands. -/
inductive Range where
  | until (line : Nat)
  | untilFits
  | over
  deriving DecidableEq, Repr

structure State where
  script : Script
  quiet : Bool
  ahead : List Line := []
  more : Bool := false
  number : Nat := 0
  file : Bytes := []
  space : Bytes := []
  ended : Bool := true
  hold : Bytes := []
  replaced : Bool := false
  queue : List Queued := []
  ranges : List (Nat × Range) := []
  lastUsed : Option Pattern := none
  output : List Bytes := []
  owed : Bool := false
  quit : Option Nat := none
  again : Bool := false
  separator : Char := '\n'

abbrev Edit := StateT State Task

def emitRaw (t : Bytes) : Edit Unit := modify fun s => { s with
  output := t :: (if s.owed && !t.isEmpty then ['\n'] :: s.output else s.output)
  owed := s.owed && t.isEmpty }

def printLine (t : Bytes) (ended : Bool) : Edit Unit := do
  emitRaw t
  let s ← get
  if ended then
    modify fun s => { s with output := [s.separator] :: (if s.owed then ['\n'] :: s.output else s.output), owed := false }
  else set { s with owed := true }

def printSpace : Edit Unit := do
  let s ← get
  printLine s.space s.ended

def flushQueue : Edit Unit := do
  let queue := (← get).queue
  modify fun s => { s with queue := [] }
  for q in queue do
    match q with
    | .text t => emitRaw t
    | .file path => match ← (Task.readOperand path : Task _) with
      | .ok t => emitRaw t
      | .error _ => pure ()

def isLast : Edit Bool := return (← get).ahead.isEmpty && !(← get).more

def advance (join : Bool) : Edit Bool := do
  let s ← get
  match s.ahead with
  | [] => return false
  | line :: rest =>
    flushQueue
    modify fun s => { s with
      ahead := rest, number := s.number + 1, ended := line.ended
      space := if join then s.space ++ '\n' :: line.text else line.text }
    return true

def prepared (p : Pattern) : Edit (Regex × Regex.Subject) := do
  let s ← get
  let subject (p : Pattern) : Regex.Subject := ⟨s.space.toArray, p.ignoreCase, p.multiline⟩
  match p.regex with
  | some r => do
    modify fun s => { s with lastUsed := some p }
    return (r, subject p)
  | none => match s.lastUsed with
    | some q => return (q.regex.getD .empty, subject q)
    | none => do
      Task.complain "-e expression #1, char 0: no previous regular expression".toList
      Task.end_ 1

def fits (p : Pattern) : Edit Bool := do
  let (r, subject) ← prepared p
  return (r.find? subject 0).isSome

def matches_ (a : Address) : Edit Bool := do
  let s ← get
  match a with
  | .line n => return s.number == n
  | .last => isLast
  | .fits p => fits p
  | .stepped first step => return decide (first ≤ s.number) && (s.number - first) % step == 0

def setRange (place : Nat) (r : Option Range) : Edit Unit := modify fun s =>
  let others := s.ranges.filter fun e => e.1 != place
  { s with ranges := match r with
    | some r => (place, r) :: others
    | none => others }

def startRange (place : Nat) (stop : Stop) : Edit Unit := do
  let n := (← get).number
  match stop with
  | .line k => setRange place (if n < k then some (.until k) else none)
  | .last => setRange place (if ← isLast then none else some (.until 0))
  | .fits _ => setRange place (some .untilFits)
  | .more k => setRange place (if k = 0 then none else some (.until (n + k)))
  | .multiple k =>
    let stop := if k = 0 then n else ((n + k - 1) / k) * k
    setRange place (if n < stop then some (.until stop) else none)

def inRange (place : Nat) (first : Address) (stop : Stop) : Edit Bool := do
  let s ← get
  let start : Edit Bool := do
    if ← matches_ first then
      startRange place stop
      return true
    return false
  match s.ranges.lookup place with
  | none => match first, stop with
    | .line 0, .fits p =>
      -- The first line may already be the last of the range.
      if s.number = 1 then
        if ← fits p then setRange place (some .over) else setRange place (some .untilFits)
        return true
      return false
    | _, _ => start
  | some .over => return false
  | some (.until 0) => do
    if ← isLast then setRange place none
    return true
  | some (.until k) =>
    if s.number < k then return true
    setRange place none
    if s.number = k then return true
    start
  | some .untilFits => match stop with
    | .fits p => do
      if ← fits p then
        setRange place (match first with
          | .line 0 => some .over
          | _ => none)
      return true
    | _ => return true

def selected (place : Nat) (i : Instruction) : Edit Bool := do
  let hit ← match i.first, i.second with
    | none, _ => pure true
    | some a, none => matches_ a
    | some a, some stop => inRange place a stop
  return hit != i.negated

/-- The case that is on: until further notice, and for the next character. -/
structure Case where
  all : Option Char := none
  one : Option Char := none

def applyCase (k : Case) (t : Bytes) : Bytes × Case :=
  match t with
  | [] => ([], k)
  | c :: rest =>
    let whole (c : Char) : Char := match k.all with
      | some 'U' => c.toUpper
      | some 'L' => c.toLower
      | _ => c
    let first := match k.one with
      | some 'u' => c.toUpper
      | some 'l' => c.toLower
      | _ => whole c
    (first :: rest.map whole, { k with one := none })

def expand (subject : Regex.Subject) (m : Regex.Match) (ps : List Piece) : Bytes :=
  let step (state : Bytes × Case) (p : Piece) : Bytes × Case :=
    let (done, k) := state
    let add (t : Bytes) : Bytes × Case :=
      let (t, k) := applyCase k t
      (done ++ t, k)
    match p with
    | .text t => add t
    | .group n => add (m.text subject n)
    | .case 'E' => (done, {})
    | .case c => (done, if c = 'U' ∨ c = 'L' then { all := some c } else { k with one := some c })
  (ps.foldl step (([] : Bytes), ({} : Case))).1

/-- Replace matches from a place on; `count` is the number of the next one. The answer is the new
text, and whether anything was replaced. -/
def replaceFrom (r : Regex) (subject : Regex.Subject) (sub : Substitution) :
    Nat → Nat → Nat → Bytes → Bool → Bytes × Bool
  | 0, i, _, done, hit => (done ++ (subject.text.extract i subject.text.size).toList, hit)
  | n + 1, i, count, done, hit =>
    let tail := (subject.text.extract i subject.text.size).toList
    match r.find? subject i with
    | none => (done ++ tail, hit)
    | some m =>
      let between := (subject.text.extract i m.start).toList
      let chosen := decide (sub.number ≤ count) && (sub.globally || count == sub.number)
      let middle := if chosen then expand subject m sub.pieces else m.text subject 0
      let done := done ++ between ++ middle
      let hit := hit || chosen
      if chosen && !sub.globally then
        (done ++ (subject.text.extract m.stop subject.text.size).toList, hit)
      else if m.stop = m.start then
        match subject.text[m.stop]? with
        | none => (done, hit)
        | some c => replaceFrom r subject sub n (m.stop + 1) (count + 1) (done ++ [c]) hit
      else if m.stop = subject.text.size then (done, hit)
      else
        -- An empty match right behind another one does not count.
        match (r.find? subject m.stop) with
        | some next =>
          if next.start = m.stop ∧ next.stop = m.stop then
            match subject.text[m.stop]? with
            | none => (done, hit)
            | some c => replaceFrom r subject sub n (m.stop + 1) (count + 1) (done ++ [c]) hit
          else replaceFrom r subject sub n m.stop (count + 1) done hit
        | none => replaceFrom r subject sub n m.stop (count + 1) done hit

def writeFile (path t : Bytes) : Edit Unit := do
  if path = "/dev/stdout".toList then printLine t true
  else if path = "/dev/stderr".toList then Task.errors (t ++ ['\n'])
  else
    let d ← (Task.disk : Task _)
    let old := match d.readContent (Host.pathOf path) with
      | .ok content => Bytes.ofBytes content.bytes
      | .error _ => []
    let _ ← (Utility.change fun d => d.write (Host.pathOf path)
      (.ofBytes (Bytes.toBytes (old ++ t ++ ['\n']))) : Task _)

def substitute (sub : Substitution) : Edit Unit := do
  let (r, subject) ← prepared sub.pattern
  let (t, hit) := replaceFrom r subject sub (subject.text.size + 2) 0 1 [] false
  if hit then
    modify fun s => { s with space := t, replaced := true }
    if sub.print then printSpace
    match sub.file with
    | some path => writeFile path t
    | none => pure ()

def visible (t : Bytes) : Bytes :=
  let parts := t.map fun c =>
    if c = '\\' then ['\\', '\\']
    else if Quoting.isPrintable c then [c] else Quoting.escape c
  let (done, _) := parts.foldl (fun (done, width) (p : Bytes) =>
    if 69 < width + p.length then (done ++ "\\\n".toList ++ p, p.length) else (done ++ p, width + p.length))
    (([] : Bytes), 0)
  done ++ ['$']

/-- Where the script goes on after a command. -/
inductive Next where
  | at_ (place : Nat)
  | done
  | cycle

def firstLine (t : Bytes) : Bytes := t.takeWhile (· != '\n')

def simple (letter : Char) (place : Nat) : Edit Next := do
  let s ← get
  let go : Edit Next := return .at_ (place + 1)
  match letter with
  | 'd' => return .cycle
  | 'D' =>
    if s.space.contains '\n' then
      set { s with space := (s.space.dropWhile (· != '\n')).drop 1, again := true }
    return .cycle
  | 'g' => do
    set { s with space := s.hold }
    go
  | 'G' => do
    set { s with space := s.space ++ '\n' :: s.hold }
    go
  | 'h' => do
    set { s with hold := s.space }
    go
  | 'H' => do
    set { s with hold := s.hold ++ '\n' :: s.space }
    go
  | 'x' => do
    set { s with space := s.hold, hold := s.space }
    go
  | 'z' => do
    set { s with space := [] }
    go
  | 'p' => do
    printSpace
    go
  | 'P' => do
    printLine (firstLine s.space) true
    go
  | '=' => do
    printLine (Bytes.ofNat s.number) true
    go
  | 'F' => do
    printLine s.file true
    go
  | 'l' => do
    printLine (visible s.space) true
    go
  | 'n' => do
    if s.ahead.isEmpty then
      if s.more then return .done
      set { s with quit := some 0 }
      return .done
    if !s.quiet then printSpace
    let _ ← advance false
    go
  | 'N' => do
    if s.ahead.isEmpty then
      if !s.more then set { s with quit := some 0 }
      return .done
    let _ ← advance true
    go
  | _ => go

def perform (place : Nat) (i : Instruction) : Edit Next := do
  let go : Edit Next := return .at_ (place + 1)
  match i.action with
  | .open_ _ | .close | .label => go
  | .substitute sub => do
    substitute sub
    go
  | .translate table => do
    modify fun s => { s with space := s.space.map fun c => (table.lookup c).getD c }
    go
  | .insert t => do
    emitRaw t
    go
  | .append t => do
    modify fun s => { s with queue := s.queue ++ [.text t] }
    go
  | .change t => do
    let active := ((← get).ranges.lookup place).isSome && i.second.isSome && !i.negated
    if !active then emitRaw t
    return .cycle
  | .read path => do
    modify fun s => { s with queue := s.queue ++ [.file path] }
    go
  | .write path => do
    writeFile path (← get).space
    go
  | .jump kind label => do
    let s ← get
    let taken := kind == 'b' || (s.replaced == (kind == 't'))
    if kind != 'b' then set { s with replaced := false }
    if !taken then go
    else if label.isEmpty then return .done
    else match s.script.labels.lookup label with
      | some target => return .at_ target
      | none => return .done
  | .quit kind status => do
    let s ← get
    set { s with quit := some status }
    if kind = 'q' then return .done
    return .cycle
  | .simple letter => simple letter place

def stepLimit : Nat := 100000

def runCycle : Edit Bool := do
  let step (place : Nat) : Edit (Nat ⊕ Bool) := do
    match (← get).script.code[place]? with
    | none => return .inr true
    | some i =>
      if ← selected place i then
        match ← perform place i with
        | .at_ next => return .inl next
        | .done => return .inr true
        | .cycle => return .inr false
      else match i.action with
        | .open_ stop => return .inl stop
        | _ => return .inl (place + 1)
  iterate step (fun _ => pure true) stepLimit 0

def runLines : Edit Unit := do
  let step (_ : Unit) : Edit (Unit ⊕ Unit) := do
    let s ← get
    if s.quit.isSome then return .inr ()
    if s.again then set { s with again := false }
    else if !(← advance false) then return .inr ()
    modify fun s => { s with replaced := false }
    let printed ← runCycle
    if printed && !(← get).quiet then printSpace
    flushQueue
    return .inl ()
  iterate step pure 1000000 ()

def linesOf (separator : Char) (t : Bytes) : List Line :=
  let parts := Text.splitOn separator t
  match parts.getLast? with
  | some [] => parts.dropLast.map fun p => ⟨p, true⟩
  | some last => parts.dropLast.map (fun p => ⟨p, true⟩) ++ [⟨last, false⟩]
  | none => []

end Sed

namespace Utility

open Shell.Options

def sedUsage : String :=
  "Usage: sed [OPTION]... \x7bscript-only-if-no-other-script\x7d [input-file]...\n\n"

open Sed in
def sedScript (texts : List (Bytes × Bytes)) (extended : Bool) : Task Script := do
  let mut script : Script := {}
  let mut blocks : List Nat := []
  let mut front : Bytes := []
  for (name, t) in texts do
    let whole := front ++ t
    -- A backslash at the end goes on in the next text.
    if t.getLast? = some '\\' ∧ name.isEmpty ∧ 1 < texts.length then front := whole ++ ['\n']
    else
      front := []
      match script.extend blocks extended whole with
      | .ok (s, b) =>
        script := s
        blocks := b
      | .error f =>
        let number := (texts.takeWhile fun e => e.2 != t).length + 1
        let place := if name.isEmpty then
            "-e expression #".toList ++ Bytes.ofNat number ++ ", char ".toList ++ Bytes.ofNat f.place
          else "file ".toList ++ name ++ " line ".toList ++
            Bytes.ofNat ((whole.take f.place).count '\n' + 1)
        Task.fail 1 (place ++ ": ".toList ++ f.message.toList)
  if !front.isEmpty then
    match script.extend blocks extended front with
    | .ok (s, b) =>
      script := s
      blocks := b
    | .error f => Task.fail 1 ("-e expression #1, char ".toList ++ Bytes.ofNat f.place ++ ": ".toList ++
        f.message.toList)
  if !blocks.isEmpty then
    Task.fail 1 "-e expression #1, char 0: unmatched `\x7b'".toList
  for i in script.code do
    match i.action with
    | .jump _ label =>
      if !label.isEmpty ∧ (script.labels.lookup label).isNone then
        Task.fail 4 ("can't find label for jump to `".toList ++ label ++ ['\''])
    | _ => pure ()
  return script

open Sed in
def sed (args : List Bytes) : Task Nat := do
  let spec : Spec := { letters := "bsnrzuEe:f:l:i::V:s", advice := some sedUsage, long :=
    [⟨"quiet", 'n', .none⟩, ⟨"silent", 'n', .none⟩, ⟨"expression", 'e', .required⟩,
     ⟨"file", 'f', .required⟩, ⟨"in-place", 'i', .optional⟩, ⟨"regexp-extended", 'E', .none⟩,
     ⟨"separate", 's', .none⟩, ⟨"null-data", 'z', .none⟩, ⟨"zero-terminated", 'z', .none⟩,
     ⟨"line-length", 'l', .required⟩, ⟨"unbuffered", 'u', .none⟩, ⟨"posix", 'p', .none⟩,
     ⟨"debug", 'D', .none⟩, ⟨"sandbox", 'S', .none⟩, ⟨"follow-symlinks", 'F', .none⟩] }
  let g ← parse spec args
  let given := g.options.filter fun o => o.1 == 'e' || o.1 == 'f'
  let mut texts : List (Bytes × Bytes) := []
  for (letter, value) in given do
    if letter = 'e' then texts := texts ++ [([], value)]
    else match ← Task.readOperand value with
      | .ok t => texts := texts ++ [(value, Bytes.chomp t)]
      | .error cause => Task.fail 4 (Task.because ("couldn't open file ".toList ++ value) cause)
  let operands := if given.isEmpty then g.operands.tail else g.operands
  if given.isEmpty then
    match g.operands with
    | [] =>
      Task.errors sedUsage.toList
      Task.end_ 1
    | t :: _ => texts := [([], t)]
  let script ← sedScript texts (g.has 'E' || g.has 'r')
  -- Files that are written to are emptied first.
  for i in script.code do
    let path? := match i.action with
      | .write path => some path
      | .substitute s => s.file
      | _ => none
    match path? with
    | some path =>
      if !"/dev/std".toList.isPrefixOf path then
        match ← change fun d => d.write (Host.pathOf path) (.text []) with
        | .ok () => pure ()
        | .error cause => Task.fail 4 (Task.because ("couldn't open file ".toList ++ path) cause)
    | none => pure ()
  let inPlace := g.value? 'i'
  let separate := inPlace.isSome || g.has 's'
  let separator : Char := if g.has 'z' then '\x00' else '\n'
  let mut status := 0
  let mut read : List (Bytes × List Sed.Line) := []
  for path in inputs operands do
    match ← Task.readOperand path with
    | .ok t => read := read ++ [(path, linesOf separator t)]
    | .error cause =>
      if cause = .isADirectory then
        if inPlace.isSome then
          Task.complain ("couldn't edit ".toList ++ path ++ ": not a regular file".toList)
          status := 4
        else
          Task.complain (Task.because ("read error on ".toList ++ path) cause)
          status := 4
      else
        Task.complain (Task.because ("can't read ".toList ++ path) cause)
        status := 2
  let mut s : State := { script, quiet := g.has 'n' || script.quiet, separator }
  if separate then
    for (path, lines) in read do
      if s.quit.isNone then
        let ((), after) ← runLines.run { s with
          ahead := lines, file := path, number := 0, ranges := [] }
        let output := after.output.reverse.flatten
        let rest := after.ahead.flatMap fun l => l.text ++ (if l.ended then [separator] else [])
        match inPlace with
        | some suffix =>
          if !suffix.isEmpty then
            match ← stat path true with
            | .ok (_, e) =>
              let name := if suffix.contains '*' then
                  suffix.flatMap fun c => if c = '*' then path else [c]
                else path ++ suffix
              let _ ← change fun d => match d.resolve (Host.pathOf name).text false with
                | .ok (.free l) | .ok (.taken l _) => .ok { d with tree := d.tree.put l e }
                | .error cause => .error cause
            | .error _ => pure ()
          let _ ← change fun d => d.write (Host.pathOf path)
            (.ofBytes (Bytes.toBytes (output ++ (if after.quit.isSome then rest else []))))
        | none => Task.write output
        s := { after with output := [], owed := false }
  else
    -- The last line of a file is ended if another one follows.
    let filled := read.filter fun r => !r.2.isEmpty
    let all := filled.zipIdx.flatMap fun (r, k) =>
      if k + 1 = filled.length then r.2 else r.2.map fun l => { l with ended := true }
    let ((), after) ← runLines.run { s with ahead := all, file := (read.head?.map Prod.fst).getD ['-'] }
    Task.write after.output.reverse.flatten
    -- What was not used of the input can still be read by others.
    if operands.isEmpty then
      Host.giveBack 0 (after.ahead.foldl (fun n l => n + l.text.length + (if l.ended then 1 else 0)) 0)
    s := after
  match s.quit with
  | some 0 => return status
  | some n => return n
  | none => return status

end Utility

end GrammarHeaders.Shell
