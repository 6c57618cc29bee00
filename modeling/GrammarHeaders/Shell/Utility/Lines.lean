import GrammarHeaders.Shell.Utility.Directory

namespace GrammarHeaders.Shell.Utility

open Shell.Options

def inputs (operands : List Bytes) : List Bytes := if operands.isEmpty then [['-']] else operands

def multiplier? (t : Bytes) : Option Nat :=
  match String.ofList t with
  | "" => some 1
  | "b" => some 512
  | "kB" | "KB" => some 1000
  | "k" | "K" | "KiB" => some 1024
  | "MB" => some 1000000
  | "m" | "M" | "MiB" => some 1048576
  | "GB" => some 1000000000
  | "G" | "GiB" => some 1073741824
  | _ => none

def sizeOf? (t : Bytes) : Option Nat :=
  let ds := t.takeWhile Char.isDigit
  if ds.isEmpty then none
  else (multiplier? (t.drop ds.length)).map (Text.decimalValue ds * ·)

def heading (first : Bool) (path : Bytes) : Bytes :=
  (if first then [] else ['\n']) ++ "==> ".toList ++
    (if path = ['-'] then "standard input".toList else path) ++ " <==\n".toList

def outputPlace : Task (Option (Location × Nat)) := do
  match ← (Host.openFile? 1 : StateM Host _) with
  | some (_, f) => match f.channel with
    | .file l =>
      let size := (Host.bytesAt (← get).world.tree l).length
      return some (l, if f.append then size else f.offset)
    | _ => return none
  | none => return none

/-- How lines are shown. -/
structure Shown where
  number : Bool
  numberFilled : Bool
  ends : Bool
  squeeze : Bool
  tabs : Bool
  controls : Bool

def visible (s : Shown) (c : Char) : Bytes :=
  let low (n : Nat) : Bytes :=
    if n < 32 then ['^', Char.ofNat (n + 64)] else if n = 127 then ['^', '?'] else [Char.ofNat n]
  if c = '\t' then (if s.tabs then ['^', 'I'] else [c])
  else if !s.controls || c = '\n' then [c]
  else if c.toNat < 128 then low c.toNat
  else 'M' :: '-' :: low (c.toNat - 128)

/-- Where showing has come to: the next number, how many empty lines there were, and whether a
line is going on. -/
structure Progress where
  next : Nat := 1
  blanks : Nat := 0
  inLine : Bool := false

def showLine (s : Shown) (p : Progress) (line : Bytes) : Bytes × Progress :=
  let ended := line.getLast? = some '\n'
  let blank := line = ['\n'] ∧ !p.inLine
  let blanks := if blank then p.blanks + 1 else 0
  if blank ∧ s.squeeze ∧ 1 < blanks then ([], { p with blanks })
  else
    let counted := (s.number && !s.numberFilled && !p.inLine) || (s.numberFilled && !blank && !p.inLine)
    let front : Bytes := if counted then
        let ds := Bytes.ofNat p.next
        List.replicate (6 - ds.length) ' ' ++ ds ++ ['\t']
      else []
    let body := (Bytes.chomp line).flatMap (visible s)
    let tail : Bytes := if ended then (if s.ends then ['$', '\n'] else ['\n']) else []
    (front ++ body ++ tail, ⟨if counted then p.next + 1 else p.next, blanks, !ended⟩)

def showLines (s : Shown) (p : Progress) (t : Bytes) : Bytes × Progress :=
  let (parts, p) := (Bytes.lines t).foldl (fun (parts, p) line =>
    let (shown, p) := showLine s p line
    (shown :: parts, p)) (([] : List Bytes), p)
  (parts.reverse.flatten, p)

def cat (args : List Bytes) : Task Nat := do
  let g ← parse { letters := "AbeEnstTuv", long := [⟨"show-all", 'A', .none⟩,
    ⟨"number-nonblank", 'b', .none⟩, ⟨"show-ends", 'E', .none⟩, ⟨"number", 'n', .none⟩,
    ⟨"squeeze-blank", 's', .none⟩, ⟨"show-tabs", 'T', .none⟩, ⟨"show-nonprinting", 'v', .none⟩] } args
  let s : Shown := {
    number := g.has 'n', numberFilled := g.has 'b', ends := g.has 'E' || g.has 'A' || g.has 'e'
    squeeze := g.has 's', tabs := g.has 'T' || g.has 'A' || g.has 't'
    controls := g.has 'v' || g.has 'A' || g.has 'e' || g.has 't' }
  let place ← outputPlace
  let mut status := 0
  let mut p : Progress := {}
  for path in inputs g.operands do
    let same := match place, (← Task.disk).entryAt (Host.pathOf path) true with
      | some (l, n), .ok (k, _) => l == k && 0 < n
      | _, _ => false
    if same then
      Task.complain (Quoting.ifNeeded path ++ ": input file is output file".toList)
      status := 1
    else
      match ← Task.readOperand path with
      | .error cause =>
        Task.complain (Task.because (Quoting.ifNeeded path) cause)
        if path = ['-'] ∧ cause = Cause.badStream then
          Task.complain (Task.because "closing standard input".toList cause)
        status := 1
      | .ok t =>
        if g.options.isEmpty then Task.write t
        else
          let (shown, after) := showLines s p t
          p := after
          Task.write shown
  return status

def tac (args : List Bytes) : Task Nat := do
  let g ← parse { letters := "brs:" } args
  forAll (inputs g.operands) fun path => do
    match ← Task.readOperand path with
    | .error cause =>
      Task.complain (Task.because ("failed to open ".toList ++ Quoting.always path ++
        " for reading".toList) cause)
      return false
    | .ok t =>
      Task.write (Bytes.lines t).reverse.flatten
      return true

def rev (args : List Bytes) : Task Nat := do
  let g ← parse { letters := "" } args
  forAll (inputs g.operands) fun path => do
    match ← Task.readOperand path with
    | .error cause =>
      Task.complain (Task.because ("cannot open ".toList ++ path) cause)
      return false
    | .ok t =>
      Task.write ((Bytes.lines t).flatMap fun line =>
        (Bytes.chomp line).reverse ++ (if line.getLast? = some '\n' then ['\n'] else []))
      return true

/-- How much is wanted: lines or bytes, and counted from which end. -/
structure Wanted where
  stop : Char := '\n'
  bytes : Bool := false
  count : Nat := 10
  other : Bool := false

def Wanted.ofText? (stop : Char) (bytes : Bool) (sign : Char) (t : Bytes) : Option Wanted :=
  let (other, t) : Bool × Bytes := match t with
    | c :: rest => if c = sign then (true, rest) else if c = '-' ∨ c = '+' then (false, rest) else (false, t)
    | [] => (false, [])
  (sizeOf? t).map fun count => ⟨stop, bytes, count, other⟩

def oldStyle (args : List Bytes) (marks : List Char) : List Bytes :=
  match args with
  | (mark :: c :: t) :: rest =>
    if marks.contains mark && c.isDigit then
      let ds := (c :: t).takeWhile Char.isDigit
      let after := (c :: t).drop ds.length
      let sign : Bytes := if mark = '+' then ['+'] else []
      let flags : List Bytes := if after.isEmpty then [] else ['-' :: after]
      if after.all fun c => "qvz".toList.contains c then
        ['-', 'n'] :: (sign ++ ds) :: flags ++ rest
      else if after.head? = some 'c' then ['-', 'c'] :: (sign ++ ds) :: rest
      else args
    else args
  | args => args

def firstPart (w : Wanted) (t : Bytes) : Bytes :=
  if w.bytes then if w.other then t.take (t.length - w.count) else t.take w.count
  else
    let lines := Bytes.linesBy w.stop t
    (if w.other then lines.take (lines.length - w.count) else lines.take w.count).flatten

def lastPart (w : Wanted) (t : Bytes) : Bytes :=
  if w.bytes then if w.other then t.drop (w.count - 1) else t.drop (t.length - w.count)
  else
    let lines := Bytes.linesBy w.stop t
    (if w.other then lines.drop (w.count - 1) else lines.drop (lines.length - w.count)).flatten

def parts (sign : Char) (marks : List Char) (part : Wanted → Bytes → Bytes) (args : List Bytes) :
    Task Nat := do
  let args := oldStyle args marks
  match args with
  | (mark :: c :: t) :: _ =>
    if mark = '-' && c.isDigit then
      let wrong := ((c :: t).dropWhile Char.isDigit).headD ' '
      misuse 1 ("invalid trailing option -- ".toList ++ [wrong])
  | _ => pure ()
  let g ← parse { letters := "c:n:qvzfFs:", long := [⟨"bytes", 'c', .required⟩, ⟨"lines", 'n', .required⟩,
    ⟨"quiet", 'q', .none⟩, ⟨"silent", 'q', .none⟩, ⟨"verbose", 'v', .none⟩,
    ⟨"zero-terminated", 'z', .none⟩] } args
  let stop : Char := if g.has 'z' then '\x00' else '\n'
  let w : Wanted ← match g.options.reverse.find? fun o => o.1 == 'c' || o.1 == 'n' with
    | none => pure { stop }
    | some (letter, value) => match Wanted.ofText? stop (letter == 'c') sign value with
      | some w => pure w
      | none =>
        let subject := if letter = 'c' then "bytes" else "lines"
        let shown := if value.head? = some sign ∨ value.head? = some '-' then value.drop 1 else value
        Task.fail 1 ("invalid number of ".toList ++ subject.toList ++ ": ".toList ++ Quoting.words shown)
  let files := inputs g.operands
  let headed := g.last? ['q', 'v'] == some 'v' || (g.last? ['q', 'v'] == none && 1 < files.length)
  let mut status := 0
  let mut first := true
  for path in files do
    match ← Task.readOperand path with
    | .error cause =>
      status := 1
      let shown := if path = ['-'] then "standard input".toList else path
      if cause = .isADirectory then
        if headed then Task.write (heading first path)
        first := false
        Task.complain (Task.because ("error reading ".toList ++ Quoting.always shown) cause)
      else Task.complain (Task.because ("cannot open ".toList ++ Quoting.always shown ++
          " for reading".toList) cause)
    | .ok t =>
      if headed then Task.write (heading first path)
      first := false
      let shown := part w t
      if path = ['-'] ∧ sign = '-' ∧ !w.other then Host.giveBack 0 (t.length - shown.length)
      Task.write shown
  return status

def head (args : List Bytes) : Task Nat := parts '-' ['-'] firstPart args

def tail (args : List Bytes) : Task Nat := parts '+' ['-', '+'] lastPart args

structure Counts where
  lines : Nat := 0
  words : Nat := 0
  bytes : Nat := 0
  longest : Nat := 0

def Counts.add (a b : Counts) : Counts :=
  ⟨a.lines + b.lines, a.words + b.words, a.bytes + b.bytes, max a.longest b.longest⟩

def wordCount (t : Bytes) : Nat :=
  (t.foldl (fun (n, inside) c =>
    if Bytes.isSpace c then (n, false) else (if inside then n else n + 1, true)) (0, false)).1

def shownWidth (line : Bytes) : Nat :=
  line.foldl (fun n c => if c = '\t' then (n / 8 + 1) * 8 else if Quoting.isPrintable c then n + 1 else n) 0

def Counts.of (t : Bytes) : Counts :=
  ⟨t.count '\n', wordCount t, t.length,
    (Text.splitOn '\n' t).foldl (fun n line => max n (shownWidth line)) 0⟩

def wc (args : List Bytes) : Task Nat := do
  let g ← parse { letters := "clLmw", long := [⟨"bytes", 'c', .none⟩, ⟨"chars", 'm', .none⟩,
    ⟨"lines", 'l', .none⟩, ⟨"words", 'w', .none⟩, ⟨"max-line-length", 'L', .none⟩,
    ⟨"total", 't', .required⟩, ⟨"files0-from", '0', .required⟩] } args
  let all := !g.options.any fun o => "clLmw".toList.contains o.1
  let wanted := (['l', 'w', 'm', 'c', 'L'] : List Char).filter fun c =>
    g.has c || (all && "lwc".toList.contains c)
  let files := inputs g.operands
  let d ← Task.disk
  -- The width fits the sizes of all files; what is no regular file asks for more.
  let sizes : List (Option Nat) ← files.filterMapM fun path => do
    if path = ['-'] then
      match ← (Host.openFile? 0 : StateM Host _) with
      | some (_, f) => match f.channel with
        | .file l => return some (some (Host.bytesAt d.tree l).length)
        | _ => return some none
      | none => return some none
    else match d.entryAt (Host.pathOf path) true with
      | .ok (_, .file content _) => return some (some content.bytes.length)
      | .ok _ => return some none
      | .error _ => return none
  let width := if files.length = 1 ∧ wanted.length = 1 then 1
    else max (if sizes.contains none then 7 else 1)
      (Bytes.ofNat (sizes.foldl (fun n s => n + s.getD 0) 0)).length
  let show_ (c : Counts) (name : Bytes) : Task Unit := do
    let columns := wanted.map fun k =>
      let n := match k with
        | 'l' => c.lines
        | 'w' => c.words
        | 'L' => c.longest
        | _ => c.bytes
      let ds := Bytes.ofNat n
      List.replicate (width - ds.length) ' ' ++ ds
    Task.writeLine (Bytes.join [' '] columns ++ (if name.isEmpty then [] else ' ' :: name))
  let mut status := 0
  let mut total : Counts := {}
  for path in files do
    if path.isEmpty then
      Task.complain "invalid zero-length file name".toList
      status := 1
    else
      let name := if g.operands.isEmpty then [] else path
      match ← Task.readOperand path with
      | .error cause =>
        Task.complain (Task.because (Quoting.ifNeeded path) cause)
        status := 1
        if cause = .isADirectory then show_ {} name
      | .ok t =>
        let c := Counts.of t
        total := total.add c
        show_ c name
  let always := (g.value? 't').getD "auto".toList
  if (1 < files.length ∧ always ≠ "never".toList) ∨ always = "always".toList then
    show_ total "total".toList
  return status

def nl (args : List Bytes) : Task Nat := do
  let g ← parse { letters := "b:d:f:h:i:l:n:ps:v:w:", long := [⟨"body-numbering", 'b', .required⟩,
    ⟨"number-separator", 's', .required⟩, ⟨"number-width", 'w', .required⟩,
    ⟨"starting-line-number", 'v', .required⟩, ⟨"line-increment", 'i', .required⟩,
    ⟨"number-format", 'n', .required⟩] } args
  let number (letter : Char) (default : Nat) : Nat := ((g.value? letter).map Text.decimalValue).getD default
  let width := number 'w' 6
  let separator := (g.value? 's').getD ['\t']
  let all := g.value? 'b' == some ['a']
  let none_ := g.value? 'b' == some ['n']
  let mut next := number 'v' 1
  let mut status := 0
  for path in inputs g.operands do
    match ← Task.readOperand path with
    | .error cause =>
      Task.complain (Task.because (Quoting.ifNeeded path) cause)
      status := 1
    | .ok t =>
      for line in Bytes.lines t do
        let line := Bytes.chomp line
        if !none_ && (all || !line.isEmpty) then
          let ds := Bytes.ofNat next
          let gap := width - ds.length
          let shown := match g.value? 'n' with
            | some ['l', 'n'] => ds ++ List.replicate gap ' '
            | some ['r', 'z'] => List.replicate gap '0' ++ ds
            | _ => List.replicate gap ' ' ++ ds
          Task.writeLine (shown ++ separator ++ line)
          next := next + number 'i' 1
        else Task.writeLine (List.replicate (width + separator.length) ' ' ++ line)
  return status

def paste (args : List Bytes) : Task Nat := do
  let g ← parse { letters := "d:sz", long := [⟨"delimiters", 'd', .required⟩, ⟨"serial", 's', .none⟩] } args
  let delimiters : List Bytes := match g.value? 'd' with
    | none => [['\t']]
    | some t =>
      let rec split : Bytes → List Bytes
        | '\\' :: '0' :: rest => [] :: split rest
        | '\\' :: c :: rest => [(Format.namedEscape? c).getD c] :: split rest
        | c :: rest => [c] :: split rest
        | [] => []
      let parts := split t
      if parts.isEmpty then [[]] else parts
  let delimiter (i : Nat) : Bytes := (delimiters[i % delimiters.length]?).getD []
  let join (parts : List Bytes) : Bytes :=
    (parts.zipIdx.flatMap fun (p, i) => if i = 0 then p else delimiter (i - 1) ++ p) ++ ['\n']
  let texts ← (inputs g.operands).mapM fun path => do
    match ← Task.readOperand path with
    | .error cause => Task.fail 1 (Task.because (Quoting.ifNeeded path) cause)
    | .ok t => return (Bytes.lines t).map Bytes.chomp
  if g.has 's' then texts.forM fun lines => Task.write (join lines)
  else
    -- The input is shared line by line among the operands that name it.
    let dashes := (inputs g.operands).count ['-']
    let stdin := texts.foldl (fun all lines => if all.isEmpty then lines else all)
      (([] : List Bytes))
    let texts := if dashes ≤ 1 then texts else
      (inputs g.operands).zipIdx.map fun (path, i) =>
        if path = ['-'] then
          let place := ((inputs g.operands).take i).count ['-']
          (stdin.zipIdx.filter fun (_, k) => k % dashes = place).map Prod.fst
        else (texts[i]?).getD []
    let rows := texts.foldl (fun n lines => max n lines.length) 0
    for i in List.range rows do
      Task.write (join (texts.map fun lines => (lines[i]?).getD []))
  return 0

def fold (args : List Bytes) : Task Nat := do
  let g ← parse { letters := "bsw:", long := [⟨"bytes", 'b', .none⟩, ⟨"spaces", 's', .none⟩,
    ⟨"width", 'w', .required⟩] } args
  let width := ((g.value? 'w').map Text.decimalValue).getD 80
  let rec cut : Nat → Bytes → Bytes
    | 0, line => line
    | n + 1, line =>
      if line.length ≤ width ∨ width = 0 then line
      else
        let front := line.take width
        let kept := Bytes.dropEndWhile (· != ' ') front
        let size := if g.has 's' && !kept.isEmpty then kept.length else width
        line.take size ++ '\n' :: cut n (line.drop size)
  forAll (inputs g.operands) fun path => do
    match ← Task.readOperand path with
    | .error cause =>
      Task.complain (Task.because (Quoting.ifNeeded path) cause)
      return false
    | .ok t =>
      Task.write ((Bytes.lines t).flatMap fun line =>
        let body := Bytes.chomp line
        cut (body.length + 1) body ++ (if line.getLast? = some '\n' then ['\n'] else []))
      return true

def tee (args : List Bytes) : Task Nat := do
  let g ← parse { letters := "aip", long := [⟨"append", 'a', .none⟩,
    ⟨"ignore-interrupts", 'i', .none⟩, ⟨"output-error", 'p', .optional⟩] } args
  let mut status := 0
  let mut files : List (Bytes × Nat) := []
  for path in g.operands do
    let access : Host.Access :=
      { write := true, create := true, append := g.has 'a', truncate := !g.has 'a' }
    match ← (Host.openPath path access : StateM Host _) with
    | .error cause =>
      Task.complain (Task.because (Quoting.ifNeeded path) cause)
      status := 1
    | .ok file => files := files ++ [(path, file)]
  match ← (Host.readAll 0 : StateM Host _) with
  | .error cause =>
    Task.complain (Task.because "read error".toList cause)
    return 1
  | .ok t =>
    Task.write t
    let streams := (← get).process.streams
    for (path, file) in files do
      Host.setStream 1000 file
      match ← (Host.write 1000 t : StateM Host _) with
      | .ok () => pure ()
      | .error cause =>
        Task.complain (Task.because (Quoting.ifNeeded path) cause)
        status := 1
    modify fun h => { h with process := { h.process with streams } }
    return status

end GrammarHeaders.Shell.Utility
