import GrammarHeaders.Shell.Utility.Lines

namespace GrammarHeaders.Shell.Utility

open Shell.Options

namespace Sorting

/-- How two keys are compared. -/
structure Style where
  numeric : Bool := false
  general : Bool := false
  human : Bool := false
  version : Bool := false
  month : Bool := false
  fold : Bool := false
  dictionary : Bool := false
  printable : Bool := false
  reversed : Bool := false
  skipBlanksStart : Bool := false
  skipBlanksEnd : Bool := false
  deriving DecidableEq, Repr

def Style.switch (s : Style) (isEnd : Bool) : Char → Option Style
  | 'n' => some { s with numeric := true }
  | 'g' => some { s with general := true }
  | 'h' => some { s with human := true }
  | 'V' => some { s with version := true }
  | 'M' => some { s with month := true }
  | 'f' => some { s with fold := true }
  | 'd' => some { s with dictionary := true }
  | 'i' => some { s with printable := true }
  | 'r' => some { s with reversed := true }
  | 'b' => some (if isEnd then { s with skipBlanksEnd := true } else { s with skipBlanksStart := true })
  | _ => none

/-- A place in a line: a field and a character in it, both counted from one; a character of
number zero is the end of the field. -/
structure Place where
  field : Nat
  char : Nat
  deriving DecidableEq, Repr

structure Key where
  start : Place
  stop : Option Place := none
  style : Style := {}
  deriving DecidableEq, Repr

def letters (isEnd : Bool) : Bytes → Style → Option (Style × Bytes)
  | [], s => some (s, [])
  | ',' :: t, s => some (s, ',' :: t)
  | c :: t, s => (s.switch isEnd c).bind (letters isEnd t)

def place (t : Bytes) (default : Nat) : Option (Place × Bytes) :=
  let field := t.takeWhile Char.isDigit
  if field.isEmpty then none
  else
    let rest := t.drop field.length
    match rest with
    | '.' :: more =>
      let char := more.takeWhile Char.isDigit
      if char.isEmpty then none
      else some (⟨Text.decimalValue field, Text.decimalValue char⟩, more.drop char.length)
    | rest => some (⟨Text.decimalValue field, default⟩, rest)

def Key.ofText (t : Bytes) : Except Bytes Key := do
  match place t 1 with
  | none => throw ("invalid number at field start: invalid count at start of ".toList ++ Quoting.words t)
  | some (start, rest) =>
    if start.field = 0 then
      throw ("field number is zero: invalid field specification ".toList ++ Quoting.words t)
    if start.char = 0 then
      throw ("character offset is zero: invalid field specification ".toList ++ Quoting.words t)
    let stray : Bytes := "stray character in field spec: invalid field specification ".toList ++
      Quoting.words t
    match letters false rest {} with
    | none => throw stray
    | some (style, []) => return ⟨start, none, style⟩
    | some (style, rest) => match place (rest.drop 1) 0 with
      | none => throw ("invalid number after ',': invalid count at start of ".toList ++
          Quoting.words (rest.drop 1))
      | some (stop, rest) =>
        if stop.field = 0 then
          throw ("field number is zero: invalid field specification ".toList ++ Quoting.words t)
        match letters true rest style with
        | some (style, []) => return ⟨start, some stop, style⟩
        | _ => throw stray

def isBlank (c : Char) : Bool := c == ' ' || c == '\t' || c == '\n'

/-- Where fields start and end in a line. Without a separator a field starts with the blanks in
front of it. -/
def fieldBounds (separator : Option Char) (line : Bytes) : List (Nat × Nat) :=
  match separator with
  | some c =>
    let parts := Text.splitOn c line
    (parts.foldl (fun (done, i) p => ((i, i + p.length) :: done, i + p.length + 1))
      (([] : List (Nat × Nat)), 0)).1.reverse
  | none =>
    let rec go : Nat → Nat → Bytes → List (Nat × Nat)
      | 0, _, _ => []
      | n + 1, i, t =>
        if t.isEmpty then []
        else
          let blanks := (t.takeWhile isBlank).length
          let word := ((t.drop blanks).takeWhile fun c => !isBlank c).length
          (i, i + blanks + word) :: go n (i + blanks + word) (t.drop (blanks + word))
    go (line.length + 1) 0 line

def Key.part (k : Key) (separator : Option Char) (line : Bytes) : Bytes :=
  let bounds := fieldBounds separator line
  let skip (i : Nat) : Nat := i + ((line.drop i).takeWhile isBlank).length
  let start := match bounds[k.start.field - 1]? with
    | none => line.length
    | some (i, _) => (if k.style.skipBlanksStart then skip i else i) + (k.start.char - 1)
  let stop := match k.stop with
    | none => line.length
    | some p => match bounds[p.field - 1]? with
      | none => line.length
      | some (i, j) =>
        if p.char = 0 then j else (if k.style.skipBlanksEnd then skip i else i) + p.char
  (line.take stop).drop start

def number (t : Bytes) : Int × Bytes × Bytes :=
  let t := t.dropWhile isBlank
  let (negative, t) : Bool × Bytes := match t with
    | '-' :: t => (true, t)
    | t => (false, t)
  let whole := (t.takeWhile Char.isDigit)
  let rest := t.drop whole.length
  let fraction := match rest with
    | '.' :: f => f.takeWhile Char.isDigit
    | _ => []
  (if negative then -1 else 1, whole, fraction)

def compareNumbers (a b : Bytes) : Ordering :=
  let (sa, wa, fa) := number a
  let (sb, wb, fb) := number b
  let places := max fa.length fb.length
  let value (s : Int) (w f : Bytes) : Int :=
    s * (Text.decimalValue (w ++ f ++ List.replicate (places - f.length) '0') : Int)
  compare (value sa wa fa) (value sb wb fb)

def suffixOrder (t : Bytes) : Nat :=
  let t := (t.dropWhile isBlank).dropWhile fun c => c.isDigit || c == '.' || c == '-'
  match t with
  | c :: _ => match c with
    | 'k' | 'K' => 1
    | 'M' => 2
    | 'G' => 3
    | 'T' => 4
    | 'P' => 5
    | _ => 0
  | [] => 0

def compareBytes (a b : Bytes) : Ordering :=
  if a = b then .eq else if Bytes.le a b then .lt else .gt

/-- The order of characters in versions: letters come before other characters, and a tilde before
everything. -/
def versionRank (c : Option Char) : Int :=
  match c with
  | none => -1
  | some c => if c = '~' then -2 else if c.isAlpha then c.toNat else if c.isDigit then 0 else c.toNat + 256

def compareVersions : Nat → Bytes → Bytes → Ordering
  | 0, _, _ => .eq
  | n + 1, a, b =>
    if a.isEmpty && b.isEmpty then .eq
    else
      let fa := a.takeWhile fun c => !c.isDigit
      let fb := b.takeWhile fun c => !c.isDigit
      let size := max fa.length fb.length
      let ranks (t : Bytes) : List Int := (List.range size).map fun i => versionRank (t[i]?)
      let rec first : List Int → List Int → Ordering
        | x :: xs, y :: ys => if x = y then first xs ys else compare x y
        | _, _ => .eq
      match first (ranks fa) (ranks fb) with
      | .eq =>
        let ra := a.drop fa.length
        let rb := b.drop fb.length
        let da := ra.takeWhile Char.isDigit
        let db := rb.takeWhile Char.isDigit
        match compare (Text.decimalValue da) (Text.decimalValue db) with
        | .eq => compareVersions n (ra.drop da.length) (rb.drop db.length)
        | o => o
      | o => o

def months : List String :=
  ["JAN", "FEB", "MAR", "APR", "MAY", "JUN", "JUL", "AUG", "SEP", "OCT", "NOV", "DEC"]

def monthOf (t : Bytes) : Nat :=
  let name := ((t.dropWhile isBlank).take 3).map Char.toUpper
  match months.zipIdx.find? fun (m, _) => m.toList == name with
  | some (_, i) => i + 1
  | none => 0

def compareParts (s : Style) (a b : Bytes) : Ordering :=
  let o :=
    if s.numeric || s.general then compareNumbers a b
    else if s.human then match compare (suffixOrder a) (suffixOrder b) with
      | .eq => compareNumbers a b
      | o => o
    else if s.month then compare (monthOf a) (monthOf b)
    else if s.version then compareVersions (a.length + b.length + 1) a b
    else
      let kept (t : Bytes) : Bytes :=
        let t := if s.dictionary then t.filter fun c => c.isAlphanum || isBlank c else t
        let t := if s.printable then t.filter Quoting.isPrintable else t
        if s.fold then t.map Char.toUpper else t
      compareBytes (kept a) (kept b)
  if s.reversed then o.swap else o

def compareKeys (keys : List Key) (separator : Option Char) (a b : Bytes) : Ordering :=
  match keys with
  | [] => .eq
  | k :: rest => match compareParts k.style (k.part separator a) (k.part separator b) with
    | .eq => compareKeys rest separator a b
    | o => o

end Sorting

open Sorting in
def sort (args : List Bytes) : Task Nat := do
  let g ← parse { letters := "bcCdfghik:mMno:rRsS:t:T:uVy:z", status := 2, long :=
    [⟨"ignore-leading-blanks", 'b', .none⟩, ⟨"check", 'c', .optional⟩, ⟨"dictionary-order", 'd', .none⟩,
     ⟨"ignore-case", 'f', .none⟩, ⟨"general-numeric-sort", 'g', .none⟩,
     ⟨"human-numeric-sort", 'h', .none⟩, ⟨"ignore-nonprinting", 'i', .none⟩, ⟨"key", 'k', .required⟩,
     ⟨"merge", 'm', .none⟩, ⟨"month-sort", 'M', .none⟩, ⟨"numeric-sort", 'n', .none⟩,
     ⟨"output", 'o', .required⟩, ⟨"reverse", 'r', .none⟩, ⟨"stable", 's', .none⟩,
     ⟨"field-separator", 't', .required⟩, ⟨"unique", 'u', .none⟩, ⟨"version-sort", 'V', .none⟩,
     ⟨"zero-terminated", 'z', .none⟩] } args
  let style := g.options.foldl (fun (s : Style) o => (s.switch false o.1).getD s) {}
  let style := if g.has 'b' then { style with skipBlanksEnd := true } else style
  let separator : Option Char ← match g.value? 't' with
    | none => pure none
    | some [] => Task.fail 2 "empty tab".toList
    | some [c] => pure (some c)
    | some ['\\', '0'] => pure (some '\x00')
    | some t => Task.fail 2 ("multi-character tab ".toList ++ Quoting.words t)
  let mut keys : List Key := []
  for (letter, value) in g.options do
    if letter = 'k' then
      match Key.ofText value with
      | .error message => Task.fail 2 message
      | .ok k => keys := keys ++ [if k.style = {} then { k with style } else k]
  let whole : Key := ⟨⟨1, 1⟩, none, style⟩
  let ordered := if keys.isEmpty then [whole] else keys
  let last (a b : Bytes) : Ordering :=
    if g.has 's' || g.has 'u' then .eq
    else if style.reversed then (compareBytes a b).swap else compareBytes a b
  let order (a b : Bytes) : Ordering := match compareKeys ordered separator a b with
    | .eq => last a b
    | o => o
  let ending : Char := if g.has 'z' then '\x00' else '\n'
  let mut texts : List Bytes := []
  for path in inputs g.operands do
    match ← Task.readOperand path with
    | .error .isADirectory => Task.fail 2 (Task.because ("read failed: ".toList ++ Quoting.ifNeeded path) .isADirectory)
    | .error cause => Task.fail 2 (Task.because ("cannot read: ".toList ++ Quoting.ifNeeded path) cause)
    | .ok t => texts := texts ++ [if t.isEmpty ∨ t.getLast? = some ending then t else t ++ [ending]]
  let lines := ((Text.splitOn ending texts.flatten).dropLast)
  if g.has 'c' || g.has 'C' then
    let pairs := (lines.zip lines.tail).zipIdx 2
    match pairs.find? fun ((a, b), _) =>
        let o := order a b
        o == .gt || (g.has 'u' && o == .eq) with
    | some ((_, b), n) =>
      if g.has 'c' then
        let name := (inputs g.operands).headD []
        Task.complain (Quoting.ifNeeded name ++ [':'] ++ Bytes.ofNat n ++ ": disorder: ".toList ++ b)
      return 1
    | none => return 0
  let sorted := lines.mergeSort fun a b => order a b != .gt
  let kept := if !g.has 'u' then sorted else
    (sorted.foldl (fun (done : List Bytes) line => match done with
      | before :: _ => if order before line == .eq then done else line :: done
      | [] => [line]) []).reverse
  let output := kept.flatMap fun line => line ++ [ending]
  match g.value? 'o' with
  | none => Task.write output
  | some path => match ← change fun d => d.write (Host.pathOf path) (.ofBytes (Bytes.toBytes output)) with
    | .ok () => pure ()
    | .error cause => Task.fail 2 (Task.because ("open failed: ".toList ++ Quoting.ifNeeded path) cause)
  return 0

def runsBy (key : Bytes → Bytes) (lines : List Bytes) : List (List Bytes) :=
  (lines.foldl (fun (runs : List (List Bytes)) line => match runs with
    | (first :: more) :: rest =>
      if key first = key line then (first :: more ++ [line]) :: rest else [line] :: runs
    | _ => [line] :: runs) []).reverse

def uniq (args : List Bytes) : Task Nat := do
  let g ← parse { letters := "cdDf:is:uw:z", long := [⟨"count", 'c', .none⟩, ⟨"repeated", 'd', .none⟩,
    ⟨"all-repeated", 'D', .optional⟩, ⟨"skip-fields", 'f', .required⟩, ⟨"ignore-case", 'i', .none⟩,
    ⟨"skip-chars", 's', .required⟩, ⟨"unique", 'u', .none⟩, ⟨"check-chars", 'w', .required⟩,
    ⟨"zero-terminated", 'z', .none⟩] } args
  let number (letter : Char) (words : String) : Task (Option Nat) := do
    match g.value? letter with
    | none => return none
    | some t =>
      if Bytes.isNumber t then return some (Text.decimalValue t)
      Task.fail 1 (t ++ ": invalid number of ".toList ++ words.toList)
  let fields := (← number 'f' "fields to skip").getD 0
  let chars := (← number 's' "bytes to skip").getD 0
  let most ← number 'w' "bytes to compare"
  let (input, output) : Bytes × Option Bytes ← match g.operands with
    | [] => pure (['-'], none)
    | [input] => pure (input, none)
    | [input, output] => pure (input, if output = ['-'] then none else some output)
    | _ :: _ :: extra :: _ => extraOperand 1 extra
  let skip (line : Bytes) : Bytes := (List.range fields).foldl (fun t _ =>
    (t.dropWhile Sorting.isBlank).dropWhile fun c => !Sorting.isBlank c) line
  let key (line : Bytes) : Bytes :=
    let t := (skip line).drop chars
    let t := (most.map fun n => t.take n).getD t
    if g.has 'i' then t.map Char.toUpper else t
  match ← Task.readOperand input with
  | .error cause => Task.fail 1 (Task.because (Quoting.ifNeeded input) cause)
  | .ok t =>
    let stop : Char := if g.has 'z' then '\x00' else '\n'
    let lines := (Bytes.linesBy stop t).map fun line =>
      if line.getLast? = some stop then line.dropLast else line
    let runs := runsBy key lines
    let runs := runs.filter fun run =>
      (!(g.has 'd' || g.has 'D') || 1 < run.length) && (!g.has 'u' || run.length == 1)
    let shown := runs.flatMap fun run =>
      if g.has 'D' then run.flatMap fun line => line ++ [stop]
      else
        let ds := Bytes.ofNat run.length
        let front := if g.has 'c' then List.replicate (7 - ds.length) ' ' ++ ds ++ [' '] else []
        front ++ run.headD [] ++ [stop]
    match output with
    | none => Task.write shown
    | some path => match ← change fun d => d.write (Host.pathOf path) (.ofBytes (Bytes.toBytes shown)) with
      | .ok () => pure ()
      | .error cause => Task.fail 1 (Task.because (Quoting.ifNeeded path) cause)
    return 0

def commLines (fields : Bytes × Bytes × Bytes) (wanted : Char → Bool) :
    Nat → List Bytes → List Bytes → List Bytes
  | 0, _, _ => []
  | n + 1, a, b =>
    let one (line : Bytes) : List Bytes := if wanted '1' then [fields.1 ++ line] else []
    let two (line : Bytes) : List Bytes := if wanted '2' then [fields.2.1 ++ line] else []
    let three (line : Bytes) : List Bytes := if wanted '3' then [fields.2.2 ++ line] else []
    match a, b with
    | [], [] => []
    | x :: a, [] => one x ++ commLines fields wanted n a []
    | [], y :: b => two y ++ commLines fields wanted n [] b
    | x :: a, y :: b =>
      if x = y then three x ++ commLines fields wanted n a b
      else if Bytes.le x y then one x ++ commLines fields wanted n a (y :: b)
      else two y ++ commLines fields wanted n (x :: a) b

def comm (args : List Bytes) : Task Nat := do
  let g ← parse { letters := "123z" } args
  match g.operands with
  | [] => missingOperand 1
  | [one] => misuse 1 ("missing operand after ".toList ++ Quoting.words one)
  | _ :: _ :: extra :: _ => extraOperand 1 extra
  | [one, two] =>
    let read (path : Bytes) : Task (List Bytes) := do
      match ← Task.readOperand path with
      | .ok t => return (Bytes.lines t).map Bytes.chomp
      | .error cause => Task.fail 1 (Task.because (Quoting.ifNeeded path) cause)
    let a ← read one
    let b ← read two
    let tab (letters : List Char) : Bytes := (letters.filter fun c => !g.has c).map fun _ => '\t'
    let shown := commLines ([], tab ['1'], tab ['1', '2']) (fun c => !g.has c)
      (a.length + b.length + 1) a b
    Task.write (shown.flatMap fun line => line ++ ['\n'])
    return 0

def cmp (args : List Bytes) : Task Nat := do
  let name := String.ofList (← Task.name)
  let advice := name ++ ": Try '" ++ name ++ " --help' for more information.\n"
  let spec : Spec := { letters := "bi:ln:sv", status := 2, advice := some advice, long :=
    [⟨"quiet", 's', .none⟩, ⟨"silent", 's', .none⟩, ⟨"verbose", 'l', .none⟩, ⟨"bytes", 'n', .required⟩,
     ⟨"print-bytes", 'b', .none⟩] }
  let g ← parse spec args
  let (one, two) : Bytes × Bytes ← match g.operands with
    | [] => spec.reject ("missing operand after ".toList ++ Quoting.words name.toList)
    | [one] => pure (one, ['-'])
    | [one, two] => pure (one, two)
    | _ :: _ :: skip :: _ =>
      spec.reject ("invalid --ignore-initial value ".toList ++ Quoting.words skip)
  let read (path : Bytes) : Task Bytes := do
    match ← Task.readOperand path with
    | .ok t => return t
    | .error cause =>
      if !g.has 's' then Task.complain (Task.because path cause)
      Task.end_ 2
  let a ← read one
  let b ← read two
  let limit := ((g.value? 'n').bind sizeOf?).getD (a.length + b.length)
  let (a, b) := (a.take limit, b.take limit)
  let same := ((a.zip b).takeWhile fun (x, y) => x == y).length
  if a = b then return 0
  if g.has 's' then return 1
  let line := ((a.take same).count '\n') + 1
  if same < a.length ∧ same < b.length then
    if g.has 'l' then
      for ((x, y), i) in (a.zip b).zipIdx 1 do
        if x ≠ y then
          let oct (c : Char) : Bytes :=
            let ds := Nat.toDigits 8 c.toNat
            List.replicate (3 - ds.length) ' ' ++ ds
          Task.writeLine (Bytes.ofNat i ++ [' '] ++ oct x ++ [' '] ++ oct y)
    else
      Task.writeLine (one ++ [' '] ++ two ++ " differ: char ".toList ++ Bytes.ofNat (same + 1) ++
        ", line ".toList ++ Bytes.ofNat line)
  else
    let short := if a.length < b.length then one else two
    let where_ : Bytes := if same = 0 then " which is empty".toList
      else
        let text := a.take same
        let ended := text.getLast? = some '\n'
        " after byte ".toList ++ Bytes.ofNat same ++ (if g.has 'l' then [] else
          (if ended then ", line ".toList ++ Bytes.ofNat (line - 1)
            else ", in line ".toList ++ Bytes.ofNat line))
    Task.complain ("EOF on ".toList ++ short ++ where_)
  return 1

end GrammarHeaders.Shell.Utility
