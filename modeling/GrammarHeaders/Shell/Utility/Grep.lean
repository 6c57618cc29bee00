import GrammarHeaders.Shell.Regex
import GrammarHeaders.Shell.Utility.Lines

namespace GrammarHeaders.Shell.Utility.Grep

open Shell.Options

/-- What is searched, and how. -/
structure Search where
  regex : Regex
  ignoreCase : Bool
  inverted : Bool

def Search.find? (s : Search) (line : Bytes) (i : Nat) : Option Regex.Match :=
  s.regex.find? ⟨line.toArray, s.ignoreCase, false⟩ i

def Search.selects (s : Search) (line : Bytes) : Bool := (s.find? line 0).isSome != s.inverted

def partsFrom (s : Search) (line : Bytes) : Nat → Nat → List (Nat × Bytes)
  | 0, _ => []
  | n + 1, i => match s.find? line i with
    | none => []
    | some m =>
      if m.stop = m.start then
        if line.length ≤ m.stop then [] else partsFrom s line n (m.stop + 1)
      else (m.start, (line.take m.stop).drop m.start) :: partsFrom s line n m.stop

/-- How matches are shown. -/
structure Style where
  names : Bool
  numbers : Bool
  offsets : Bool
  onlyParts : Bool
  countOnly : Bool
  namesOnly : Option Bool
  quiet : Bool
  most : Option Nat
  before : Nat
  after : Nat
  binary : Bool

def front (s : Style) (name : Bytes) (mark : Char) (number offset : Nat) : Bytes :=
  (if s.names then name ++ [mark] else []) ++
    (if s.numbers then Bytes.ofNat number ++ [mark] else []) ++
    (if s.offsets then Bytes.ofNat offset ++ [mark] else [])

/-- A line with its number and its place in the file. -/
structure Numbered where
  text : Bytes
  number : Nat
  offset : Nat

def numbered (t : Bytes) : List Numbered :=
  ((Bytes.lines t).foldl (fun (done, number, offset) line =>
    (⟨Bytes.chomp line, number, offset⟩ :: done, number + 1, offset + line.length))
    (([] : List Numbered), 1, 0)).1.reverse

def selected (search : Search) (s : Style) (lines : List Numbered) : List Numbered :=
  let all := lines.filter fun l => search.selects l.text
  match s.most with
  | some n => all.take n
  | none => all

def showMatch (search : Search) (s : Style) (name : Bytes) (l : Numbered) : Bytes :=
  if s.onlyParts then
    if search.inverted then []
    else (partsFrom search l.text (l.text.length + 2) 0).flatMap fun (i, part) =>
      front s name ':' l.number (l.offset + i) ++ part ++ ['\n']
  else front s name ':' l.number l.offset ++ l.text ++ ['\n']

def withContext (search : Search) (s : Style) (name : Bytes) (lines hits : List Numbered) : Bytes :=
  let hit (n : Nat) : Bool := hits.any fun l => l.number == n
  let last := (hits.getLast?.map Numbered.number).getD 0
  let near (n : Nat) : Bool := hits.any fun l => n ≤ l.number + s.after && l.number ≤ n + s.before
  let shown := lines.filter fun l => near l.number
  (shown.foldl (fun (done, before) l =>
    let gap : Bytes := if before ≠ 0 ∧ before + 1 ≠ l.number then "--\n".toList else []
    let line := if hit l.number then showMatch search s name l
      else if s.onlyParts then []
      else if l.number ≤ last + s.after then front s name '-' l.number l.offset ++ l.text ++ ['\n'] else []
    (done ++ gap ++ line, l.number)) (([] : Bytes), 0)).1

def unread (s : Style) (t : Bytes) (hits : List Numbered) : Nat :=
  match s.most, hits.getLast? with
  | some n, some l => if hits.length = n then t.length - (l.offset + l.text.length + 1) else 0
  | _, _ => 0

def searchText (search : Search) (s : Style) (fromInput : Bool) (name : Bytes) (t : Bytes) : Task Bool := do
  let lines := numbered t
  let hits := selected search s lines
  let found := !hits.isEmpty
  if fromInput then Host.giveBack 0 (unread s t hits)
  if s.quiet then return found
  match s.namesOnly with
  | some withMatch =>
    if found = withMatch then Task.writeLine name
    return found
  | none =>
    if s.countOnly then
      Task.writeLine ((if s.names then name ++ [':'] else []) ++ Bytes.ofNat hits.length)
    else if t.contains '\x00' && !s.binary then
      if found then Task.complain (name ++ ": binary file matches".toList)
    else if 0 < s.before + s.after then
      if found then Task.write (withContext search s name lines hits)
    else Task.write (hits.flatMap (showMatch search s name))
    return found

def filesBelow (d : Disk) (path : Bytes) (l : Location) (skip : List Bytes) : List Bytes :=
  let fits (p : Bytes) (name : Bytes) : Bool := Pattern.fits (Pattern.ofGlyphs (Glyph.ofBytes false p)) name
  let files := (d.tree.below l).filterMap fun (names, e) => match e with
    | .file .. =>
      if names.dropLast.any fun n => skip.any fun p => fits p (Bytes.ofString n) then none
      else some (names.map Bytes.ofString)
    | _ => none
  let paths := files.map fun names =>
    if path.isEmpty then Bytes.join ['/'] names else under path (Bytes.join ['/'] names)
  paths.mergeSort Bytes.le

end Grep

open Shell.Options Grep in
def grepAs (kind : Char) (args : List Bytes) : Task Nat := do
  let advice := "Usage: grep [OPTION]... PATTERNS [FILE]...\nTry 'grep --help' for more information.\n"
  -- A number alone is the size of the context.
  let args := args.flatMap fun arg => match arg with
    | '-' :: ds => if Bytes.isNumber ds then [['-', 'C'], ds] else [arg]
    | _ => [arg]
  let spec : Spec := { letters := "abcde:f:hilnoqrsvwxyzA:B:C:D:EFGHILm:PRTUVZ", status := 2, advice := some advice, long :=
    [⟨"extended-regexp", 'E', .none⟩, ⟨"fixed-strings", 'F', .none⟩, ⟨"basic-regexp", 'G', .none⟩,
     ⟨"perl-regexp", 'P', .none⟩, ⟨"regexp", 'e', .required⟩, ⟨"file", 'f', .required⟩,
     ⟨"ignore-case", 'i', .none⟩, ⟨"no-ignore-case", '0', .none⟩, ⟨"word-regexp", 'w', .none⟩,
     ⟨"line-regexp", 'x', .none⟩, ⟨"no-messages", 's', .none⟩, ⟨"invert-match", 'v', .none⟩,
     ⟨"max-count", 'm', .required⟩, ⟨"byte-offset", 'b', .none⟩, ⟨"line-number", 'n', .none⟩,
     ⟨"line-buffered", '1', .none⟩, ⟨"with-filename", 'H', .none⟩, ⟨"no-filename", 'h', .none⟩,
     ⟨"only-matching", 'o', .none⟩, ⟨"quiet", 'q', .none⟩, ⟨"silent", 'q', .none⟩,
     ⟨"text", 'a', .none⟩, ⟨"recursive", 'r', .none⟩, ⟨"include", '2', .required⟩,
     ⟨"exclude", '3', .required⟩, ⟨"exclude-dir", '4', .required⟩,
     ⟨"files-without-match", 'L', .none⟩, ⟨"files-with-matches", 'l', .none⟩, ⟨"count", 'c', .none⟩,
     ⟨"before-context", 'B', .required⟩, ⟨"after-context", 'A', .required⟩,
     ⟨"context", 'C', .required⟩, ⟨"color", '5', .optional⟩, ⟨"colour", '5', .optional⟩] }
  let g ← parse spec args
  let d ← Task.disk
  let mut patterns : List Bytes := []
  let mut given := false
  for (letter, value) in g.options do
    if letter = 'e' then
      given := true
      patterns := patterns ++ Text.splitOn '\n' value
    else if letter = 'f' then
      given := true
      match ← Task.readOperand value with
      | .error cause => Task.fail 2 (Task.because (Quoting.ifNeeded value) cause)
      | .ok t => patterns := patterns ++ (Bytes.lines t).map Bytes.chomp
  let operands := if given then g.operands else g.operands.tail
  if !given then
    match g.operands with
    | [] => do
      Task.errors advice.toList
      Task.end_ 2
    | first :: _ => patterns := Text.splitOn '\n' first
  let number (letter : Char) : Task (Option Nat) := do
    match g.value? letter with
    | none => return none
    | some t =>
      if Bytes.isNumber t then return some (Text.decimalValue t)
      if letter = 'm' then
        if t.head? = some '-' ∧ Bytes.isNumber (t.drop 1) then return none
        Task.fail 2 "invalid max count".toList
      Task.fail 2 (t ++ ": invalid context length argument".toList)
  let most ← number 'm'
  let context := (← number 'C').getD 0
  let after := (← number 'A').getD context
  let before := (← number 'B').getD context
  let kind := (g.last? ['E', 'F', 'G', 'P']).getD kind
  let mut regexes : List Regex := []
  for p in patterns do
    if kind = 'F' then regexes := regexes ++ [Regex.literal p]
    else match Regex.ofText { extended := kind != 'G' } p with
      | .error message => Task.fail 2 message.toList
      | .ok r => regexes := regexes ++ [r]
  let whole : Regex := match regexes with
    | [] => .oneOf false []
    | r :: rest => rest.foldl .either r
  let regex : Regex := if g.has 'x' then .both .lineStart (.both whole .lineEnd)
    else if g.has 'w' then .both .openLeft (.both whole .openRight) else whole
  let search : Search := ⟨regex, g.last? ['i', 'y', '0'] == some 'i' || g.last? ['i', 'y', '0'] == some 'y',
    g.has 'v'⟩
  let recursive := g.has 'r' || g.has 'R'
  let fits (p name : Bytes) : Bool := Pattern.fits (Pattern.ofGlyphs (Glyph.ofBytes false p)) name
  let values (letter : Char) : List Bytes := (g.options.filter fun o => o.1 == letter).map Prod.snd
  let included (path : Bytes) : Bool :=
    ((values '2').isEmpty || (values '2').any fun p => fits p (lastName path)) &&
      !(values '3').any fun p => fits p (lastName path)
  let starts := if operands.isEmpty && recursive then [[]] else inputs operands
  let files := starts.flatMap fun path =>
    match d.entryAt (Host.pathOf (if path.isEmpty && operands.isEmpty then ['.'] else path)) true with
    | .ok (l, .directory) =>
      if recursive then (filesBelow d path l (values '4')).filter included else [path]
    | _ => [path]
  let several := 1 < operands.length || (recursive && starts.any fun path =>
    d.isDir (Host.pathOf (if path.isEmpty then ['.'] else path)))
  let names := match g.last? ['H', 'h'] with
    | some 'H' => true
    | some _ => false
    | none => several
  let style : Style := {
    names, numbers := g.has 'n', offsets := g.has 'b', onlyParts := g.has 'o', countOnly := g.has 'c'
    namesOnly := match g.last? ['l', 'L'] with
      | some 'l' => some true
      | some _ => some false
      | none => none
    quiet := g.has 'q', most, before, after, binary := g.has 'a' }
  let mut found := false
  let mut failed := false
  for path in files do
    if !(style.quiet && found) then
      match ← Task.readOperand path with
      | .error cause =>
        failed := true
        if !g.has 's' then Task.complain (Task.because path cause)
      | .ok t =>
        let name := if path = ['-'] then "(standard input)".toList else path
        if ← searchText search style (path = ['-']) name t then found := true
  return if failed && !(style.quiet && found) then 2 else if found then 0 else 1

def grep (args : List Bytes) : Task Nat := grepAs 'G' args

end GrammarHeaders.Shell.Utility
