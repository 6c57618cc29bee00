import GrammarHeaders.Shell.Pattern
import GrammarHeaders.Shell.Utility.Lines

namespace GrammarHeaders.Shell.Utility

open Shell.Options

namespace Fields

/-- A range of positions, counted from one. -/
structure Range where
  low : Nat
  high : Option Nat
  deriving DecidableEq, Repr

def Range.has (r : Range) (n : Nat) : Bool :=
  decide (r.low ≤ n) && (r.high.map fun h => decide (n ≤ h)).getD true

/-- The subject of a list, in words. -/
structure Words where
  numbered : String
  invalid : String

def range (words : Words) (t : Bytes) : Except Bytes Range := do
  let low := t.takeWhile (· != '-')
  let rest := t.drop low.length
  let number (ds : Bytes) : Except Bytes Nat :=
    if !Bytes.isNumber ds then .error (words.invalid.toList ++ [' '] ++ Quoting.words ds)
    else if Text.decimalValue ds = 0 then .error words.numbered.toList
    else .ok (Text.decimalValue ds)
  match rest with
  | [] => do
    let n ← number low
    return ⟨n, some n⟩
  | _ :: high =>
    if low.isEmpty && high.isEmpty then .error "invalid range with no endpoint: -".toList
    else
      let a ← if low.isEmpty then pure 1 else number low
      if high.isEmpty then return ⟨a, none⟩
      let b ← number high
      if b < a then .error "invalid decreasing range".toList
      return ⟨a, some b⟩

def ranges (words : Words) (t : Bytes) : Except Bytes (List Range) :=
  let parts := (Text.splitOn ',' (t.map fun c => if c = ' ' ∨ c = '\t' then ',' else c))
  parts.mapM (range words)

end Fields

def cut (args : List Bytes) : Task Nat := do
  let g ← parse { letters := "b:c:d:f:nsz", long := [⟨"bytes", 'b', .required⟩,
    ⟨"characters", 'c', .required⟩, ⟨"fields", 'f', .required⟩, ⟨"delimiter", 'd', .required⟩,
    ⟨"only-delimited", 's', .none⟩, ⟨"output-delimiter", 'o', .required⟩, ⟨"complement", 'C', .none⟩,
    ⟨"zero-terminated", 'z', .none⟩] } args
  let lists := g.options.filter fun o => "bcf".toList.contains o.1
  match lists with
  | [] => misuse 1 "you must specify a list of bytes, characters, or fields".toList
  | _ :: _ :: _ => misuse 1 "only one list may be specified".toList
  | [(letter, list)] =>
    let fields := letter = 'f'
    match g.value? 'd' with
    | some d =>
      if 1 < d.length then misuse 1 "the delimiter must be a single character".toList
      if !fields then
        misuse 1 "an input delimiter may be specified only when operating on fields".toList
    | none => pure ()
    if g.has 's' && !fields then
      misuse 1 ("suppressing non-delimited lines makes sense\n\tonly when operating on fields").toList
    let words : Fields.Words := if fields then ⟨"fields are numbered from 1", "invalid field value"⟩
      else ⟨"byte/character positions are numbered from 1", "invalid byte/character position"⟩
    match Fields.ranges words list with
    | .error message => misuse 1 message
    | .ok ranges =>
      let chosen (n : Nat) : Bool := (ranges.any fun r => r.has n) != g.has 'C'
      let delimiter : Char := ((g.value? 'd').map fun d => d.headD '\x00').getD '\t'
      let joiner := (g.value? 'o').getD [delimiter]
      let pick {α : Type} (parts : List α) : List α :=
        ((parts.zipIdx 1).filter fun (_, n) => chosen n).map Prod.fst
      -- Runs of characters that stand next to each other are kept together.
      let runs (line : Bytes) : Bytes :=
        if (g.value? 'o').isNone then pick line
        else
          let marked := line.zipIdx 1
          let starts (n : Nat) : Bool := ranges.any fun r => r.low = n && !(ranges.any fun q =>
            q.low < n && q.has n)
          (marked.filter fun (_, n) => chosen n).zipIdx.flatMap fun ((c, n), i) =>
            if i ≠ 0 ∧ (starts n ∨ !chosen (n - 1)) then joiner ++ [c] else [c]
      let line (t : Bytes) : Option Bytes :=
        if !fields then some (runs t)
        else if !t.contains delimiter then (if g.has 's' then none else some t)
        else some (Bytes.join joiner (pick (Text.splitOn delimiter t)))
      forAll (inputs g.operands) fun path => do
        match ← Task.readOperand path with
        | .error cause =>
          Task.complain (Task.because (Quoting.ifNeeded path) cause)
          return false
        | .ok t =>
          let shown := (Bytes.lines t).flatMap fun l => match line (Bytes.chomp l) with
            | some t => t ++ ['\n']
            | none => []
          Task.write shown
          return true

namespace Translation

/-- An element of a set of characters. -/
inductive Element where
  | chars (cs : Bytes)
  | named (name : Bytes)
  | times (c : Char) (count : Option Nat)

def character (t : Bytes) : Char × Bytes :=
  match t with
  | '\\' :: c :: rest =>
    if Format.isOctal c then
      let (n, after) := Format.upToDigits 8 3 (c :: rest)
      if 255 < n then
        let (n, after) := Format.upToDigits 8 2 (c :: rest)
        (Format.byteOf n, after)
      else (Format.byteOf n, after)
    else ((Format.namedEscape? c).getD c, rest)
  | c :: rest => (c, rest)
  | [] => ('\\', [])

def named? (mark : Char) (t : Bytes) : Option (Bytes × Bytes) :=
  let name := t.takeWhile (· != mark)
  match t.drop name.length with
  | _ :: ']' :: rest => if name.isEmpty then none else some (name, rest)
  | _ => none

def repetition? (t : Bytes) : Option (Option Nat × Bytes) :=
  match t with
  | '*' :: rest =>
    let ds := rest.takeWhile Char.isDigit
    match rest.drop ds.length with
    | ']' :: after =>
      let n := if ds.head? = some '0' then (Format.upToDigits 8 20 ds).1 else Text.decimalValue ds
      some (if n = 0 then none else some n, after)
    | _ => none
  | _ => none

def spelled (c : Char) : Bytes := if Quoting.isPrintable c then [c] else Quoting.escape c

def elements : Nat → Bytes → Except Bytes (List Element)
  | 0, _ => .ok []
  | n + 1, t =>
    match t with
    | [] => .ok []
    | '[' :: ':' :: rest => match named? ':' rest with
      | some (name, rest) =>
        if Pattern.classNames.contains (String.ofList name) then do
          return .named name :: (← elements n rest)
        else .error ("invalid character class ".toList ++ Quoting.words name)
      | none => plain n t
    | '[' :: '=' :: rest => match named? '=' rest with
      | some ([c], rest) => do return .chars [c] :: (← elements n rest)
      | _ => plain n t
    | '[' :: rest =>
      let (c, after) := character rest
      match (if rest.isEmpty then none else repetition? after) with
      | some (count, rest) => do return .times c count :: (← elements n rest)
      | none => plain n t
    | t => plain n t
where
  plain (n : Nat) (t : Bytes) : Except Bytes (List Element) := do
    let (low, rest) := character t
    match rest with
    | '-' :: next :: _ =>
      let (high, after) := character (next :: rest.drop 2)
      if high < low then
        throw ("range-endpoints of '".toList ++ spelled low ++ ['-'] ++ spelled high ++
          "' are in reverse collating sequence order".toList)
      let cs := (List.range (high.toNat - low.toNat + 1)).map fun k => Char.ofNat (low.toNat + k)
      return .chars cs :: (← elements n after)
    | rest => return .chars [low] :: (← elements n rest)

def allChars : Bytes := (List.range 256).map Char.ofNat

def classChars (name : Bytes) : Bytes := allChars.filter (Pattern.inClass name)

def expand (es : List Element) (room : Nat) : Bytes :=
  let size := (es.map fun e => match e with
    | .chars cs => cs.length
    | .named name => (classChars name).length
    | .times _ count => count.getD 0).foldl (· + ·) 0
  es.flatMap fun e => match e with
    | .chars cs => cs
    | .named name => classChars name
    | .times c (some n) => List.replicate n c
    | .times c none => List.replicate (room - size) c

def squeeze (set : Bytes) : Option Char → Bytes → Bytes
  | _, [] => []
  | last, c :: t =>
    if last = some c ∧ set.contains c then squeeze set last t else c :: squeeze set (some c) t

def isCase (name : Bytes) : Bool := name = "upper".toList ∨ name = "lower".toList

def caseMap? (first second : List Element) : Option (Char → Char) :=
  match first, second with
  | [.named a], [.named b] =>
    if isCase a ∧ isCase b then
      some fun c => if !Pattern.inClass a c then c
        else if b = "upper".toList then c.toUpper else c.toLower
    else none
  | _, _ => none

end Translation

open Translation in
def tr (args : List Bytes) : Task Nat := do
  let g ← parse { letters := "cCdst", ordered := true, long := [⟨"complement", 'c', .none⟩,
    ⟨"delete", 'd', .none⟩, ⟨"squeeze-repeats", 's', .none⟩, ⟨"truncate-set1", 't', .none⟩] } args
  let delete := g.has 'd'
  let squeezes := g.has 's'
  let complement := g.has 'c' || g.has 'C'
  let wrong {α : Type} (message : Bytes) (more : String) : Task α := do
    Task.complain message
    if more ≠ "" then Task.errors (more.toList ++ ['\n'])
    Task.errors ("Try '".toList ++ (← Task.name) ++ " --help' for more information.\n".toList)
    Task.end_ 1
  let (one, two) : Bytes × Option Bytes ← match g.operands with
    | [] => missingOperand 1
    | [one] =>
      if delete = squeezes then
        wrong ("missing operand after ".toList ++ Quoting.words one)
          (if delete then "Two strings must be given when both deleting and squeezing repeats."
            else "Two strings must be given when translating.")
      pure (one, none)
    | [one, two] =>
      if delete && !squeezes then
        wrong ("extra operand ".toList ++ Quoting.words two)
          "Only one string may be given when deleting without squeezing repeats."
      pure (one, some two)
    | _ :: _ :: extra :: _ => extraOperand 1 extra
  let read (t : Bytes) : Task (List Element) := do
    match elements (t.length + 1) t with
    | .ok es => return es
    | .error message => Task.fail 1 message
  let first ← read one
  let second ← match two with
    | some t => some <$> read t
    | none => pure none
  let set := expand first 0
  let set := if complement then allChars.filter fun c => !set.contains c else set
  let input ← match ← (Host.readAll 0 : StateM Host _) with
    | .ok t => pure t
    | .error cause => Task.fail 1 (Task.because "read error".toList cause)
  if delete then
    let kept := input.filter fun c => !set.contains c
    Task.write (match second with
      | some es => squeeze (expand es 0) none kept
      | none => kept)
    return 0
  match second with
  | none =>
    Task.write (squeeze set none input)
    return 0
  | some es =>
    let target := expand es set.length
    let classes := es.any fun e => match e with
      | .named name => !isCase name
      | _ => false
    let cases := es.any fun e => match e with
      | .named name => isCase name
      | _ => false
    let casesFirst := first.any fun e => match e with
      | .named name => isCase name
      | _ => false
    if classes then
      Task.fail 1 ("when translating, the only character classes that may appear in\n" ++
        "string2 are 'upper' and 'lower'").toList
    if cases && !casesFirst then
      Task.fail 1 "misaligned [:upper:] and/or [:lower:] construct".toList
    if target.isEmpty && !g.has 't' && !set.isEmpty then
      Task.fail 1 "when not truncating set1, string2 must be non-empty".toList
    let set := if g.has 't' then set.take target.length else set
    let target := target ++ List.replicate (set.length - target.length) (target.getLastD ' ')
    let table : Array Char := (set.zip target).foldl (fun table (a, b) =>
      table.setIfInBounds a.toNat b) allChars.toArray
    let mapped : Char → Char := match (if complement then none else caseMap? first es) with
      | some f => f
      | none => fun c => (table[c.toNat]?).getD c
    let output := input.map mapped
    Task.write (if squeezes then squeeze (expand es set.length) none output else output)
    return 0

end GrammarHeaders.Shell.Utility
