import GrammarHeaders.Toml.Scalar

namespace GrammarHeaders.Toml

/-- How a table under construction came into being. -/
inductive Origin where
  /-- By a header or by braces. -/
  | explicit
  /-- As a part of a longer header. -/
  | implied
  /-- As a part of a dotted key. -/
  | dotted
  deriving DecidableEq, Repr

/-- A document under construction. -/
inductive Node where
  | value (v : Value)
  | table (origin : Origin) (entries : List (String × Node))
  | tables (items : List (List (String × Node)))

/-- The entries of a table under construction. -/
abbrev Entries := List (String × Node)

namespace Entries

def get? (t : Entries) (key : String) : Option Node :=
  match t with
  | [] => none
  | (k, n) :: rest => if k = key then some n else get? rest key

def set (t : Entries) (key : String) (node : Node) : Entries :=
  match t with
  | [] => [(key, node)]
  | (k, n) :: rest => if k = key then (key, node) :: rest else (k, n) :: set rest key node

def erase (t : Entries) (key : String) : Entries := t.filter fun entry => entry.1 != key

/-- Change the table that a header leads to, bringing implied tables into being. A part that names
an array of tables leads to its last table. -/
def atHeader {α : Type} (change : Entries → Option (α × Entries)) :
    List String → Entries → Option (α × Entries)
  | [], t => change t
  | key :: path, t => match get? t key with
    | none => do
      let (a, inner) ← atHeader change path []
      some (a, set t key (.table .implied inner))
    | some (.table origin inner) => do
      let (a, inner) ← atHeader change path inner
      some (a, set t key (.table origin inner))
    | some (.tables items) => match items.reverse with
      | [] => none
      | last :: front => do
        let (a, last) ← atHeader change path last
        some (a, set t key (.tables (last :: front).reverse))
    | some (.value _) => none

/-- Add a key behind dotted parts. The parts do not lead through a table that a header defines,
and the last of them is a table that dotted keys alone have brought into being; `mayInsert` says
whether that holds of `t`. -/
def insertDotted (key : String) (node : Node) (mayInsert : Bool) : List String → Entries → Option Entries
  | [], t => if mayInsert && (get? t key).isNone then some (set t key node) else none
  | part :: path, t => match get? t part with
    | none => do
      let inner ← insertDotted key node true path []
      some (set t part (.table .dotted inner))
    | some (.table .explicit _) => none
    | some (.table origin inner) => do
      let inner ← insertDotted key node (origin == .dotted) path inner
      some (set t part (.table origin inner))
    | some (.tables items) => match items.reverse with
      | [] => none
      | last :: front => do
        let last ← insertDotted key node false path last
        some (set t part (.tables (last :: front).reverse))
    | some (.value _) => none

end Entries

mutual

def Node.toValue : Node → Value
  | .value v => v
  | .table _ entries => .table (tableOfEntries entries)
  | .tables items => .array (arrayOfTables items)
termination_by structural n => n

def tableOfEntries : List (String × Node) → Table
  | [] => []
  | (key, node) :: rest => (key, node.toValue) :: tableOfEntries rest
termination_by structural entries => entries

def arrayOfTables : List (List (String × Node)) → List Value
  | [] => []
  | entries :: rest => .table (tableOfEntries entries) :: arrayOfTables rest
termination_by structural items => items

end

namespace Document

def depthLimit : Nat := 79

def isBareKey (c : Char) : Bool := c.isAlphanum || c == '_' || c == '-'

def keyPart? : Reader String
  | [] => none
  | c :: t =>
    if c = '"' ∨ c = '\'' then Scalar.quoted? (c :: t)
    else
      let bare := (c :: t).takeWhile isBareKey
      if bare.isEmpty then none else some (String.ofList bare, (c :: t).drop bare.length)

def keyParts : Nat → Reader (List String)
  | 0, _ => none
  | fuel + 1, t => do
    let (part, t) ← keyPart? (Scalar.dropSpaces t)
    match Scalar.dropSpaces t with
    | '.' :: rest => do
      let (parts, rest) ← keyParts fuel rest
      some (part :: parts, rest)
    | rest => some ([part], rest)

def key? (t : Text) : Option (List String × Text) := keyParts depthLimit t

def dropComment (t : Text) : Text :=
  match Scalar.dropSpaces t with
  | '#' :: t => t.dropWhile Scalar.isPlain
  | t => t

def dropGap : Nat → Text → Text
  | 0, t => t
  | fuel + 1, t => match Scalar.newline? (dropComment t) with
    | some rest => dropGap fuel rest
    | none => Scalar.dropSpaces t

mutual

/-- A value. `depth` bounds how many arrays and inline tables may contain each other, and `fuel`
the number of steps. -/
def value (fuel depth : Nat) (t : Text) : Option (Value × Text) :=
  match fuel with
  | 0 => none
  | fuel + 1 =>
    match depth, t with
    | depth + 1, '[' :: rest => do
      let (items, rest) ← arrayItems fuel depth (dropGap rest.length rest)
      some (.array items, rest)
    | depth + 1, '\x7b' :: rest => do
      let (entries, rest) ← inlineEntries fuel depth [] (Scalar.dropSpaces rest)
      some (.table (tableOfEntries entries), rest)
    | _, t => Scalar.parse? t

def arrayItems (fuel depth : Nat) (t : Text) : Option (List Value × Text) :=
  match fuel with
  | 0 => none
  | fuel + 1 =>
    match t with
    | ']' :: rest => some ([], rest)
    | t => do
      let (item, rest) ← value fuel depth t
      match dropGap rest.length rest with
      | ',' :: rest => do
        let (items, rest) ← arrayItems fuel depth (dropGap rest.length rest)
        some (item :: items, rest)
      | ']' :: rest => some ([item], rest)
      | _ => none

def inlineEntries (fuel depth : Nat) (done : Entries) (t : Text) : Option (Entries × Text) :=
  match fuel with
  | 0 => none
  | fuel + 1 =>
    match done, t with
    | [], '\x7d' :: rest => some ([], rest)
    | done, t => do
      let (parts, rest) ← key? t
      let last ← parts.getLast?
      match rest with
      | '=' :: rest => do
        let (v, rest) ← value fuel depth (Scalar.dropSpaces rest)
        let done ← done.insertDotted last (.value v) true parts.dropLast
        match Scalar.dropSpaces rest with
        | ',' :: rest => inlineEntries fuel depth done (Scalar.dropSpaces rest)
        | '\x7d' :: rest => some (done, rest)
        | _ => none
      | _ => none

end

/-- The document so far: the finished tables, and the table that keys go to. -/
structure Builder where
  root : Entries := []
  path : List String := []
  isItem : Bool := false
  current : Entries := []

namespace Builder

def finish? (b : Builder) : Option Entries :=
  match b.path.getLast? with
  | none => some b.current
  | some key => do
    let place (parent : Entries) : Option (Unit × Entries) :=
      if b.isItem then
        match parent.get? key with
        | none => some ((), parent.set key (.tables [b.current]))
        | some (.tables items) => some ((), parent.set key (.tables (items ++ [b.current])))
        | some _ => none
      else some ((), parent.set key (.table .explicit b.current))
    let (_, root) ← Entries.atHeader place b.path.dropLast b.root
    some root

def startTable? (b : Builder) (path : List String) : Option Builder := do
  let key ← path.getLast?
  let takeUp (parent : Entries) : Option (Entries × Entries) :=
    match parent.get? key with
    | none => some ([], parent)
    | some (.table .implied inner) => some (inner, parent.erase key)
    | some _ => none
  let (current, root) ← Entries.atHeader takeUp path.dropLast (← b.finish?)
  some ⟨root, path, false, current⟩

def startItem? (b : Builder) (path : List String) : Option Builder := do
  let key ← path.getLast?
  let check (parent : Entries) : Option (Unit × Entries) :=
    match parent.get? key with
    | none | some (.tables _) => some ((), parent)
    | some _ => none
  let (_, root) ← Entries.atHeader check path.dropLast (← b.finish?)
  some ⟨root, path, true, []⟩

def insert? (b : Builder) (parts : List String) (v : Value) : Option Builder := do
  let key ← parts.getLast?
  let current ← b.current.insertDotted key (.value v) true parts.dropLast
  some { b with current }

end Builder

def endOfLine? (t : Text) : Option Text :=
  match dropComment t with
  | [] => some []
  | t => Scalar.newline? t

def statement (b : Builder) (t : Text) : Option (Builder × Text) :=
  match t with
  | '[' :: '[' :: rest => do
    let (path, rest) ← key? rest
    match rest with
    | ']' :: ']' :: rest => some (← b.startItem? path, ← endOfLine? rest)
    | _ => none
  | '[' :: rest => do
    let (path, rest) ← key? rest
    match rest with
    | ']' :: rest => some (← b.startTable? path, ← endOfLine? rest)
    | _ => none
  | t => do
    let (parts, rest) ← key? t
    match rest with
    | '=' :: rest => do
      let rest := Scalar.dropSpaces rest
      let (v, rest) ← value (2 * rest.length + 2) depthLimit rest
      some (← b.insert? parts v, ← endOfLine? rest)
    | _ => none

def statements : Nat → Builder → Text → Option Builder
  | 0, _, _ => none
  | fuel + 1, b, t =>
    match Scalar.dropSpaces t with
    | [] => some b
    | '#' :: rest => do statements fuel b (← endOfLine? ('#' :: rest))
    | t => match Scalar.newline? t with
      | some rest => statements fuel b rest
      | none => do
        let (b, rest) ← statement b t
        statements fuel b rest

def parse? (t : Text) : Option Table := do
  let t := if t.head? = some '\ufeff' then t.tail else t
  let b ← statements (t.length + 1) {} t
  let entries ← b.finish?
  some (tableOfEntries entries)

end Document

end GrammarHeaders.Toml
