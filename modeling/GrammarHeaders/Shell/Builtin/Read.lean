import GrammarHeaders.Shell.Builtin.Settings
import GrammarHeaders.Shell.Expansion

namespace GrammarHeaders.Shell.Builtin

/-- Take backslashes out of a line: the character behind one stands for itself. Whether the line
goes on is said too. -/
def unquoteLine : Bytes → List Glyph × Bool
  | [] => ([], false)
  | ['\\'] => ([], false)
  | ['\\', '\n'] => ([], true)
  | '\\' :: c :: t =>
    let (gs, more) := unquoteLine t
    (⟨c, true⟩ :: gs, more)
  | c :: t =>
    let (gs, more) := unquoteLine t
    (if c = '\n' then gs else ⟨c, false⟩ :: gs, more)

def separates (ifs : Bytes) (g : Glyph) : Bool := !g.quoted && ifs.contains g.char

def separatesBlank (ifs : Bytes) (g : Glyph) : Bool := separates ifs g && Expansion.isBlank g.char

def firstField (ifs : Bytes) (gs : List Glyph) : List Glyph × List Glyph :=
  let field := gs.takeWhile fun g => !separates ifs g
  let rest := gs.drop field.length
  let rest := rest.dropWhile (separatesBlank ifs)
  match rest with
  | g :: after =>
    if separates ifs g && !Expansion.isBlank g.char then
      (field, after.dropWhile (separatesBlank ifs))
    else (field, rest)
  | [] => (field, [])

/-- What the last variable gets: the rest of the line without blanks at its end, and without a
single separator that stands behind a single field. -/
def lastField (ifs : Bytes) (gs : List Glyph) : Bytes :=
  let trimmed := (gs.reverse.dropWhile (separatesBlank ifs)).reverse
  let (field, rest) := firstField ifs gs
  if rest.isEmpty then Glyph.bytes field else Glyph.bytes trimmed

def splitLine (ifs : Bytes) : List Bytes → List Glyph → List (Bytes × Bytes)
  | [], _ => []
  | [name], gs => [(name, lastField ifs gs)]
  | name :: names, gs =>
    let (field, rest) := firstField ifs gs
    (name, Glyph.bytes field) :: splitLine ifs names rest

def readLine (raw : Bool) : Nat → Run (List Glyph × Bool)
  | 0 => return ([], false)
  | n + 1 => do
    match ← Run.onHost (Host.readWith 0 (Host.upTo '\n')) with
    | .error _ => return ([], false)
    | .ok line =>
      let line := line.filter (· != '\x00')
      let whole := line.getLast? == some '\n'
      if raw then return (Glyph.ofBytes false line.dropLast ++
        (if whole then [] else Glyph.ofBytes false (line.getLast?.toList)), whole)
      let (gs, more) := unquoteLine line
      if more then
        let (others, whole) ← readLine raw n
        return (gs ++ others, whole)
      return (gs, whole)

def readOptions : Nat → Bool → List Bytes → Run (Bool × List Bytes)
  | 0, raw, args => return (raw, args)
  | n + 1, raw, args => match args with
    | ['-', '-'] :: rest => return (raw, rest)
    | ['-', 'r'] :: rest => readOptions n true rest
    | ['-', 'p'] :: _ :: rest => readOptions n raw rest
    | ['-', 'p'] :: [] => Run.faultWords "No arg for -p option"
    | ('-' :: 'p' :: _ :: _) :: rest => readOptions n raw rest
    | ('-' :: 'r' :: more) :: rest => readOptions n true (('-' :: more) :: rest)
    | ('-' :: c :: _) :: _ => Run.fault ("Illegal option -".toList ++ [c])
    | args => return (raw, args)

def read (args : List Bytes) : Run Nat := do
  let (raw, names) ← readOptions (args.length * 4 + 1) false args
  if names.isEmpty then Run.faultWords "arg count"
  names.forM checkName
  let (gs, whole) ← readLine raw 100000
  let ifs := (← Run.separators).getD " \t\n".toList
  let gs := gs.dropWhile (separatesBlank ifs)
  for (name, value) in splitLine ifs names gs do
    Run.assign name value
  return if whole then 0 else 1

end GrammarHeaders.Shell.Builtin
