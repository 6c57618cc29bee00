import GrammarHeaders.Shell.Arithmetic
import GrammarHeaders.Shell.Glob
import GrammarHeaders.Shell.State

namespace GrammarHeaders.Shell.Expansion

/-- A piece of an expanded word. -/
inductive Piece where
  | mark
  | kept (glyphs : List Glyph)
  | result (zerosOnly : Bool) (glyphs : List Glyph)

def Piece.glyphs : Piece → List Glyph
  | mark => []
  | kept gs => gs
  | result _ gs => gs

/-- What a word is expanded for. -/
structure Purpose where
  fields : Bool := false
  standsIn : Bool := false
  home : Bool := false
  homes : Bool := false

/-- Runs a command for its output. -/
abbrev Capture := Command → Run Bytes

/-- Fields under construction: finished ones, last first, and the open one, reversed, in which
places of quotes are kept. -/
structure Fields where
  done : List (List (Option Glyph)) := []
  current : List (Option Glyph) := []
  afterBlank : Bool := false
  zerosOnly : Bool := false
  started : Bool := false

def isBlank (c : Char) : Bool := c == ' ' || c == '\t' || c == '\n'

def Fields.addSplit (ifs : Bytes) (zerosOnly afterZeros : Bool) (f : Fields) (g : Glyph) : Fields :=
  let separates := g.char == '\x00' || (!zerosOnly && ifs.contains g.char)
  let blank := separates && isBlank g.char
  if f.afterBlank then
    if blank then { f with current := [] }
    else if separates then { f with current := [], afterBlank := false }
    else { f with current := [some g], afterBlank := false }
  else if separates then
    let afterBlank := !(afterZeros || zerosOnly) && blank
    if f.current.isEmpty && afterBlank then { f with current := [], afterBlank := false }
    else { f with done := f.current :: f.done, current := [], afterBlank }
  else { f with current := some g :: f.current, afterBlank := false }

def Fields.add (ifs : Bytes) (f : Fields) : Piece → Fields
  | .mark => { f with current := none :: f.current }
  | .kept gs => { f with current := (gs.map some).reverse ++ f.current }
  | .result zerosOnly gs =>
    let afterZeros := f.zerosOnly
    let f := { f with afterBlank := false, zerosOnly, started := true }
    gs.foldl (Fields.addSplit ifs zerosOnly afterZeros) f

def fieldsOf (ifs : Bytes) (pieces : List Piece) : List (List Glyph) :=
  let f := pieces.foldl (Fields.add ifs) {}
  let all := if !f.current.isEmpty || (f.started && f.zerosOnly) then f.current :: f.done else f.done
  all.reverse.map fun field => (field.reverse).filterMap id

def optionLetters (options : List Char) : Bytes :=
  "ubaCEVvxsnmiIfe".toList.filter options.contains

def parameter? (name : Bytes) : Run (Option Bytes) := do
  let s ← get
  match name with
  | ['$'] => return some (Bytes.ofNat s.processNumber)
  | ['?'] => return some (Bytes.ofNat s.status)
  | ['#'] => return some (Bytes.ofNat s.args.length)
  | ['!'] => return s.lastBackground.map Bytes.ofNat
  | ['-'] => return some (optionLetters s.options)
  | c :: _ =>
    if c.isDigit then
      let n := Text.decimalValue name
      if n = 0 then return some s.arg0 else return s.args[n - 1]?
    else Run.value? name
  | [] => return none

def joined (separator : Option Char) (args : List Bytes) : Bytes :=
  Bytes.join separator.toList args

def ifsSeparator (ifs : Option Bytes) : Option Char :=
  match ifs with
  | none => some ' '
  | some t => t.head?

def parameterPieces (purpose : Purpose) (quoted : Bool) (name : Bytes) :
    Run (Option (Bytes × List Piece)) := do
  let args := (← get).args
  let ifs ← Run.separators
  if name = ['@'] ∨ name = ['*'] then
    if quoted ∧ name = ['@'] ∧ purpose.fields then
      let t := joined (some '\x00') args
      if args.isEmpty then return some ([], [])
      return some (t, [.result true (Glyph.ofBytes true t)])
    else
      let separator : Option Char :=
        if !quoted ∧ purpose.fields then some ((ifsSeparator ifs).getD '\x00') else ifsSeparator ifs
      let t := joined separator args
      return some (t, if quoted then [.kept (Glyph.ofBytes true t)]
        else [.result false (Glyph.ofBytes false t)])
  else
    match ← parameter? name with
    | none => return none
    | some t => return some (t, if quoted then [.kept (Glyph.ofBytes true t)]
        else [.result false (Glyph.ofBytes false t)])

def homeOf (user : Bytes) : Run (Option Bytes) := do
  if user.isEmpty then Run.value? "HOME".toList
  else if user = "root".toList then return some "/root".toList
  else return none

def homePieces (atFront : Bool) (homes : Bool) (more : Bool) (t : Bytes) : Run (List Piece) := do
  let plain (t : Bytes) : List Piece := if t.isEmpty then [] else [.kept (Glyph.ofBytes false t)]
  let expandOne (t : Bytes) (last : Bool) : Run (List Piece) := do
    match t with
    | '~' :: rest =>
      let user := rest.takeWhile (· != '/')
      let after := rest.drop user.length
      if after.isEmpty && last && more then return plain t
      match ← homeOf user with
      | some home => return [.mark, .kept (Glyph.ofBytes true home)] ++ plain after
      | none => return plain t
    | t => return plain t
  if homes then
    let parts := Text.splitOn ':' t
    let count := parts.length
    let mut pieces : List Piece := []
    for (part, i) in parts.zipIdx do
      let last := i + 1 == count
      if i != 0 then pieces := pieces ++ plain [':']
      pieces := pieces ++ (← if i == 0 && !atFront then pure (plain part) else expandOne part last)
    return pieces
  else if atFront then expandOne t true
  else return plain t

def outputText (t : Bytes) : Bytes :=
  Bytes.dropEndWhile (· == '\n') (t.filter (· != '\x00'))

def textOf (pieces : List Piece) : Bytes := pieces.flatMap fun p => Glyph.bytes p.glyphs

def missing {α : Type} (name : Bytes) (message : Bytes) : Run α :=
  Run.fault (name ++ ": ".toList ++ message)

def expandParameter (inner : Purpose → Word → Run (List Piece)) (purpose : Purpose) (quoted : Bool)
    (name : Bytes) (op : Operator) (word : Word) : Run (List Piece) := do
  if op = .unknown then Run.faultWords "Bad substitution"
  let found ← parameterPieces purpose quoted name
  let strict ← Run.hasOption 'u'
  let isSet (colon : Bool) : Bool := match found with
    | none => false
    | some (t, _) => !colon || !t.isEmpty
  let value : List Piece := match found with
    | some (_, pieces) => pieces
    | none => []
  let asResult (t : Bytes) : List Piece :=
    if quoted then [.kept (Glyph.ofBytes true t)] else [.result false (Glyph.ofBytes false t)]
  let substitute : Run (List Piece) :=
    inner { purpose with standsIn := !quoted, home := true } word
  match op with
  | .orElse colon => if isSet colon then return value else substitute
  | .instead colon => if isSet colon then substitute else return []
  | .orAssign colon =>
    if isSet colon then return value
    if !Bytes.isName name then Run.fault (name ++ ": bad variable name".toList)
    let t := textOf (← inner { home := true } word)
    Run.assign name t
    return asResult t
  | .orFail colon =>
    if isSet colon then return value
    let message ← if word.isEmpty then
        pure ("parameter not set".toList ++ if colon then " or null".toList else [])
      else textOf <$> inner { home := true } word
    missing name message
  | _ =>
    if strict && found.isNone then missing name "parameter not set".toList
    match op, found with
    | .size, some (t, _) => return asResult (Bytes.ofNat t.length)
    | .size, none => return asResult ['0']
    | .dropFront longest, some (t, pieces) => do
      let pattern := Pattern.ofGlyphs ((← inner { home := true } word).flatMap Piece.glyphs)
      let kept := Pattern.dropFront longest pattern t
      return trim pieces t.length (t.length - kept.length) kept.length
    | .dropBack longest, some (t, pieces) => do
      let pattern := Pattern.ofGlyphs ((← inner { home := true } word).flatMap Piece.glyphs)
      let kept := Pattern.dropBack longest pattern t
      return trim pieces t.length 0 kept.length
    | .dropFront _, none | .dropBack _, none => do
      let _ ← inner { home := true } word
      return []
    | _, _ => return value
where
  trim (pieces : List Piece) (_whole front size : Nat) : List Piece :=
    pieces.map fun p => match p with
      | .mark => .mark
      | .kept gs => .kept ((gs.drop front).take size)
      | .result zerosOnly gs => .result zerosOnly ((gs.drop front).take size)

def evaluate (t : Bytes) : Run Bytes := do
  let s ← get
  let vars (name : Bytes) : Option Bytes := (s.variables_.lookup name).bind Variable.value
  match Arithmetic.eval vars t with
  | .ok (n, changed) =>
    changed.reverse.forM fun (name, value) => Run.assign name value
    return Bytes.ofInt n
  | .error (.expression words) =>
    Run.fault ("arithmetic expression: ".toList ++ words.toList ++ ": \"".toList ++ t ++ ['"'])
  | .error (.illegalNumber value) => Run.fault ("Illegal number: ".toList ++ value)

/-- Expand one part; `first` says that nothing stands before it, and `more` that something stands
behind it. -/
def expandPart (capture : Capture) (inner : Purpose → Word → Run (List Piece)) (purpose : Purpose)
    (first more : Bool) (part : Part) : Run (List Piece) := do
  match part with
  | .mark => return [.mark]
  | .stop => return []
  | .text true t => return [.kept (Glyph.ofBytes true t)]
  | .text false t => do
    let pieces ← homePieces (first && purpose.home) purpose.homes more t
    if !purpose.standsIn then return pieces
    return pieces.map fun p => match p with
      | .kept gs => if gs.any Glyph.quoted then p else .result false gs
      | p => p
  | .param quoted name op word => expandParameter inner purpose quoted name op word
  | .output quoted body => do
    let t := outputText (← capture body)
    return if quoted then [.kept (Glyph.ofBytes true t)] else [.result false (Glyph.ofBytes false t)]
  | .value quoted expression => do
    let t ← evaluate (textOf (← inner {} expression))
    return if quoted then [.kept (Glyph.ofBytes true t)] else [.result false (Glyph.ofBytes false t)]

def expandWord (capture : Capture) : Nat → Purpose → Word → Run (List Piece)
  | 0, _, _ => return []
  | n + 1, purpose, word => do
    let word := word.takeWhile fun part => match part with
      | .stop => false
      | _ => true
    let count := word.length
    let parts ← word.zipIdx.mapM fun (part, i) =>
      expandPart capture (expandWord capture n) purpose (i == 0) (i + 1 < count) part
    return parts.flatten

def depthLimit : Nat := 500

def pieces (capture : Capture) (purpose : Purpose) (word : Word) : Run (List Piece) :=
  expandWord capture depthLimit purpose word

def text (capture : Capture) (word : Word) : Run Bytes := do
  return textOf (← pieces capture { home := true } word)

def assigned (capture : Capture) (word : Word) : Run Bytes := do
  return textOf (← pieces capture { home := true, homes := true } word)

def document (capture : Capture) (word : Word) : Run Bytes := do
  return textOf (← pieces capture {} word)

def pattern (capture : Capture) (word : Word) : Run (List Pattern.Token) := do
  return Pattern.ofGlyphs ((← pieces capture { home := true } word).flatMap Piece.glyphs)

def fields (capture : Capture) (word : Word) : Run (List Bytes) := do
  let ps ← pieces capture { fields := true, home := true } word
  let ifs := (← Run.separators).getD " \t\n".toList
  let found := fieldsOf ifs ps
  if ← Run.hasOption 'f' then return found.map Glyph.bytes
  let d ← Run.disk
  return found.flatMap fun field =>
    if field.any Pattern.isMeta then
      match Glob.expand d field with
      | [] => [Glyph.bytes field]
      | paths => paths
    else [Glyph.bytes field]

end GrammarHeaders.Shell.Expansion
