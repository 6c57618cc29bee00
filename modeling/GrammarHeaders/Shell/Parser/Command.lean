import GrammarHeaders.Shell.Parser.Word

namespace GrammarHeaders.Shell.Parse

/-- What is asked for: a list of commands, or a single command. -/
inductive Goal where
  | line
  | block
  | branch
  | single
  deriving DecidableEq, Repr

/-- Reads commands; none may be there. -/
abbrev Reads := Goal → Parse (Option Command)

/-- Which words are taken for something else. -/
structure Attention where
  newlines : Bool := false
  keywords : Bool := false
  aliases : Bool := false

def Attention.start : Attention := ⟨true, true, true⟩

def redirectKind (out : Bool) : Parse RedirectKind := do
  if out then
    if ← skipIf '>' then return .file .append
    else if ← skipIf '|' then return .file .clobber
    else if ← skipIf '&' then return .same true
    else return .file .write
  else
    if ← skipIf '<' then return .document (← skipIf '-')
    else if ← skipIf '&' then return .same false
    else if ← skipIf '>' then return .file .readWrite
    else return .file .read

def wordOrRedirect (g : Grammar) (mode : Mode) : Parse Token := do
  let arrow (fd : Option Nat) (c : Char) : Parse Token := do
    skip
    let kind ← redirectKind (c == '>')
    return .redirect (fd.getD (if c == '>' then 1 else 0)) kind
  match ← peek with
  | some '<' => arrow none '<'
  | some '>' => arrow none '>'
  | _ => do
    let w ← g.piece mode
    match w, ← peek with
    | [.text false [d]], some '<' => if d.isDigit then arrow (some (d.toNat - 48)) '<' else return .word w
    | [.text false [d]], some '>' => if d.isDigit then arrow (some (d.toNat - 48)) '>' else return .word w
    | _, _ => return .word w

def skipBlanks : Parse Unit := do
  let step (_ : Unit) : Parse (Unit ⊕ Unit) := do
    match ← peek with
    | some ' ' | some '\t' =>
      skip
      return .inl ()
    | some '#' =>
      modify fun s => { s with rest := s.rest.dropWhile (· != '\n') }
      return .inl ()
    | _ => return .inr ()
  iterate step pure ((← get).rest.length + 1) ()

def scan (g : Grammar) (mode : Mode) : Parse Token := do
  skipBlanks
  let operator (t : Token) : Parse Token := do
    skip
    return t
  let double (c : Char) (one two : Token) : Parse Token := do
    skip
    if ← skipIf c then return two else return one
  match ← peek with
  | none => return .endOfFile
  | some '\n' => operator .newline
  | some '&' => double '&' .ampersand .and
  | some '|' => double '|' .pipe .or
  | some ';' => double ';' .semicolon .endCase
  | some '(' => operator .leftParen
  | some ')' => operator .rightParen
  | _ => wordOrRedirect g mode

def rawToken (g : Grammar) (mode : Mode) : Parse Token := do
  let s ← get
  match s.pushed with
  | some t =>
    set { s with pushed := none }
    return t
  | none => scan g mode

def putBack (t : Token) : Parse Unit := modify fun s => { s with pushed := some t }

def useAlias (name : Bytes) : Parse Bool := do
  let s ← get
  let replacing := s.replacing.filter fun r => r.after < s.rest.length
  match s.aliases.lookup name with
  | some t =>
    if replacing.any fun r => r.name == name then return false
    else
      let goesOn := t.getLast? = some ' ' ∨ t.getLast? = some '\t'
      set { s with rest := t ++ s.rest, replacing := ⟨name, s.rest.length, goesOn⟩ :: replacing }
      return true
  | none => return false

def token (g : Grammar) (a : Attention) (mode : Mode) : Parse Token := do
  let step (_ : Unit) : Parse (Unit ⊕ Token) := do
    let before ← get
    let t ← rawToken g mode
    let after := (← get).rest.length
    let behindAlias := before.replacing.any fun r =>
      r.goesOn && r.after < before.rest.length && after < r.after
    match t with
    | .newline =>
      if a.newlines then
        documents g
        return .inl ()
      else return .inr t
    | .word w => match Part.plain? w with
      | none => return .inr t
      | some name =>
        match (if a.keywords then Keyword.ofText? name else none) with
        | some k => return .inr (.keyword k)
        | none =>
          if a.aliases || behindAlias then
            if ← useAlias name then return .inl () else return .inr t
          else return .inr t
    | t => return .inr t
  iterate step (fun _ => pure .endOfFile) (2 * (← get).rest.length + 1000) ()

def redirectTarget (g : Grammar) (fd : Nat) (kind : RedirectKind) : Parse Redirect := do
  let mode : Mode := match kind with
    | .document _ => .ending
    | _ => .word
  let t ← token g {} mode
  match t with
  | .word w => match kind with
    | .file opening => return .file fd opening w
    | .same _ => match Part.plain? w with
      | some ['-'] => return .close fd
      | some [d] => if d.isDigit then return .same fd (d.toNat - 48) else return .named fd w
      | _ => return .named fd w
    | .document dropTabs => do
      let s ← get
      let a : Announced := ⟨s.nextDocument, Part.literal w, !w.any Part.isQuoted, dropTabs⟩
      set { s with announced := s.announced ++ [a], nextDocument := s.nextDocument + 1 }
      return .document fd a.number
  | t => unexpected t none

def trailingRedirects (g : Grammar) : Parse (List Redirect) := do
  let step (done : List Redirect) : Parse (List Redirect ⊕ List Redirect) := do
    match ← token g ⟨false, true, true⟩ .word with
    | .redirect fd kind => return .inl ((← redirectTarget g fd kind) :: done)
    | t =>
      putBack t
      return .inr done.reverse
  iterate step (fun done => pure done.reverse) ((← get).rest.length + 2) []

def needed (c : Option Command) : Command := c.getD .nothing

def expect (g : Grammar) (k : Keyword) (a : Attention) : Parse Unit := do
  let t ← token g a .word
  if t.isKeyword k then pure () else unexpected t (some (.keyword k))

def conditional (g : Grammar) (reads : Reads) : Parse Command := do
  let clause : Parse (Command × Command) := do
    let test := needed (← reads .block)
    expect g .then {}
    return (test, needed (← reads .block))
  let first ← clause
  let step (done : List (Command × Command)) :
      Parse (List (Command × Command) ⊕ (List (Command × Command) × Option Command)) := do
    let t ← token g {} .word
    if t.isKeyword .elif then return .inl ((← clause) :: done)
    else if t.isKeyword .else then return .inr (done, some (needed (← reads .block)))
    else
      putBack t
      return .inr (done, none)
  let (clauses, last) ← iterate step (fun done => pure (done, none)) ((← get).rest.length + 2) [first]
  match clauses.foldl (fun (rest : Option Command) (c : Command × Command) =>
      some (.choice c.1 c.2 rest)) last with
  | some c => return c
  | none => return .nothing

def loopItems (g : Grammar) : Parse (List Word) := do
  let step (done : List Word) : Parse (List Word ⊕ List Word) := do
    match ← token g {} .word with
    | .word w => return .inl (w :: done)
    | .newline | .semicolon => return .inr done.reverse
    | t => unexpected t none
  iterate step (fun done => pure done.reverse) ((← get).rest.length + 2) []

def forLoop (g : Grammar) (reads : Reads) (line : Nat) : Parse Command := do
  match ← token g {} .word with
  | .word w => match Part.plain? w with
    | some name =>
      if !Bytes.isName name then fail "Bad for loop variable"
      let t ← token g .start .word
      let items ←
        if t.isKeyword .in then loopItems g
        else do
          match t with
          | .semicolon => pure ()
          | t => putBack t
          pure [[.param true ['@'] .plain []]]
      expect g .do .start
      return .forEach line name items (needed (← reads .block))
    | none => fail "Bad for loop variable"
  | _ => fail "Bad for loop variable"

def patterns (g : Grammar) (first : Token) : Parse (List Word) := do
  let step (s : Token × List Word) : Parse ((Token × List Word) ⊕ List Word) := do
    let w ← match s.1 with
      | .word w => pure w
      | .keyword k => pure [.text false k.spelling.toList]
      | _ => pure []
    match ← token g {} .word with
    | .pipe => return .inl (← token g {} .word, w :: s.2)
    | .rightParen => return .inr (w :: s.2).reverse
    | t => unexpected t (some .rightParen)
  iterate step (fun s => pure s.2.reverse) ((← get).rest.length + 2) (first, [])

abbrev Branch := List Word × Option Command

def caseCommand (g : Grammar) (reads : Reads) (line : Nat) : Parse Command := do
  match ← token g {} .word with
  | .word subject => do
    expect g .in .start
    let step (s : Token × List Branch) : Parse ((Token × List Branch) ⊕ List Branch) := do
      let (t, done) := s
      if t.isKeyword .esac then return .inr done.reverse
      else
        let t ← match t with
          | .leftParen => token g {} .word
          | t => pure t
        let ps ← patterns g t
        let body ← reads .branch
        let branch : Branch := (ps, body)
        let t ← token g ⟨true, true, false⟩ .word
        if t.isKeyword .esac then return .inr (branch :: done).reverse
        else match t with
          | .endCase => return .inl (← token g ⟨true, true, false⟩ .word, branch :: done)
          | t => unexpected t (some .endCase)
    let first ← token g ⟨true, true, false⟩ .word
    let branches ← iterate step (fun s => pure s.2.reverse) ((← get).rest.length + 2) (first, [])
    return .select line subject branches
  | t => unexpected t (some (.word []))

def specialNames : List String :=
  [".", ":", "break", "continue", "eval", "exec", "exit", "export", "local", "readonly", "return",
   "set", "shift", "times", "trap", "unset"]

/-- A command under construction. -/
structure Gathered where
  assignments : List Word := []
  words : List Word := []
  redirects : List Redirect := []

def Gathered.command (line : Nat) (c : Gathered) : Command :=
  .simple line c.assignments.reverse c.words.reverse c.redirects.reverse

def simpleCommand (g : Grammar) (reads : Reads) : Parse Command := do
  let line := (← get).line
  let step (c : Gathered) : Parse (Gathered ⊕ Command) := do
    let front := c.words.isEmpty
    let t ← token g ⟨false, false, front⟩ .word
    match t with
    | .word w =>
      if front && (Part.assignment? w).isSome then
        return .inl { c with assignments := w :: c.assignments }
      else return .inl { c with words := w :: c.words }
    | .redirect fd kind =>
      return .inl { c with redirects := (← redirectTarget g fd kind) :: c.redirects }
    | .leftParen => match c with
      | ⟨[], [name], []⟩ => do
        match ← token g {} .word with
        | .rightParen => pure ()
        | t => unexpected t (some .rightParen)
        match Part.plain? name with
        | some name =>
          if !Bytes.isName name || specialNames.contains (String.ofList name) then
            fail "Bad function name"
          let first ← token g .start .word
          putBack first
          let line := (← get).line
          let body ← reads .single
          return .inr (.define name line (needed body))
        | none => fail "Bad function name"
      | _ =>
        putBack t
        return .inr (c.command line)
    | t =>
      putBack t
      return .inr (c.command line)
  iterate step (fun c => pure (c.command line)) ((← get).rest.length + 2) {}

def command (g : Grammar) (reads : Reads) (a : Attention) : Parse Command := do
  let line := (← get).line
  let t ← token g a .word
  let closed (k : Keyword) (c : Command) : Parse Command := do
    expect g k {}
    return c
  let compound : Option (Parse Command) := match t with
    | .keyword .if => some (do closed .fi (← conditional g reads))
    | .keyword .while => some do
      let test := needed (← reads .block)
      expect g .do {}
      closed .done (.loop false test (needed (← reads .block)))
    | .keyword .until => some do
      let test := needed (← reads .block)
      expect g .do {}
      closed .done (.loop true test (needed (← reads .block)))
    | .keyword .for => some do closed .done (← forLoop g reads line)
    | .keyword .case => some (caseCommand g reads line)
    | .keyword .open => some do closed .close (needed (← reads .block))
    | .leftParen => some do
      let body := needed (← reads .block)
      match ← token g {} .word with
      | .rightParen => return .subshell line body []
      | t => unexpected t (some .rightParen)
    | _ => none
  match compound with
  | some read => do
    let c ← read
    let redirects ← trailingRedirects g
    match c, redirects with
    | c, [] => return c
    | .subshell line body [], redirects => return .subshell line body redirects
    | c, redirects => return .redirected line c redirects
  | none => match t with
    | .word _ | .redirect .. => do
      putBack t
      simpleCommand g reads
    | t => unexpected t none

def pipeline (g : Grammar) (reads : Reads) (a : Attention) : Parse Command := do
  let t ← token g a .word
  let negated := t.isKeyword .bang
  let first ← if negated then command g reads ⟨false, true, true⟩
    else do
      putBack t
      command g reads a
  let step (done : List Command) : Parse (List Command ⊕ List Command) := do
    match ← token g {} .word with
    | .pipe => return .inl ((← command g reads .start) :: done)
    | t =>
      putBack t
      return .inr done.reverse
  let commands ← iterate step (fun done => pure done.reverse) ((← get).rest.length + 2) [first]
  let c := match commands with
    | [c] => c
    | commands => .pipeline commands
  return if negated then .negated c else c

def andOr (g : Grammar) (reads : Reads) : Parse Command := do
  let first ← pipeline g reads {}
  let step (c : Command) : Parse (Command ⊕ Command) := do
    match ← token g {} .word with
    | .and => return .inl (.both c (← pipeline g reads .start))
    | .or => return .inl (.either c (← pipeline g reads .start))
    | t =>
      putBack t
      return .inr c
  iterate step pure ((← get).rest.length + 2) first

def inBackground : Command → Command
  | .redirected line body redirects => .background line body redirects
  | c => .background 0 c []

def andThen (done : Option Command) (c : Command) : Command :=
  match done with
  | none => c
  | some first => .sequence first c

def list (g : Grammar) (reads : Reads) (goal : Goal) : Parse (Option Command) := do
  let line := goal == .line
  let step (s : Bool × Option Command) : Parse ((Bool × Option Command) ⊕ Option Command) := do
    let (started, done) := s
    let t ← token g ⟨!line, true, true⟩ .word
    match t with
    | .newline => do
      documents g
      return .inr (some (needed done))
    | .endOfFile => do
      documents g
      putBack t
      return .inr done
    | t => do
      putBack t
      if !line && (started || goal == .branch) && t.endsList then return .inr done
      let c ← andOr g reads
      let t ← token g {} .word
      match t with
      | .ampersand => return .inl (true, some (andThen done (inBackground c)))
      | .semicolon => return .inl (true, some (andThen done c))
      | .newline => do
        putBack t
        return .inl (true, some (andThen done c))
      | .endOfFile => do
        documents g
        putBack t
        return .inr (some (andThen done c))
      | t =>
        if line then unexpected t none
        putBack t
        return .inr (some (andThen done c))
  iterate step (fun s => pure s.2) ((← get).rest.length + 3) (false, none)

def depthLimit : Nat := 400

def reads : Nat → Goal → Parse (Option Command)
  | 0, _ => fail "commands nested too deeply"
  | n + 1, goal =>
    let g : Grammar := {
      piece := pieces n
      commands := do
        let c ← reads n .branch
        let s ← get
        match s.pushed with
        | some .rightParen => set { s with pushed := none }
        | some t => unexpected t (some .rightParen)
        | none => fail "end of file unexpected (expecting \")\")"
        return needed c
      inner := inner n }
    match goal with
    | .single => some <$> command g (reads n) .start
    | goal => list g (reads n) goal
where
  pieces : Nat → Mode → Parse Word
    | 0, _ => fail "commands nested too deeply"
    | n + 1, mode =>
      piece { piece := pieces n
              commands := do
                let c ← reads n .branch
                let s ← get
                match s.pushed with
                | some .rightParen => set { s with pushed := none }
                | some t => unexpected t (some .rightParen)
                | none => fail "end of file unexpected (expecting \")\")"
                return needed c
              inner := inner n } mode
  inner : Nat → Bytes → Parse Command
    | 0, _ => fail "commands nested too deeply"
    | n + 1, t => do
      let s ← get
      set { s with rest := t, line := 1, pushed := none, announced := [], inDocument := false }
      let c ← reads n .branch
      modify fun after => { after with
        rest := s.rest, line := s.line, pushed := s.pushed, announced := s.announced
        inDocument := s.inDocument }
      return needed c

def template : Parse Word := reads.pieces depthLimit .document

def commandLine : Parse (Option Command) := do
  modify fun s => { s with pushed := none, announced := [] }
  let s ← get
  if s.rest.isEmpty then return none
  reads depthLimit .line

end GrammarHeaders.Shell.Parse
