import GrammarHeaders.Shell.Builtin.Printing

namespace GrammarHeaders.Shell.Builtin

def number (t : Bytes) : Run Nat := do
  let n := Text.decimalValue t
  if Bytes.isNumber t && decide (n ≤ 2147483647) then return n
  Run.fault ("Illegal number: ".toList ++ t)

def letters (known : List Char) : List Bytes → Run (List Char × List Bytes)
  | ['-', '-'] :: rest => return ([], rest)
  | ('-' :: c :: more) :: rest => do
    for c in c :: more do
      if !known.contains c then Run.fault ("Illegal option -".toList ++ [c])
    let (others, operands) ← letters known rest
    return (c :: more ++ others, operands)
  | operands => return ([], operands)

def quotedUpTo : Nat → Bytes → Bytes
  | 0, t => t
  | n + 1, t =>
    let plain := t.takeWhile (· != '\'')
    let rest := t.drop plain.length
    let quotes := rest.takeWhile (· == '\'')
    let rest := rest.drop quotes.length
    let front := '\'' :: plain ++ ['\'']
    if quotes.isEmpty then front
    else front ++ '"' :: quotes ++ '"' :: (if rest.isEmpty then [] else quotedUpTo n rest)

def quoted (t : Bytes) : Bytes := quotedUpTo (t.length + 1) t

def listVariables (front : Bytes) (wanted : Variable → Bool) : Run Nat := do
  let vars := (← get).variables_.filter fun entry => wanted entry.2
  let vars := vars.mergeSort fun a b => Bytes.le a.1 b.1
  print (vars.flatMap fun (name, v) => front ++ name ++ (match v.value with
    | some t => '=' :: quoted t
    | none => []) ++ ['\n'])

def divide (arg : Bytes) : Bytes × Option Bytes :=
  let name := arg.takeWhile (· != '=')
  match arg.drop name.length with
  | _ :: value => (name, some value)
  | [] => (name, none)

def checkName (name : Bytes) : Run Unit := do
  if !Bytes.isName name then Run.fault (name ++ ": bad variable name".toList)

def markVariables (word : Bytes) (mark : Variable → Variable) (marked : Variable → Bool)
    (args : List Bytes) : Run Nat := do
  let (options, operands) ← letters ['p'] args
  if operands.isEmpty || options.contains 'p' then listVariables (word ++ [' ']) marked
  else
    for arg in operands do
      let (name, value) := divide arg
      checkName name
      match value with
      | some value => Run.assign name value
      | none => pure ()
      let v := (← Run.variable_ name).getD {}
      Run.putVariable name (some (mark v))
    return 0

def exportVariables (args : List Bytes) : Run Nat :=
  markVariables "export".toList (fun v => { v with exported := true }) Variable.exported args

def readOnlyVariables (args : List Bytes) : Run Nat :=
  markVariables "readonly".toList (fun v => { v with readOnly := true }) Variable.readOnly args

def localVariables (args : List Bytes) : Run Nat := do
  if (← get).saved.isEmpty then Run.faultWords "not in a function"
  for arg in args do
    let (name, value) := divide arg
    checkName name
    Run.save name
    match value with
    | some value => Run.assign name value
    | none => pure ()
  return 0

def unset (args : List Bytes) : Run Nat := do
  let (options, operands) ← letters ['v', 'f'] args
  for name in operands do
    if options.contains 'f' then
      modify fun s => { s with functions := s.functions.filter fun f => f.1 != name }
    else
      checkName name
      Run.unset name
  return 0

def optionNames : List (Char × String) :=
  [('e', "errexit"), ('f', "noglob"), ('I', "ignoreeof"), ('i', "interactive"), ('m', "monitor"),
   ('n', "noexec"), ('s', "stdin"), ('x', "xtrace"), ('v', "verbose"), ('V', "vi"), ('E', "emacs"),
   ('C', "noclobber"), ('a', "allexport"), ('b', "notify"), ('u', "nounset"), ('p', "privileged")]

def switch (on : Bool) (letter : Char) : Run Unit :=
  modify fun s =>
    let others := s.options.filter (· != letter)
    { s with options := if on then letter :: others else others }

def padded (width : Nat) (t : Bytes) : Bytes := t ++ List.replicate (width - t.length) ' '

def listOptions (asCommands : Bool) : Run Nat := do
  let options := (← get).options
  let line (entry : Char × String) : Bytes :=
    let on := options.contains entry.1
    if asCommands then
      "set ".toList ++ (if on then "-o ".toList else "+o ".toList) ++ entry.2.toList ++ ['\n']
    else padded 16 entry.2.toList ++ (if on then "on".toList else "off".toList) ++ ['\n']
  let front : Bytes := if asCommands then [] else "Current option settings\n".toList
  let hidden := [('\x00', "nolog"), ('\x00', "debug")]
  print (front ++ (optionNames ++ hidden).flatMap line)

def switchNamed (on : Bool) (name : Bytes) : Run Unit := do
  match optionNames.find? fun entry => entry.2.toList == name with
  | some (letter, _) => switch on letter
  | none => Run.fault ("Illegal option ".toList ++ (if on then "-o ".toList else "+o ".toList) ++ name)

/-- Switch the options of a cluster of letters; an option that is given by its name takes the next
argument. Some letters have a meaning only when a shell is started. -/
def switchCluster (starting on : Bool) : Bytes → List Bytes → Run (List Bytes)
  | [], rest => return rest
  | 'o' :: letters, [] => do
    let _ ← listOptions (!on)
    switchCluster starting on letters []
  | 'o' :: letters, name :: rest => do
    switchNamed on name
    switchCluster starting on letters rest
  | c :: letters, rest => do
    if (starting && (c == 'c' || c == 'l')) || optionNames.any fun entry => entry.1 == c then
      switch on c
      switchCluster starting on letters rest
    else Run.fault ("Illegal option ".toList ++ [if on then '-' else '+', c])

/-- Switch options as long as there are any; the arguments that follow are returned, unless none
were asked for. -/
def takeOptions (starting : Bool) : Nat → List Bytes → Run (Option (List Bytes))
  | 0, _ => return none
  | n + 1, args =>
    match args with
    | [] => return none
    | ['-', '-'] :: rest => return some rest
    | ['-'] :: rest => do
      if !starting then
        switch false 'x'
        switch false 'v'
      return if rest.isEmpty then none else some rest
    | ('-' :: letters) :: rest => do
      takeOptions starting n (← switchCluster starting true letters rest)
    | ('+' :: letters) :: rest => do
      takeOptions starting n (← switchCluster starting false letters rest)
    | args => return some args

def set (args : List Bytes) : Run Nat := do
  if args.isEmpty then listVariables [] fun v => v.value.isSome
  else
    match ← takeOptions false (args.length + 1) args with
    | some rest => modify fun s => { s with args := rest, optionOffset := 0 }
    | none => pure ()
    return 0

def shift (args : List Bytes) : Run Nat := do
  let count ← match args with
    | [] => pure 1
    | arg :: _ => number arg
  let s ← get
  if s.args.length < count then Run.faultWords "can't shift that many"
  modify fun s => { s with args := s.args.drop count, optionOffset := 0 }
  return 0

def optionKind (spec : Bytes) (c : Char) : Option Bool :=
  let rec find : Bytes → Option Bool
    | [] => none
    | d :: rest => if d = c ∧ c ≠ ':' then some (rest.head? == some ':') else find rest
  find spec

def getopts (args : List Bytes) : Run Nat := do
  match args with
  | spec :: name :: given => do
    let s ← get
    let args := if given.isEmpty then s.args else given
    let index := match (← Run.value? "OPTIND".toList).bind Arithmetic.ofText? with
      | some n => n.toNat
      | none => 1
    let index := max index 1
    let quiet := spec.head? == some ':'
    let place (index offset : Nat) : Run Unit := do
      Run.assign "OPTIND".toList (Bytes.ofNat index)
      modify fun s => { s with optionOffset := offset }
    let finish (letter : Char) (status : Nat) : Run Nat := do
      Run.assign name [letter]
      return status
    let ended (index : Nat) : Run Nat := do
      place index 0
      Run.unset "OPTARG".toList
      finish '?' 1
    match args[index - 1]? with
    | none => ended index
    | some arg =>
      if s.optionOffset = 0 ∧ (arg.head? ≠ some '-' ∨ arg.length < 2) then ended index
      else if s.optionOffset = 0 ∧ arg = ['-', '-'] then ended (index + 1)
      else
        let offset := max 1 s.optionOffset
        let c := (arg[offset]?).getD '\x00'
        let rest := arg.drop (offset + 1)
        let next : Nat × Nat := if rest.isEmpty then (index + 1, 0) else (index, offset + 1)
        match optionKind spec c with
        | none => do
          place next.1 next.2
          if quiet then Run.assign "OPTARG".toList [c]
          else
            Run.errors ("Illegal option -".toList ++ [c, '\n'])
            Run.unset "OPTARG".toList
          finish '?' 0
        | some false => do
          place next.1 next.2
          Run.assign "OPTARG".toList []
          finish c 0
        | some true =>
          if !rest.isEmpty then do
            place (index + 1) 0
            Run.assign "OPTARG".toList rest
            finish c 0
          else match args[index]? with
            | some value => do
              place (index + 2) 0
              Run.assign "OPTARG".toList value
              finish c 0
            | none => do
              place (index + 1) 0
              if quiet then
                Run.assign "OPTARG".toList [c]
                finish ':' 0
              else
                Run.errors ("No arg for -".toList ++ [c] ++ " option\n".toList)
                Run.unset "OPTARG".toList
                finish '?' 0
  | _ => Run.faultWords "Usage: getopts optstring var [arg...]"

def aliasCommand (args : List Bytes) : Run Nat := do
  let show_ (entry : Bytes × Bytes) : Bytes := entry.1 ++ '=' :: quoted entry.2 ++ ['\n']
  let aliases := (← get).aliases
  if args.isEmpty then
    print ((aliases.mergeSort fun a b => Bytes.le a.1 b.1).flatMap show_)
  else
    let mut status := 0
    for arg in args do
      match divide arg with
      | (name, some value) =>
        modify fun s => { s with
          aliases := (name, value) :: s.aliases.filter fun a => a.1 != name }
      | (name, none) => match aliases.lookup name with
        | some value => do
          let _ ← print (show_ (name, value))
        | none => do
          Run.errors ("alias: ".toList ++ name ++ " not found\n".toList)
          status := 1
    return status

def unaliasCommand (args : List Bytes) : Run Nat := do
  let (options, names) ← letters ['a'] args
  if options.contains 'a' then
    modify fun s => { s with aliases := [] }
    return 0
  let mut status := 0
  for name in names do
    if (← get).aliases.any fun a => a.1 == name then
      modify fun s => { s with aliases := s.aliases.filter fun a => a.1 != name }
    else
      Run.errors ("unalias: ".toList ++ name ++ " not found\n".toList)
      status := 1
  return status

end GrammarHeaders.Shell.Builtin
