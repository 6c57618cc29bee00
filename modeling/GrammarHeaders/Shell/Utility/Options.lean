import GrammarHeaders.Shell.Task
import GrammarHeaders.Shell.Utility.Quoting

namespace GrammarHeaders.Shell.Options

/-- Whether a value belongs to an option. -/
inductive Arity where
  | none
  | required
  | optional
  deriving DecidableEq, Repr

/-- An option with a word for a name, and the letter that it goes by. -/
structure Long where
  word : String
  letter : Char
  arity : Arity := .none
  deriving DecidableEq, Repr

/-- What a utility understands. -/
structure Spec where
  letters : String := ""
  long : List Long := []
  status : Nat := 1
  ordered : Bool := false
  advice : Option String := none

/-- Options with their values, and the operands. -/
structure Given where
  options : List (Char × Bytes) := []
  operands : List Bytes := []

namespace Given

def has (g : Given) (letter : Char) : Bool := g.options.any fun o => o.1 == letter

def value? (g : Given) (letter : Char) : Option Bytes :=
  (g.options.reverse.find? fun o => o.1 == letter).map Prod.snd

def last? (g : Given) (letters : List Char) : Option Char :=
  (g.options.reverse.find? fun o => letters.contains o.1).map Prod.fst

end Given

def arityIn (c : Char) : List Char → Option Arity
  | [] => none
  | d :: rest =>
    if c = d ∧ c ≠ ':' then
      match rest with
      | ':' :: ':' :: _ => some .optional
      | ':' :: _ => some .required
      | _ => some .none
    else arityIn c rest

def suggestHelp {α : Type} (status : Nat) : Task α := do
  let name ← Task.name
  Task.errors ("Try '".toList ++ name ++ " --help' for more information.\n".toList)
  Task.end_ status

def misuse {α : Type} (status : Nat) (message : Bytes) : Task α := do
  Task.complain message
  suggestHelp status

def Spec.reject {α : Type} (spec : Spec) (message : Bytes) : Task α := do
  match spec.advice with
  | none => misuse spec.status message
  | some advice => do
    Task.complain message
    Task.errors advice.toList
    Task.end_ spec.status

def cluster (spec : Spec) : Bytes → List Bytes → Task (List (Char × Bytes) × List Bytes)
  | [], rest => return ([], rest)
  | c :: t, rest => do
    match arityIn c spec.letters.toList with
    | none => spec.reject ("invalid option -- '".toList ++ [c] ++ ['\''])
    | some .none =>
      let (others, rest) ← cluster spec t rest
      return ((c, []) :: others, rest)
    | some .optional => return ([(c, t)], rest)
    | some .required =>
      if !t.isEmpty then return ([(c, t)], rest)
      match rest with
      | value :: rest => return ([(c, value)], rest)
      | [] => spec.reject ("option requires an argument -- '".toList ++ [c] ++ ['\''])

def long (spec : Spec) (arg : Bytes) (rest : List Bytes) : Task ((Char × Bytes) × List Bytes) := do
  let word := arg.takeWhile (· != '=')
  let value : Option Bytes := match arg.drop word.length with
    | _ :: value => some value
    | [] => none
  let known := spec.long ++ [⟨"help", '\x01', .none⟩, ⟨"version", '\x02', .none⟩]
  let candidates := known.filter fun l => word.isPrefixOf l.word.toList
  let found : Option Long :=
    match known.find? fun l => l.word.toList == word with
    | some l => some l
    | none => match candidates with
      | l :: others => if others.all fun o => o.letter == l.letter then some l else none
      | [] => none
  match found with
  | none =>
    if candidates.isEmpty then
      spec.reject ("unrecognized option '--".toList ++ arg ++ ['\''])
    else
      spec.reject ("option '--".toList ++ arg ++ "' is ambiguous; possibilities:".toList ++
        candidates.flatMap fun l => " '--".toList ++ l.word.toList ++ ['\''])
  | some l => match l.arity, value with
    | .none, none => return ((l.letter, []), rest)
    | .none, some _ =>
      spec.reject ("option '--".toList ++ l.word.toList ++ "' doesn't allow an argument".toList)
    | .optional, value => return ((l.letter, value.getD []), rest)
    | .required, some value => return ((l.letter, value), rest)
    | .required, none => match rest with
      | value :: rest => return ((l.letter, value), rest)
      | [] =>
        spec.reject ("option '--".toList ++ l.word.toList ++ "' requires an argument".toList)

def parseUpTo (spec : Spec) : Nat → List Bytes → Given → Task Given
  | 0, rest, g => return { g with operands := g.operands ++ rest }
  | _ + 1, [], g => return g
  | n + 1, arg :: rest, g =>
    match arg with
    | ['-', '-'] => return { g with operands := g.operands ++ rest }
    | '-' :: '-' :: word => do
      let (option, rest) ← long spec word rest
      parseUpTo spec n rest { g with options := g.options ++ [option] }
    | '-' :: c :: t => do
      let (options, rest) ← cluster spec (c :: t) rest
      parseUpTo spec n rest { g with options := g.options ++ options }
    | arg =>
      if spec.ordered then return { g with operands := g.operands ++ arg :: rest }
      else parseUpTo spec n rest { g with operands := g.operands ++ [arg] }

def parse (spec : Spec) (args : List Bytes) : Task Given := do
  let g ← parseUpTo spec (args.length + 1) args {}
  if g.has '\x01' || g.has '\x02' then Task.end_ 0
  return g

def missingOperand {α : Type} (status : Nat) : Task α := misuse status "missing operand".toList

def extraOperand {α : Type} (status : Nat) (operand : Bytes) : Task α :=
  misuse status ("extra operand ".toList ++ Quoting.words operand)

end GrammarHeaders.Shell.Options
