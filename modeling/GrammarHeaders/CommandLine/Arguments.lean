import GrammarHeaders.Text.Basic

namespace GrammarHeaders.CommandLine

/-- What a value must be. -/
inductive ValueKind where
  | text
  | path
  | count
  | oneOf (words : List String)
  deriving DecidableEq, Repr

def count? (value : String) : Option Nat :=
  let digits : Text := match value.toList with
    | '+' :: rest => rest
    | all => all
  let n := Text.decimalValue digits
  if !digits.isEmpty && digits.all Char.isDigit && decide (n < Nat.pow 2 64) then some n else none

def ValueKind.accepts (kind : ValueKind) (value : String) : Bool :=
  match kind with
  | text => true
  | path => value != ""
  | count => (count? value).isSome
  | oneOf words => words.contains value

/-- An option; without a kind of value it is a flag. -/
structure OptionSpec where
  name : String
  letter : Option Char := none
  value : Option ValueKind := none
  repeatable : Bool := false
  required : Bool := false
  deriving DecidableEq, Repr

/-- What may stand on the line of a command. -/
structure Spec where
  options : List OptionSpec
  /-- The kind of operands, and whether there may be more than one. -/
  operands : Option (ValueKind × Bool) := none
  /-- Options that exclude each other. -/
  exclusive : List (String × String) := []
  /-- The version may be asked for here. -/
  versioned : Bool := false
  /-- The first operand names a command, and the rest of the line belongs to that. -/
  commands : Bool := false

/-- What was given: options by name, with their values, in order, and operands. -/
structure Given where
  options : List (String × String) := []
  operands : List String := []
  deriving DecidableEq, Repr

namespace Given

def has (g : Given) (name : String) : Bool := g.options.any fun o => o.1 == name

def value? (g : Given) (name : String) : Option String := g.options.lookup name

def values (g : Given) (name : String) : List String :=
  (g.options.filter fun o => o.1 == name).map Prod.snd

end Given

/-- Why a command is not run. -/
inductive Stop where
  | usage
  | help
  | version
  deriving DecidableEq, Repr

namespace Spec

def take (g : Given) (o : OptionSpec) (value : String) : Except Stop Given :=
  let fits := match o.value with
    | some kind => kind.accepts value
    | none => true
  if !fits ∨ (g.has o.name ∧ !o.repeatable) then .error .usage
  else .ok { g with options := g.options ++ [(o.name, value)] }

def takeOperand (spec : Spec) (g : Given) (operand : String) : Except Stop Given :=
  match spec.operands with
  | none => .error .usage
  | some (kind, many) =>
    if kind.accepts operand ∧ (many ∨ g.operands.isEmpty) then
      .ok { g with operands := g.operands ++ [operand] }
    else .error .usage

def looksLikeOption (arg : String) : Bool :=
  match arg.toList with
  | '-' :: _ :: _ => true
  | _ => false

def takeLong (spec : Spec) (g : Given) (arg : Text) : Except Stop (Given × Option OptionSpec) :=
  let name := arg.takeWhile (· != '=')
  let value : Option String := match arg.drop name.length with
    | _ :: value => some (String.ofList value)
    | [] => none
  let name := String.ofList name
  match spec.options.find? fun o => o.name == name with
  | none =>
    if value.isSome then .error .usage
    else if name == "help" then .error .help
    else if name == "version" ∧ spec.versioned then .error .version
    else .error .usage
  | some o => match o.value, value with
    | none, some _ => .error .usage
    | none, none => (take g o "").map (·, none)
    | some _, some value => (take g o value).map (·, none)
    | some _, none => .ok (g, some o)

def takeLetters (spec : Spec) (g : Given) : Text → Except Stop (Given × Option OptionSpec)
  | [] => .ok (g, none)
  | c :: rest => match spec.options.find? fun o => o.letter == some c with
    | none =>
      if c = 'h' then .error .help
      else if c = 'V' ∧ spec.versioned then .error .version
      else .error .usage
    | some o => match o.value, rest with
      | none, rest => match take g o "" with
        | .ok g => takeLetters spec g rest
        | .error stop => .error stop
      | some _, [] => .ok (g, some o)
      | some _, '=' :: value => (take g o (String.ofList value)).map (·, none)
      | some _, value => (take g o (String.ofList value)).map (·, none)

def takeOperands (spec : Spec) (g : Given) : List String → Except Stop Given
  | [] => .ok g
  | operand :: rest => match spec.takeOperand g operand with
    | .ok g => takeOperands spec g rest
    | .error stop => .error stop

/-- Read a line. `pending` is an option that waits for its value. A command and what follows it are
left over. -/
def read (spec : Spec) (g : Given) (pending : Option OptionSpec) :
    List String → Except Stop (Given × List String)
  | [] => if pending.isSome then .error .usage else .ok (g, [])
  | arg :: rest => match pending with
    | some o =>
      if looksLikeOption arg then .error .usage
      else match take g o arg with
        | .ok g => read spec g none rest
        | .error stop => .error stop
    | none =>
      let taken : Except Stop (Option (Given × Option OptionSpec)) :=
        match arg.toList with
        | ['-', '-'] => .ok none
        | '-' :: '-' :: long => (spec.takeLong g long).map some
        | '-' :: c :: letters => (spec.takeLetters g (c :: letters)).map some
        | _ =>
          if spec.commands then .ok none
          else (spec.takeOperand g arg).map fun g => some (g, none)
      match taken with
      | .error stop => .error stop
      | .ok (some (g, pending)) => read spec g pending rest
      | .ok none =>
        if arg != "--" then .ok (g, arg :: rest)
        else if spec.commands then .error .usage
        else (spec.takeOperands g rest).map (·, [])

def complete (spec : Spec) (g : Given) : Bool :=
  (spec.options.all fun o => !o.required || g.has o.name) &&
    (spec.exclusive.all fun (a, b) => !(g.has a && g.has b)) &&
    (spec.operands.isNone || !g.operands.isEmpty)

end Spec

end GrammarHeaders.CommandLine
