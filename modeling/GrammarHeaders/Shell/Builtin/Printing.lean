import GrammarHeaders.Shell.Printf
import GrammarHeaders.Shell.State

namespace GrammarHeaders.Shell.Builtin

def print (t : Bytes) : Run Nat := do
  match ← Run.writeTo 1 t with
  | .ok () => return 0
  | .error _ => do
    Run.warn (((← get).command.getD []) ++ ": I/O error".toList)
    return 1

def echoed (args : List Bytes) : Bytes :=
  let (args, ending) : List Bytes × Bytes := match args with
    | ['-', 'n'] :: rest => (rest, [])
    | args => (args, ['\n'])
  let (t, more) := Format.unescaped (Bytes.join [' '] args)
  if more then t ++ ending else t

def printfDialect : Printf.Dialect :=
  ⟨id, "expected numeric value", "not completely converted", "Numerical result out of range", false⟩

def printf (args : List Bytes) : Run Nat := do
  let args ← match args with
    | ['-', '-'] :: rest => pure rest
    | ('-' :: c :: _) :: _ => Run.fault ("Illegal option -".toList ++ [c])
    | args => pure args
  match args with
  | [] => Run.faultWords "usage: printf format [arg ...]"
  | format :: args => do
    let finish (s : Printf.State) : Run Nat := do
      s.warnings.forM Run.warn
      let status ← print s.output
      return max status s.status
    match (Printf.passes format (args.length + 1) printfDialect).run { args } with
    | .ok () s | .error .done s => finish s
    | .error (.fault message) s => do
      let _ ← finish s
      Run.fault message

end GrammarHeaders.Shell.Builtin
