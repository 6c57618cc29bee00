import GrammarHeaders.Toml.Document

namespace GrammarHeaders.Toml

def momentKey : String := "$__toml_private_datetime"

mutual

/-- A value with the tables that stand for moments replaced by them; such a table may be
malformed. -/
def Value.settle? : Value → Option Value
  | .array items => (settleItems? items).map .array
  | .table [] => some (.table [])
  | .table ((key, v) :: rest) =>
    if key = momentKey then
      match v with
      | .string s => (Moment.ofText? s.toList).map .moment
      | _ => none
    else do
      let first ← v.settle?
      let rest ← settleEntries? rest
      some (.table ((key, first) :: rest))
  | v => some v
termination_by structural v => v

def settleItems? : List Value → Option (List Value)
  | [] => some []
  | v :: rest => do
    let first ← v.settle?
    let rest ← settleItems? rest
    some (first :: rest)
termination_by structural items => items

def settleEntries? : Table → Option Table
  | [] => some []
  | (key, v) :: rest => do
    let first ← v.settle?
    let rest ← settleEntries? rest
    some ((key, first) :: rest)
termination_by structural entries => entries

end

def Table.read? (t : Text) : Option Table := do settleEntries? (← Document.parse? t)

end GrammarHeaders.Toml
