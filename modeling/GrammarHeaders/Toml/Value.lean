import GrammarHeaders.Number.Binary64
import GrammarHeaders.Toml.Moment

namespace GrammarHeaders.Toml

inductive Value where
  | string (s : String)
  | integer (n : Int)
  | float (x : Binary64)
  | boolean (b : Bool)
  | moment (m : Moment)
  | array (items : List Value)
  | table (entries : List (String × Value))

/-- A table; every key occurs once. -/
abbrev Table := List (String × Value)

namespace Table

def get? (t : Table) (key : String) : Option Value :=
  match t with
  | [] => none
  | (k, v) :: rest => if k = key then some v else get? rest key

def set (t : Table) (key : String) (value : Value) : Table :=
  match t with
  | [] => [(key, value)]
  | (k, v) :: rest => if k = key then (key, value) :: rest else (k, v) :: set rest key value

@[simp] theorem get?_set (t : Table) (key other : String) (value : Value) :
    (t.set key value).get? other = if key = other then some value else t.get? other := by
  induction t with
  | nil => rfl
  | cons entry rest ih =>
    obtain ⟨k, v⟩ := entry
    by_cases hk : k = key
    · subst hk
      by_cases h : k = other <;> simp [set, get?, h]
    · by_cases h : k = other
      · subst h
        have hne : ¬key = k := fun e => hk e.symm
        simp [set, get?, hk, hne]
      · simp [set, get?, hk, h, ih]

end Table

mutual

def Value.over : Value → Option Value → Value
  | .table incoming, some (.table existing) => .table (overlay incoming existing)
  | v, _ => v
termination_by structural v => v

/-- The entries of a table laid, in order, over a base. -/
def overlay : Table → Table → Table
  | [], base => base
  | (key, value) :: rest, base =>
    overlay rest (Table.set base key (Value.over value (Table.get? base key)))
termination_by structural incoming => incoming

end

end GrammarHeaders.Toml
