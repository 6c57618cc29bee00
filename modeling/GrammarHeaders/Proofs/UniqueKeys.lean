import GrammarHeaders.Toml.Reading
import Mathlib.Data.List.Nodup

namespace GrammarHeaders.Toml

/-- A value in whose tables, at every depth, every key occurs once. -/
inductive Value.Keyed : Value → Prop
  | string (s : String) : Keyed (.string s)
  | integer (n : Int) : Keyed (.integer n)
  | float (x : Binary64) : Keyed (.float x)
  | boolean (b : Bool) : Keyed (.boolean b)
  | moment (m : Moment) : Keyed (.moment m)
  | array {items : List Value} (inside : ∀ v ∈ items, Keyed v) : Keyed (.array items)
  | table {entries : Table} (once : (entries.map Prod.fst).Nodup)
      (inside : ∀ entry ∈ entries, Keyed entry.2) : Keyed (.table entries)

/-- The same of a document under construction. -/
inductive Node.Keyed : Node → Prop
  | value {v : Value} (inside : v.Keyed) : Keyed (.value v)
  | table {origin : Origin} {entries : Entries} (once : (entries.map Prod.fst).Nodup)
      (inside : ∀ entry ∈ entries, Keyed entry.2) : Keyed (.table origin entries)
  | tables {items : List Entries} (once : ∀ entries ∈ items, (entries.map Prod.fst).Nodup)
      (inside : ∀ entries ∈ items, ∀ entry ∈ entries, Keyed entry.2) : Keyed (.tables items)

/-- Every key of the table occurs once, and so it is in the tables inside. -/
def Entries.Keyed (t : Entries) : Prop :=
  (t.map Prod.fst).Nodup ∧ ∀ entry ∈ t, entry.2.Keyed

theorem Node.keyed_table {origin : Origin} {entries : Entries} :
    (Node.table origin entries).Keyed ↔ entries.Keyed := by
  constructor
  · rintro (_ | ⟨once, inside⟩)
    exact ⟨once, inside⟩
  · rintro ⟨once, inside⟩
    exact .table once inside

theorem Node.keyed_tables {items : List Entries} :
    (Node.tables items).Keyed ↔ ∀ entries ∈ items, entries.Keyed := by
  constructor
  · rintro (_ | _ | ⟨once, inside⟩) entries he
    exact ⟨once entries he, inside entries he⟩
  · intro h
    exact .tables (fun entries he => (h entries he).1) (fun entries he => (h entries he).2)

theorem Node.Keyed.last_of_tables {items front : List Entries} {last : Entries}
    (h : (Node.tables items).Keyed) (hr : items.reverse = last :: front) :
    last.Keyed ∧
      ∀ other : Entries, other.Keyed → (Node.tables (other :: front).reverse).Keyed := by
  have hmem : ∀ entries, entries ∈ items ↔ entries = last ∨ entries ∈ front := by
    intro entries
    rw [← List.mem_reverse, hr, List.mem_cons]
  rw [Node.keyed_tables] at h
  refine ⟨h last ((hmem last).2 (.inl rfl)), fun other ho => Node.keyed_tables.2 ?_⟩
  intro entries he
  rw [List.mem_reverse, List.mem_cons] at he
  obtain rfl | he := he
  · exact ho
  · exact h entries ((hmem entries).2 (.inr he))

theorem Value.keyed_table {entries : Table} :
    (Value.table entries).Keyed ↔
      (entries.map Prod.fst).Nodup ∧ ∀ entry ∈ entries, entry.2.Keyed := by
  constructor
  · rintro ⟨⟩
    exact ⟨‹_›, ‹_›⟩
  · rintro ⟨once, inside⟩
    exact .table once inside

namespace Table

theorem mem_of_get? {t : Table} {key : String} {v : Value} (h : t.get? key = some v) :
    (key, v) ∈ t := by
  induction t with
  | nil => simp [get?] at h
  | cons entry rest ih =>
    obtain ⟨k, w⟩ := entry
    by_cases hk : k = key
    · simp_all [get?]
    · simp only [get?, hk, ↓reduceIte] at h
      exact List.mem_cons_of_mem _ (ih h)

theorem get?_eq_none {t : Table} {key : String} :
    t.get? key = none ↔ key ∉ t.map Prod.fst := by
  induction t with
  | nil => simp [get?]
  | cons entry rest ih =>
    obtain ⟨k, w⟩ := entry
    by_cases hk : k = key
    · simp [get?, hk]
    · simp only [get?, hk, ↓reduceIte, ih, List.map_cons, List.mem_cons, not_or]
      exact ⟨fun h => ⟨fun e => hk e.symm, h⟩, fun h => h.2⟩

end Table

namespace Entries

theorem mem_of_get? {t : Entries} {key : String} {n : Node} (h : t.get? key = some n) :
    (key, n) ∈ t := by
  induction t with
  | nil => simp [get?] at h
  | cons entry rest ih =>
    obtain ⟨k, w⟩ := entry
    by_cases hk : k = key
    · simp_all [get?]
    · simp only [get?, hk, ↓reduceIte] at h
      exact List.mem_cons_of_mem _ (ih h)

theorem mem_set {t : Entries} {key : String} {n : Node} {entry : String × Node}
    (h : entry ∈ t.set key n) : entry ∈ t ∨ entry = (key, n) := by
  induction t with
  | nil => exact .inr (List.mem_singleton.1 h)
  | cons first rest ih =>
    obtain ⟨k, w⟩ := first
    by_cases hk : k = key <;> simp only [set, hk, ↓reduceIte, List.mem_cons] at h ⊢ <;> grind

theorem map_fst_set (t : Entries) (key : String) (n : Node) :
    (t.set key n).map Prod.fst =
      if key ∈ t.map Prod.fst then t.map Prod.fst else t.map Prod.fst ++ [key] := by
  induction t with
  | nil => rfl
  | cons first rest ih =>
    obtain ⟨k, w⟩ := first
    by_cases hk : k = key
    · simp [set, hk]
    · by_cases hm : key ∈ rest.map Prod.fst
      · simp_all [set]
      · have hne : key ≠ k := fun e => hk e.symm
        simp_all [set]

namespace Keyed

variable {t t' : Entries} {key : String} {n : Node}

theorem nil : Keyed [] := ⟨List.nodup_nil, by simp⟩

theorem get? (h : t.Keyed) (hg : Entries.get? t key = some n) : n.Keyed :=
  h.2 _ (mem_of_get? hg)

theorem set (h : t.Keyed) (hn : n.Keyed) : (Entries.set t key n).Keyed := by
  refine ⟨?_, fun entry he => ?_⟩
  · rw [map_fst_set]
    split
    · exact h.1
    · next hm => exact h.1.append (List.nodup_singleton key) (by simpa using hm)
  · obtain he | rfl := mem_set he
    · exact h.2 entry he
    · exact hn

theorem erase (h : t.Keyed) : (Entries.erase t key).Keyed :=
  ⟨h.1.sublist (List.filter_sublist.map _), fun entry he => h.2 entry (List.mem_of_mem_filter he)⟩

/-- A change of the table that a header leads to keeps the keys unique if it does so on every
table. -/
theorem atHeader {α : Type} {P : α → Prop} {change : Entries → Option (α × Entries)}
    (hc : ∀ t t' a, Keyed t → change t = some (a, t') → P a ∧ t'.Keyed) {path : List String}
    {a : α} (h : t.Keyed) (he : Entries.atHeader change path t = some (a, t')) :
    P a ∧ t'.Keyed := by
  induction path generalizing t t' with
  | nil => exact hc t t' a h he
  | cons part path ih =>
    simp only [Entries.atHeader] at he
    split at he
    · simp only [Option.bind_eq_bind, Option.bind_eq_some_iff] at he
      obtain ⟨⟨b, inner⟩, hi, he⟩ := he
      cases he
      obtain ⟨ha, hk⟩ := ih nil hi
      exact ⟨ha, h.set (Node.keyed_table.2 hk)⟩
    · next origin inner hg =>
      simp only [Option.bind_eq_bind, Option.bind_eq_some_iff] at he
      obtain ⟨⟨b, inner⟩, hi, he⟩ := he
      cases he
      obtain ⟨ha, hk⟩ := ih (Node.keyed_table.1 (h.get? hg)) hi
      exact ⟨ha, h.set (Node.keyed_table.2 hk)⟩
    · next items hg =>
      split at he
      · cases he
      · next last front hr =>
        obtain ⟨hlast, hput⟩ := (h.get? hg).last_of_tables hr
        simp only [Option.bind_eq_bind, Option.bind_eq_some_iff] at he
        obtain ⟨⟨b, inner⟩, hi, he⟩ := he
        cases he
        obtain ⟨ha, hk⟩ := ih hlast hi
        exact ⟨ha, h.set (hput inner hk)⟩
    · cases he

theorem insertDotted {mayInsert : Bool} {path : List String} (h : t.Keyed) (hn : n.Keyed)
    (he : Entries.insertDotted key n mayInsert path t = some t') : t'.Keyed := by
  induction path generalizing t t' mayInsert with
  | nil =>
    simp only [Entries.insertDotted] at he
    split at he <;> cases he
    exact h.set hn
  | cons part path ih =>
    simp only [Entries.insertDotted] at he
    split at he
    · simp only [Option.bind_eq_bind, Option.bind_eq_some_iff] at he
      obtain ⟨inner, hi, he⟩ := he
      cases he
      exact h.set (Node.keyed_table.2 (ih nil hi))
    · cases he
    · next origin inner _ hg =>
      simp only [Option.bind_eq_bind, Option.bind_eq_some_iff] at he
      obtain ⟨inner, hi, he⟩ := he
      cases he
      exact h.set (Node.keyed_table.2 (ih (Node.keyed_table.1 (h.get? hg)) hi))
    · next items hg =>
      split at he
      · cases he
      · next last front hr =>
        obtain ⟨hlast, hput⟩ := (h.get? hg).last_of_tables hr
        simp only [Option.bind_eq_bind, Option.bind_eq_some_iff] at he
        obtain ⟨inner, hi, he⟩ := he
        cases he
        exact h.set (hput inner (ih hlast hi))
    · cases he

end Keyed

end Entries

theorem tableOfEntries_eq (t : Entries) :
    tableOfEntries t = t.map fun entry => (entry.1, entry.2.toValue) := by
  induction t with
  | nil => rfl
  | cons entry rest ih => rw [tableOfEntries, ih, List.map_cons]

theorem arrayOfTables_eq (items : List Entries) :
    arrayOfTables items = items.map fun entries => .table (tableOfEntries entries) := by
  induction items with
  | nil => rfl
  | cons entries rest ih => rw [arrayOfTables, ih, List.map_cons]

theorem map_fst_tableOfEntries (t : Entries) :
    (tableOfEntries t).map Prod.fst = t.map Prod.fst := by
  rw [tableOfEntries_eq, List.map_map]
  rfl

theorem keyed_tableOfEntries {t : Entries} (once : (t.map Prod.fst).Nodup)
    (inside : ∀ entry ∈ t, entry.2.toValue.Keyed) : (Value.table (tableOfEntries t)).Keyed := by
  refine .table (map_fst_tableOfEntries t ▸ once) fun entry he => ?_
  rw [tableOfEntries_eq, List.mem_map] at he
  obtain ⟨entry, he, rfl⟩ := he
  exact inside entry he

theorem Node.Keyed.toValue {n : Node} (h : n.Keyed) : n.toValue.Keyed := by
  induction h with
  | value inside => simpa only [Node.toValue] using inside
  | table once _ ih =>
    simp only [Node.toValue]
    exact keyed_tableOfEntries once ih
  | tables once _ ih =>
    simp only [Node.toValue, arrayOfTables_eq]
    refine .array fun v hv => ?_
    obtain ⟨entries, he, rfl⟩ := List.mem_map.1 hv
    exact keyed_tableOfEntries (once entries he) (ih entries he)

theorem Entries.Keyed.toTable {t : Entries} (h : t.Keyed) :
    (Value.table (tableOfEntries t)).Keyed :=
  keyed_tableOfEntries h.1 fun entry he => (h.2 entry he).toValue

namespace Scalar

theorem keyed_integerIn? {base : Nat} {isDigit : Char → Bool} {t rest : Text} {v : Value}
    (h : integerIn? base isDigit t = some (v, rest)) : v.Keyed := by
  simp only [integerIn?, Option.bind_eq_bind, Option.bind_eq_some_iff] at h
  obtain ⟨_, _, n, _, h⟩ := h
  split at h <;> cases h
  exact .integer n

theorem keyed_integer? {t rest : Text} {v : Value} (h : integer? t = some (v, rest)) :
    v.Keyed := by
  unfold integer? at h
  split at h
  · exact keyed_integerIn? h
  · exact keyed_integerIn? h
  · exact keyed_integerIn? h
  · simp only [Option.bind_eq_bind, Option.bind_eq_some_iff] at h
    obtain ⟨_, _, n, _, h⟩ := h
    obtain ⟨_, h⟩ := Option.ite_none_right_eq_some.1 h
    cases h
    exact .integer _

theorem keyed_pointNumber? {t rest : Text} {v : Value} (h : pointNumber? t = some (v, rest)) :
    v.Keyed := by
  simp only [pointNumber?, Option.bind_eq_bind, Option.bind_eq_some_iff] at h
  obtain ⟨_, _, _, _, _, _, h⟩ := h
  split at h
  · cases h
  · obtain ⟨_, _, h⟩ := Option.bind_eq_some_iff.1 h
    split at h <;> cases h
    exact .float _

theorem keyed_specialNumber? {t rest : Text} {v : Value}
    (h : specialNumber? t = some (v, rest)) : v.Keyed := by
  simp only [specialNumber?] at h
  split at h <;> cases h
  all_goals exact .float _

theorem keyed_parse? {t rest : Text} {v : Value} (h : parse? t = some (v, rest)) : v.Keyed := by
  unfold parse? at h
  split at h
  · cases h
  · split at h
    · obtain ⟨⟨s, _⟩, _, h⟩ := Option.map_eq_some_iff.1 h
      cases h
      exact .string s
    · split at h
      · cases h
        exact .boolean true
      · cases h
        exact .boolean false
      · unfold number? at h
        split at h
        · cases h
          exact .moment _
        · split at h
          · next hp =>
            cases h
            exact keyed_pointNumber? hp
          · split at h
            · next hs =>
              cases h
              exact keyed_specialNumber? hs
            · exact keyed_integer? h

end Scalar

namespace Document

/-- A value, the items of an array and the entries of an inline table, by induction on the number
of steps, which all three share. -/
theorem keyed_parts (fuel : Nat) :
    (∀ {depth : Nat} {t rest : Text} {v : Value},
      value fuel depth t = some (v, rest) → v.Keyed) ∧
    (∀ {depth : Nat} {t rest : Text} {items : List Value},
      arrayItems fuel depth t = some (items, rest) → ∀ v ∈ items, v.Keyed) ∧
    (∀ {depth : Nat} {done entries : Entries} {t rest : Text}, done.Keyed →
      inlineEntries fuel depth done t = some (entries, rest) → entries.Keyed) := by
  induction fuel with
  | zero => refine ⟨?_, ?_, ?_⟩ <;> intros <;> simp_all [value, arrayItems, inlineEntries]
  | succ fuel ih =>
    obtain ⟨ihValue, ihItems, ihEntries⟩ := ih
    refine ⟨fun {depth t rest v} h => ?_, fun {depth t rest items} h => ?_,
      fun {depth done entries t rest} hd h => ?_⟩
    · unfold value at h
      split at h
      · simp only [Option.bind_eq_bind, Option.bind_eq_some_iff] at h
        obtain ⟨⟨items, _⟩, hi, h⟩ := h
        cases h
        exact .array (ihItems hi)
      · simp only [Option.bind_eq_bind, Option.bind_eq_some_iff] at h
        obtain ⟨⟨entries, _⟩, he, h⟩ := h
        cases h
        exact (ihEntries .nil he).toTable
      · exact Scalar.keyed_parse? h
    · unfold arrayItems at h
      split at h
      · cases h
        simp
      · simp only [Option.bind_eq_bind, Option.bind_eq_some_iff] at h
        obtain ⟨⟨item, _⟩, hv, h⟩ := h
        split at h
        · obtain ⟨⟨others, _⟩, hi, h⟩ := Option.bind_eq_some_iff.1 h
          cases h
          exact List.forall_mem_cons.2 ⟨ihValue hv, ihItems hi⟩
        · cases h
          exact List.forall_mem_singleton.2 (ihValue hv)
        · cases h
    · unfold inlineEntries at h
      split at h
      · cases h
        exact .nil
      · simp only [Option.bind_eq_bind, Option.bind_eq_some_iff] at h
        obtain ⟨_, _, last, _, h⟩ := h
        split at h
        · simp only [Option.bind_eq_some_iff] at h
          obtain ⟨⟨v, _⟩, hv, done', hi, h⟩ := h
          have hd' := hd.insertDotted (.value (ihValue hv)) hi
          split at h
          · exact ihEntries hd' h
          · cases h
            exact hd'
          · cases h
        · cases h

theorem keyed_value {fuel depth : Nat} {t rest : Text} {v : Value}
    (h : value fuel depth t = some (v, rest)) : v.Keyed :=
  (keyed_parts fuel).1 h

/-- The keys of the finished tables and those of the current one are unique. -/
structure Builder.Keyed (b : Builder) : Prop where
  root : b.root.Keyed
  current : b.current.Keyed

namespace Builder.Keyed

variable {b b' : Builder}

theorem finish? (h : b.Keyed) {root : Entries} (hf : b.finish? = some root) : root.Keyed := by
  unfold Builder.finish? at hf
  split at hf
  · cases hf
    exact h.current
  · next key _ =>
    simp only [Option.bind_eq_bind, Option.bind_eq_some_iff] at hf
    obtain ⟨⟨_, root⟩, hp, hf⟩ := hf
    cases hf
    refine (h.root.atHeader (P := fun _ => True) (fun parent placed _ hk hc => ?_) hp).2
    refine ⟨trivial, ?_⟩
    split at hc
    · split at hc
      · cases hc
        exact hk.set (Node.keyed_tables.2 (by simpa using h.current))
      · next items hg =>
        cases hc
        have hitems := Node.keyed_tables.1 (hk.get? hg)
        refine hk.set (Node.keyed_tables.2 fun entries he => ?_)
        obtain he | he := List.mem_append.1 he
        · exact hitems entries he
        · exact List.mem_singleton.1 he ▸ h.current
      · cases hc
    · cases hc
      exact hk.set (Node.keyed_table.2 h.current)

theorem startTable? (h : b.Keyed) {path : List String} (hs : b.startTable? path = some b') :
    b'.Keyed := by
  simp only [Builder.startTable?, Option.bind_eq_bind, Option.bind_eq_some_iff] at hs
  obtain ⟨key, _, root, hf, ⟨current, root'⟩, ha, hs⟩ := hs
  cases hs
  -- The table taken up was inside its parent, so both have unique keys.
  obtain ⟨hc, hr⟩ := (h.finish? hf).atHeader (P := Entries.Keyed) (fun parent left a hk hc => by
    split at hc
    · cases hc
      exact ⟨.nil, hk⟩
    · next inner hg =>
      cases hc
      exact ⟨Node.keyed_table.1 (hk.get? hg), hk.erase⟩
    · cases hc) ha
  exact ⟨hr, hc⟩

theorem startItem? (h : b.Keyed) {path : List String} (hs : b.startItem? path = some b') :
    b'.Keyed := by
  simp only [Builder.startItem?, Option.bind_eq_bind, Option.bind_eq_some_iff] at hs
  obtain ⟨key, _, root, hf, ⟨_, root'⟩, ha, hs⟩ := hs
  cases hs
  refine ⟨((h.finish? hf).atHeader (P := fun _ => True) (fun parent left a hk hc => ?_) ha).2,
    .nil⟩
  split at hc <;> cases hc
  all_goals exact ⟨trivial, hk⟩

theorem insert? (h : b.Keyed) {parts : List String} {v : Value} (hv : v.Keyed)
    (hi : b.insert? parts v = some b') : b'.Keyed := by
  simp only [Builder.insert?, Option.bind_eq_bind, Option.bind_eq_some_iff] at hi
  obtain ⟨key, _, current, hc, hi⟩ := hi
  cases hi
  exact ⟨h.root, h.current.insertDotted (.value hv) hc⟩

theorem statement (h : b.Keyed) {t rest : Text}
    (hs : Document.statement b t = some (b', rest)) : b'.Keyed := by
  unfold Document.statement at hs
  split at hs
  all_goals
    simp only [Option.bind_eq_bind, Option.bind_eq_some_iff] at hs
    obtain ⟨⟨path, _⟩, _, hs⟩ := hs
    split at hs
  · obtain ⟨_, hi, _, _, hs⟩ := by simpa only [Option.bind_eq_some_iff] using hs
    cases hs
    exact h.startItem? hi
  · cases hs
  · obtain ⟨_, hi, _, _, hs⟩ := by simpa only [Option.bind_eq_some_iff] using hs
    cases hs
    exact h.startTable? hi
  · cases hs
  · obtain ⟨⟨v, _⟩, hv, _, hi, _, _, hs⟩ := by simpa only [Option.bind_eq_some_iff] using hs
    cases hs
    exact h.insert? (keyed_value hv) hi
  · cases hs

theorem statements {fuel : Nat} (h : b.Keyed) {t : Text}
    (hs : Document.statements fuel b t = some b') : b'.Keyed := by
  induction fuel generalizing b t with
  | zero => cases hs
  | succ fuel ih =>
    unfold Document.statements at hs
    split at hs
    · cases hs
      exact h
    · simp only [Option.bind_eq_bind, Option.bind_eq_some_iff] at hs
      obtain ⟨_, _, hs⟩ := hs
      exact ih h hs
    · split at hs
      · exact ih h hs
      · simp only [Option.bind_eq_bind, Option.bind_eq_some_iff] at hs
        obtain ⟨⟨next, _⟩, hn, hs⟩ := hs
        exact ih (h.statement hn) hs

end Builder.Keyed

theorem keyed_parse? {t : Text} {table : Table} (h : parse? t = some table) :
    (Value.table table).Keyed := by
  simp only [parse?, Option.bind_eq_bind, Option.bind_eq_some_iff] at h
  obtain ⟨b, hs, entries, hf, h⟩ := h
  cases h
  have hb : b.Keyed := Builder.Keyed.statements ⟨.nil, .nil⟩ hs
  exact (hb.finish? hf).toTable

end Document

theorem mem_of_settleItems? {items items' : List Value} (h : settleItems? items = some items') :
    ∀ v' ∈ items', ∃ v ∈ items, v.settle? = some v' := by
  induction items generalizing items' with
  | nil =>
    cases h
    simp
  | cons v rest ih =>
    simp only [settleItems?, Option.bind_eq_bind, Option.bind_eq_some_iff] at h
    obtain ⟨first, hf, others, ho, h⟩ := h
    cases h
    refine List.forall_mem_cons.2 ⟨⟨v, List.mem_cons_self, hf⟩, fun v' hv' => ?_⟩
    obtain ⟨w, hw, hs⟩ := ih ho v' hv'
    exact ⟨w, List.mem_cons_of_mem v hw, hs⟩

theorem of_settleEntries? {t t' : Table} (h : settleEntries? t = some t') :
    t'.map Prod.fst = t.map Prod.fst ∧
      ∀ entry' ∈ t', ∃ entry ∈ t, entry.2.settle? = some entry'.2 := by
  induction t generalizing t' with
  | nil =>
    cases h
    simp
  | cons entry rest ih =>
    obtain ⟨key, v⟩ := entry
    simp only [settleEntries?, Option.bind_eq_bind, Option.bind_eq_some_iff] at h
    obtain ⟨first, hf, others, ho, h⟩ := h
    cases h
    obtain ⟨hkeys, hothers⟩ := ih ho
    refine ⟨by simp only [List.map_cons, hkeys], List.forall_mem_cons.2
      ⟨⟨(key, v), List.mem_cons_self, hf⟩, fun entry' he' => ?_⟩⟩
    obtain ⟨entry, he, hs⟩ := hothers entry' he'
    exact ⟨entry, List.mem_cons_of_mem _ he, hs⟩

theorem keyed_of_settleEntries? {t t' : Table} (once : (t.map Prod.fst).Nodup)
    (inside : ∀ entry ∈ t, ∀ v, entry.2.settle? = some v → v.Keyed)
    (h : settleEntries? t = some t') : (Value.table t').Keyed := by
  obtain ⟨hkeys, hsettled⟩ := of_settleEntries? h
  refine .table (hkeys ▸ once) fun entry' he' => ?_
  obtain ⟨entry, he, hs⟩ := hsettled entry' he'
  exact inside entry he _ hs

theorem Value.Keyed.settle? {v : Value} (h : v.Keyed) {v' : Value}
    (hs : v.settle? = some v') : v'.Keyed := by
  induction h generalizing v' with
  | string s => cases hs; exact .string s
  | integer n => cases hs; exact .integer n
  | float x => cases hs; exact .float x
  | boolean b => cases hs; exact .boolean b
  | moment m => cases hs; exact .moment m
  | array _ ih =>
    simp only [Value.settle?, Option.map_eq_some_iff] at hs
    obtain ⟨items', hs, rfl⟩ := hs
    refine .array fun v' hv' => ?_
    obtain ⟨v, hv, hs⟩ := mem_of_settleItems? hs v' hv'
    exact ih v hv hs
  | @table entries once inside ih =>
    rcases entries with _ | ⟨⟨key, v⟩, rest⟩
    · cases hs
      exact .table once inside
    · simp only [Value.settle?] at hs
      split at hs
      · split at hs
        · obtain ⟨m, _, rfl⟩ := Option.map_eq_some_iff.1 hs
          exact .moment m
        · cases hs
      · -- A table that is no moment settles as its entries do.
        simp only [Option.bind_eq_bind, Option.bind_eq_some_iff] at hs
        obtain ⟨first, hf, others, ho, hs⟩ := hs
        cases hs
        refine keyed_of_settleEntries? once (fun entry he v hv => ih entry he hv) ?_
        simp [settleEntries?, hf, ho]

theorem Table.keyed_read? {t : Text} {table : Table} (h : Table.read? t = some table) :
    (Value.table table).Keyed := by
  simp only [Table.read?, Option.bind_eq_bind, Option.bind_eq_some_iff] at h
  obtain ⟨parsed, hp, hs⟩ := h
  obtain ⟨once, inside⟩ := Value.keyed_table.1 (Document.keyed_parse? hp)
  exact keyed_of_settleEntries? once (fun entry he v hv => (inside entry he).settle? hv) hs

end GrammarHeaders.Toml
