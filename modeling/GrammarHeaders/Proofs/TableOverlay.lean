import GrammarHeaders.Proofs.ConfigLayers

namespace GrammarHeaders.Toml

/-- What a value has at a path of keys. Only tables have keys. -/
def Value.at? : Value → List String → Option Value
  | v, [] => some v
  | .table entries, key :: path => (Table.get? entries key).bind fun v => v.at? path
  | _, _ :: _ => none

/-- Nothing but tables comes before the end of the path. -/
def Value.Passes (v : Value) (path : List String) : Prop :=
  ∀ front, front <+: path → front ≠ path → ∀ u, v.at? front = some u → u.isTable = true

namespace Value

variable {v w : Value} {below : Option Value} {key : String} {path : List String}

@[simp] theorem at?_nil (v : Value) : v.at? [] = some v := by
  cases v <;> rfl

@[simp] theorem at?_table_cons (entries : Table) (key : String) (path : List String) :
    (table entries).at? (key :: path) = (Table.get? entries key).bind fun v => v.at? path := rfl

theorem at?_cons_of_not_table (h : v.isTable = false) (key : String) (path : List String) :
    v.at? (key :: path) = none := by
  cases v with
  | table entries => cases h
  | _ => rfl

theorem at?_cons (v : Value) (key : String) (path : List String) :
    v.at? (key :: path) = (v.at? [key]).bind fun u => u.at? path := by
  cases v <;> simp [at?]

theorem passes_nil (v : Value) : v.Passes [] := fun _ hp hne => absurd (List.prefix_nil.mp hp) hne

theorem passes_cons_iff : v.Passes (key :: path) ↔
    v.isTable = true ∧ ∀ u, v.at? [key] = some u → u.Passes path := by
  constructor
  · intro h
    refine ⟨h [] List.nil_prefix (by simp) v (at?_nil v), fun u hu front hp hne x hx => ?_⟩
    refine h (key :: front) ((List.prefix_cons_inj key).mpr hp) (by simp [hne]) x ?_
    rw [at?_cons, hu, Option.bind_some, hx]
  · rintro ⟨htable, hrest⟩ front hp hne x hx
    cases front with
    | nil =>
      rw [at?_nil] at hx
      exact Option.some.inj hx ▸ htable
    | cons first front =>
      obtain ⟨rfl, hfront⟩ := List.cons_prefix_cons.mp hp
      rw [at?_cons] at hx
      obtain ⟨u, hu, hx⟩ := Option.bind_eq_some_iff.mp hx
      exact hrest u hu front hfront (fun he => hne (by rw [he])) x hx

theorem over_cases (v : Value) (below : Option Value) :
    (∃ upper lower, v = .table upper ∧ below = some (.table lower)) ∨
      v.over below = v ∧ (v.isTable = true → ∀ b ∈ below, b.isTable = false) := by
  cases v with
  | table upper =>
    cases below with
    | none => exact .inr ⟨rfl, by simp⟩
    | some b =>
      cases b with
      | table lower => exact .inl ⟨upper, lower, rfl, rfl⟩
      | _ => exact .inr ⟨rfl, fun _ b hb => by obtain rfl := Option.some.inj hb; rfl⟩
  | _ => exact .inr ⟨rfl, nofun⟩

/-- Along a path that passes through tables, values are laid over each other key by key; behind
anything else there is nothing. -/
theorem at?_over (hv : v.Keyed) (below : Option Value) (path : List String) :
    v.Passes path ∧ (v.over below).at? path =
        over? (v.at? path) (below.bind fun b => b.at? path) ∨
      ¬ v.Passes path ∧ v.at? path = none ∧ (v.over below).at? path = none := by
  induction path generalizing v below with
  | nil =>
    have hbelow : (below.bind fun b => b.at? []) = below := by cases below <;> simp
    exact .inl ⟨passes_nil v, by rw [at?_nil, at?_nil, hbelow, over?]⟩
  | cons key path ih =>
    by_cases htable : v.isTable = true
    · obtain ⟨upper, rfl⟩ := isTable_iff.mp htable
      obtain ⟨once, inside⟩ := keyed_table.mp hv
      -- under its first key the path meets the upper value there, laid over a lower one if there is one
      obtain ⟨lower, hover, hlower⟩ : ∃ lower : Option Value,
          ((table upper).over below).at? [key] = over? (Table.get? upper key) lower ∧
            (below.bind fun b => b.at? (key :: path)) = lower.bind fun b => b.at? path := by
        obtain ⟨_, lower, he, rfl⟩ | ⟨hsame, hnone⟩ := over_cases (table upper) below
        · obtain rfl := Value.table.inj he
          refine ⟨Table.get? lower key, ?_, by simp⟩
          rw [over_table, at?_table_cons, get?_overlay once]
          simp
        · refine ⟨none, by simp [hsame], ?_⟩
          cases below with
          | none => rfl
          | some b => exact at?_cons_of_not_table (hnone htable b rfl) key path
      rw [at?_cons ((table upper).over below), hover, hlower, passes_cons_iff, at?_table_cons, at?_table_cons]
      cases hu : Table.get? upper key with
      | none => exact .inl ⟨⟨htable, by simp⟩, by simp [over?]⟩
      | some u =>
        have hpasses : (table upper).isTable = true ∧ (∀ x, ((some u).bind fun u => u.at? []) = some x →
            x.Passes path) ↔ u.Passes path := by simp [htable]
        rw [hpasses]
        exact ih (inside _ (Table.mem_of_get? hu)) lower
    · have hplain : v.isTable = false := by simpa using htable
      refine .inr ⟨fun h => htable (passes_cons_iff.mp h).1, at?_cons_of_not_table hplain key path, ?_⟩
      rw [over_of_not_table fun entries he => by simp [he, isTable] at hplain]
      exact at?_cons_of_not_table hplain key path

theorem over_eq_iff (hw : w.isTable = false) : v.over below = w ↔ v = w := by
  obtain ⟨upper, lower, rfl, rfl⟩ | ⟨hsame, -⟩ := over_cases v below
  · rw [over_table]
    constructor
    all_goals
      rintro rfl
      cases hw
  · rw [hsame]

/-- Something other than a table is at a path if the upper value has it there, or if the lower one
has it and the upper value has nothing there and only tables on the way. -/
theorem at?_over_eq_some_iff (hv : v.Keyed) (hw : w.isTable = false) :
    (v.over below).at? path = some w ↔ v.at? path = some w ∨
      (below.bind fun b => b.at? path) = some w ∧ v.at? path = none ∧ v.Passes path := by
  obtain ⟨hpasses, hover⟩ | ⟨hpasses, hnone, hover⟩ := at?_over hv below path
  · rw [hover]
    cases v.at? path <;> simp [over?, over_eq_iff hw, hpasses]
  · simp [hover, hnone, hpasses]

theorem at?_over_eq_none (hv : v.Keyed) (h : v.at? path = none)
    (hb : (below.bind fun b => b.at? path) = none) : (v.over below).at? path = none := by
  obtain ⟨-, hover⟩ | ⟨-, -, hover⟩ := at?_over hv below path
  · rw [hover, h, hb]
    rfl
  · exact hover

end Value

namespace Table

variable {t : Table} {key : String} {v : Value}

theorem get?_of_mem (once : (t.map Prod.fst).Nodup) (h : (key, v) ∈ t) : t.get? key = some v := by
  induction t with
  | nil => cases h
  | cons entry rest ih =>
    obtain ⟨k, w⟩ := entry
    rw [List.map_cons, List.nodup_cons] at once
    rw [get?]
    obtain he | h := List.mem_cons.mp h
    · obtain ⟨rfl, rfl⟩ := Prod.mk.inj he
      rw [if_pos rfl]
    · rw [if_neg fun hk => once.1 (List.mem_map.mpr ⟨_, h, hk.symm⟩)]
      exact ih once.2 h

theorem set_of_get? (h : t.get? key = some v) : t.set key v = t := by
  induction t with
  | nil => cases h
  | cons entry rest ih =>
    obtain ⟨k, w⟩ := entry
    rw [get?] at h
    rw [set]
    split at h
    · rename_i hk
      rw [if_pos hk, hk, Option.some.inj h]
    · rename_i hk
      rw [if_neg hk, ih h]

theorem set_of_not_mem (h : key ∉ t.map Prod.fst) (v : Value) : t.set key v = t ++ [(key, v)] := by
  induction t with
  | nil => rfl
  | cons entry rest ih =>
    rw [List.map_cons, List.mem_cons, not_or] at h
    rw [set, if_neg (Ne.symm h.1), ih h.2, List.cons_append]

theorem map_fst_set (t : Table) (key : String) (v : Value) :
    (t.set key v).map Prod.fst =
      if key ∈ t.map Prod.fst then t.map Prod.fst else t.map Prod.fst ++ [key] := by
  split
  · rename_i hmem
    induction t with
    | nil => cases hmem
    | cons entry rest ih =>
      obtain ⟨k, w⟩ := entry
      rw [set]
      split
      · rename_i hk
        simp [hk]
      · rename_i hk
        rw [List.map_cons, List.mem_cons] at hmem
        rw [List.map_cons, List.map_cons, ih (hmem.resolve_left (Ne.symm hk))]
  · rename_i hmem
    rw [set_of_not_mem hmem, List.map_append, List.map_cons, List.map_nil]

theorem mem_set {entry : String × Value} (h : entry ∈ t.set key v) : entry ∈ t ∨ entry = (key, v) := by
  induction t with
  | nil => exact .inr (List.mem_singleton.mp h)
  | cons first rest ih =>
    obtain ⟨k, w⟩ := first
    rw [set] at h
    split at h
    · exact (List.mem_cons.mp h).symm.imp_left (List.mem_cons_of_mem _)
    · obtain rfl | h := List.mem_cons.mp h
      · exact .inl List.mem_cons_self
      · exact (ih h).imp_left (List.mem_cons_of_mem _)

theorem keyed_set (ht : (Value.table t).Keyed) (hv : v.Keyed) : (Value.table (t.set key v)).Keyed := by
  obtain ⟨once, inside⟩ := Value.keyed_table.mp ht
  refine .table ?_ fun entry he => ?_
  · rw [map_fst_set]
    split
    · exact once
    · rename_i hmem
      exact once.append (List.nodup_singleton key) (by simpa using hmem)
  · obtain he | rfl := mem_set he
    · exact inside entry he
    · exact hv

end Table

section Overlay

variable {t base : Table} {v : Value} {below : Option Value}

theorem overlay_of_disjoint (once : (t.map Prod.fst).Nodup)
    (h : ∀ key ∈ t.map Prod.fst, key ∉ base.map Prod.fst) : overlay t base = base ++ t := by
  induction t generalizing base with
  | nil => rw [overlay, List.append_nil]
  | cons entry rest ih =>
    obtain ⟨key, v⟩ := entry
    rw [List.map_cons, List.nodup_cons] at once
    rw [List.map_cons, List.forall_mem_cons] at h
    have hkeys : ∀ k ∈ rest.map Prod.fst, k ∉ (base ++ [(key, v)]).map Prod.fst := by
      intro k hk hmem
      rw [List.map_append, List.mem_append] at hmem
      obtain hmem | hmem := hmem
      · exact h.2 k hk hmem
      · exact once.1 (List.mem_singleton.mp hmem ▸ hk)
    rw [overlay, Table.get?_eq_none.mpr h.1, Value.over_none, Table.set_of_not_mem h.1, ih once.2 hkeys,
      List.append_assoc, List.singleton_append]

theorem overlay_empty (once : (t.map Prod.fst).Nodup) : overlay t [] = t :=
  overlay_of_disjoint once (by simp)

theorem overlay_eq_self (h : ∀ entry ∈ t, ∃ v, base.get? entry.1 = some v ∧ entry.2.over (some v) = v) :
    overlay t base = base := by
  induction t with
  | nil => rfl
  | cons entry rest ih =>
    obtain ⟨key, u⟩ := entry
    obtain ⟨⟨v, hv, hover⟩, hrest⟩ := List.forall_mem_cons.mp h
    rw [overlay, hv, hover, Table.set_of_get? hv]
    exact ih hrest

theorem Value.Keyed.over_over (h : v.Keyed) (below : Option Value) :
    v.over (some (v.over below)) = v.over below := by
  induction h generalizing below with
  | @table t once inside ih =>
    obtain ⟨base, hbase⟩ : ∃ base, (Value.table t).over below = .table (overlay t base) := by
      obtain ⟨_, base, he, rfl⟩ | ⟨hsame, -⟩ := over_cases (.table t) below
      · exact ⟨base, by rw [over_table]⟩
      · exact ⟨[], by rw [hsame, overlay_empty once]⟩
    rw [hbase, over_table]
    refine congrArg Value.table (overlay_eq_self fun entry he => ?_)
    refine ⟨_, ?_, ih entry he (base.get? entry.1)⟩
    rw [get?_overlay once, Table.get?_of_mem once he]
    rfl
  | _ => rfl

theorem Value.Keyed.over (h : v.Keyed) (hb : ∀ b ∈ below, b.Keyed) : (v.over below).Keyed := by
  induction h generalizing below with
  | @table t once inside ih =>
    obtain ⟨_, base, he, rfl⟩ | ⟨hsame, -⟩ := over_cases (.table t) below
    · rw [over_table]
      have hbase := hb _ rfl
      clear once inside hb he
      induction t generalizing base with
      | nil => exact hbase
      | cons entry rest ihrest =>
        obtain ⟨hentry, hrest⟩ := List.forall_mem_cons.mp ih
        rw [overlay]
        refine ihrest hrest _ (Table.keyed_set hbase (hentry fun b hb => ?_))
        exact (Value.keyed_table.mp hbase).2 _ (Table.mem_of_get? hb)
    · rw [hsame]
      exact .table once inside
  | string s => exact .string s
  | integer n => exact .integer n
  | float x => exact .float x
  | boolean b => exact .boolean b
  | moment m => exact .moment m
  | array inside _ => exact .array inside

/-- A table laid over another has, at every path, what the path law says, its keys are unique again,
and neither an empty table nor the same table once more changes anything. -/
theorem overlay_obeys_path_law (ho : (Value.table t).Keyed) (hb : (Value.table base).Keyed) :
    (∀ path v, v.isTable = false → ((Value.table (overlay t base)).at? path = some v ↔
      (Value.table t).at? path = some v ∨
        (Value.table base).at? path = some v ∧ (Value.table t).at? path = none ∧
          (Value.table t).Passes path)) ∧
    (∀ path, (Value.table t).at? path = none → (Value.table base).at? path = none →
      (Value.table (overlay t base)).at? path = none) ∧
    (Value.table (overlay t base)).Keyed ∧
    overlay t [] = t ∧ overlay [] base = base ∧ overlay t (overlay t base) = overlay t base := by
  rw [← Value.over_table]
  refine ⟨fun path v hv => ?_, fun path h h' => ?_, ho.over fun b hm => ?_, ?_, rfl, ?_⟩
  · rw [Value.at?_over_eq_some_iff ho hv, Option.bind_some]
  · exact Value.at?_over_eq_none ho h h'
  · exact Option.some.inj hm ▸ hb
  · exact overlay_empty (Value.keyed_table.mp ho).1
  · exact Value.table.inj (by simpa using ho.over_over (some (.table base)))

/-- A table inside a table, beside a string and a table that the other one gives other kinds of
values. -/
def clashingBase : Table :=
  [("left", .table [("kept", .integer 1), ("lost", .table [("deep", .boolean true)])]),
    ("plain", .string "s"), ("nested", .table [("hidden", .integer 4)])]

def clashingTable : Table :=
  [("nested", .string "t"), ("left", .table [("lost", .integer 9), ("new", .table [])]),
    ("plain", .table [("inner", .integer 2)])]

theorem overlay_obeys_path_law_clashing :
    (Value.table clashingTable).Keyed ∧ (Value.table clashingBase).Keyed ∧
    (Value.table (overlay clashingTable clashingBase)).at? ["left", "kept"] = some (.integer 1) ∧
    (Value.table (overlay clashingTable clashingBase)).at? ["plain", "inner"] = some (.integer 2) ∧
    (Value.table (overlay clashingTable clashingBase)).at? ["nested", "hidden"] ≠ some (.integer 4) ∧
    overlay clashingTable (overlay clashingTable clashingBase) =
      overlay clashingTable clashingBase := by
  have keyedTable : (Value.table clashingTable).Keyed := by
    refine .table (by decide) ?_
    simp only [clashingTable, List.forall_mem_cons, List.not_mem_nil, false_imp_iff, implies_true,
      and_true]
    refine ⟨.string _, .table (by decide) ?_, .table (by decide) ?_⟩
    · simpa using ⟨Value.Keyed.integer 9, Value.Keyed.table (by decide) (by simp)⟩
    · simpa using Value.Keyed.integer 2
  have keyedBase : (Value.table clashingBase).Keyed := by
    refine .table (by decide) ?_
    simp only [clashingBase, List.forall_mem_cons, List.not_mem_nil, false_imp_iff, implies_true,
      and_true]
    refine ⟨.table (by decide) ?_, .string _, .table (by decide) ?_⟩
    · have deep : (Value.table [("deep", .boolean true)]).Keyed :=
        .table (by decide) (by simpa using Value.Keyed.boolean true)
      simpa using ⟨Value.Keyed.integer 1, deep⟩
    · simpa using Value.Keyed.integer 4
  obtain ⟨law, -, -, -, -, again⟩ := overlay_obeys_path_law keyedTable keyedBase
  refine ⟨keyedTable, keyedBase, (law _ _ rfl).mpr (.inr ⟨rfl, rfl, ?_⟩),
    (law _ _ rfl).mpr (.inl rfl), fun h => ?_, again⟩
  · refine Value.passes_cons_iff.mpr ⟨rfl, fun u hu => ?_⟩
    obtain rfl := Option.some.inj hu
    exact Value.passes_cons_iff.mpr ⟨rfl, fun u _ => Value.passes_nil u⟩
  · obtain h | ⟨-, -, passes⟩ := (law _ _ rfl).mp h
    · cases h
    · exact absurd (passes ["nested"] (by decide) (by decide) _ rfl) nofun

end Overlay

end GrammarHeaders.Toml
