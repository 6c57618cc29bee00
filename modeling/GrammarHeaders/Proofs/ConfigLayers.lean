import GrammarHeaders.Config.Load
import GrammarHeaders.Proofs.UniqueKeys

namespace GrammarHeaders

namespace Toml

/-- Whether a value is a table. -/
def Value.isTable : Value → Bool
  | .table _ => true
  | _ => false

theorem Value.isTable_iff {v : Value} : v.isTable ↔ ∃ entries, v = .table entries := by
  cases v <;> simp [isTable]

@[simp] theorem Value.over_none (v : Value) : v.over none = v := by
  cases v <;> rfl

@[simp] theorem Value.over_table (incoming existing : Table) :
    (Value.table incoming).over (some (.table existing)) = .table (overlay incoming existing) := rfl

theorem Value.over_of_not_table {v : Value} (h : ∀ entries, v ≠ .table entries)
    (below : Option Value) : v.over below = v := by
  cases v with
  | table entries => exact absurd rfl (h entries)
  | _ => rfl

/-- What is read from a value laid over another is read from that value, if it cannot be a
table. -/
theorem Value.over_eq_of_read {α : Type} {read : Value → Option α} {v : Value}
    {below : Option Value} {a : α} (refuses : ∀ entries, read (.table entries) = none)
    (h : read (v.over below) = some a) : v.over below = v := by
  refine Value.over_of_not_table (fun entries hv => ?_) below
  subst hv
  unfold Value.over at h
  split at h <;> simp [refuses] at h

/-- What a key has after a table is laid over another, by what it has in each of them. -/
def over? : Option Value → Option Value → Option Value
  | some v, below => some (v.over below)
  | none, below => below

@[simp] theorem over?_none (above : Option Value) : over? above none = above := by
  cases above <;> simp [over?]

theorem get?_overlay {t : Table} (once : (t.map Prod.fst).Nodup) (base : Table) (key : String) :
    (overlay t base).get? key = over? (t.get? key) (base.get? key) := by
  induction t generalizing base with
  | nil => rfl
  | cons entry rest ih =>
    obtain ⟨k, v⟩ := entry
    rw [List.map_cons, List.nodup_cons] at once
    rw [overlay, ih once.2, Table.get?_set]
    by_cases hk : k = key
    · -- The key comes only once, so the rest of the table leaves it alone.
      subst hk
      simp [Table.get?, Table.get?_eq_none.2 once.1, over?]
    · simp [Table.get?, hk]

end Toml

open Toml

namespace Schema

/-- The sections of a configuration file. -/
def headings : List String := ["export", "layout", "bindings", "generate"]

/-- The keys of a section, in the order in which an array gives them. -/
def fieldNames : String → List String
  | "export" =>
    ["macro_name", "enable_define", "disable_define", "windows_attribute", "unix_attribute"]
  | "layout" => ["root_function_prefix", "root_include_dir", "parser_file"]
  | "bindings" => ["generator", "args"]
  | "generate" => ["jobs", "allow_name_mismatch"]
  | _ => []

/-- The fields of one section of a table, if the section may stand there. -/
def fieldsOf? (t : Table) (heading : String) : Option Fields := section? .stored
  (fieldNames heading) (t.get? heading)

/-- The fields of one section of a table. -/
def fieldsOf (t : Table) (heading : String) : Fields := (fieldsOf? t heading).getD fun _ => none

theorem fieldsOf_of_fieldsOf? {t : Table} {heading : String} {fields : Fields}
    (h : fieldsOf? t heading = some fields) : fieldsOf t heading = fields := by
  rw [fieldsOf, h, Option.getD_some]

/-- A relation between the key of a setting, how its values are read, its default and its value
holds of every setting. -/
structure EachSetting
    (rel : ∀ {α : Type}, String → String → (Value → Option α) → α → α → Prop) (c : Config) :
    Prop where
  macroName : rel "export" "macro_name" (string? .stored) ({} : ExportMacro).name
    c.exportMacro.name
  enableDefine : rel "export" "enable_define" (string? .stored) ({} : ExportMacro).enableDefine
    c.exportMacro.enableDefine
  disableDefine : rel "export" "disable_define" (string? .stored)
    ({} : ExportMacro).disableDefine c.exportMacro.disableDefine
  windowsAttribute : rel "export" "windows_attribute" (string? .stored)
    ({} : ExportMacro).windowsAttribute c.exportMacro.windowsAttribute
  unixAttribute : rel "export" "unix_attribute" (string? .stored)
    ({} : ExportMacro).unixAttribute c.exportMacro.unixAttribute
  rootFunctionPrefix : rel "layout" "root_function_prefix" (string? .stored)
    ({} : LayoutSettings).rootFunctionPrefix c.layout.rootFunctionPrefix
  rootIncludeDir : rel "layout" "root_include_dir" (string? .stored)
    ({} : LayoutSettings).rootIncludeDir.text c.layout.rootIncludeDir.text
  parserFile : rel "layout" "parser_file" (string? .stored) ({} : LayoutSettings).parserFile
    c.layout.parserFile
  generator : rel "bindings" "generator"
    (fun v => (string? .stored v).map fun s => some (⟨s⟩ : Path)) none c.bindings.generator
  args : rel "bindings" "args" (strings? .stored) [] c.bindings.args
  jobs : rel "generate" "jobs" (fun v => (count? v).map some) none c.generate.jobs
  allowNameMismatch : rel "generate" "allow_name_mismatch" boolean? false
    c.generate.allowNameMismatch

namespace EachSetting

variable {rel rel₁ rel₂ : ∀ {α : Type}, String → String → (Value → Option α) → α → α → Prop}
  {c c₁ c₂ : Config}

theorem mono (imp : ∀ {α : Type} (heading name : String) (read : Value → Option α)
      (default value : α), heading ∈ headings → (∀ entries, read (.table entries) = none) →
      rel₁ heading name read default value → rel heading name read default value)
    (h : EachSetting rel₁ c) : EachSetting rel c where
  macroName := imp _ _ _ _ _ (by decide) (fun _ => rfl) h.macroName
  enableDefine := imp _ _ _ _ _ (by decide) (fun _ => rfl) h.enableDefine
  disableDefine := imp _ _ _ _ _ (by decide) (fun _ => rfl) h.disableDefine
  windowsAttribute := imp _ _ _ _ _ (by decide) (fun _ => rfl) h.windowsAttribute
  unixAttribute := imp _ _ _ _ _ (by decide) (fun _ => rfl) h.unixAttribute
  rootFunctionPrefix := imp _ _ _ _ _ (by decide) (fun _ => rfl) h.rootFunctionPrefix
  rootIncludeDir := imp _ _ _ _ _ (by decide) (fun _ => rfl) h.rootIncludeDir
  parserFile := imp _ _ _ _ _ (by decide) (fun _ => rfl) h.parserFile
  generator := imp _ _ _ _ _ (by decide) (fun _ => rfl) h.generator
  args := imp _ _ _ _ _ (by decide) (fun _ => rfl) h.args
  jobs := imp _ _ _ _ _ (by decide) (fun _ => rfl) h.jobs
  allowNameMismatch := imp _ _ _ _ _ (by decide) (fun _ => rfl) h.allowNameMismatch

theorem exists_of_forall (find : ∀ {α : Type} (heading name : String) (read : Value → Option α)
      (default v₁ v₂ : α), heading ∈ headings → (∀ entries, read (.table entries) = none) →
      rel₁ heading name read default v₁ → rel₂ heading name read default v₂ →
      ∃ value, rel heading name read default value)
    (h₁ : EachSetting rel₁ c₁) (h₂ : EachSetting rel₂ c₂) : ∃ c, EachSetting rel c := by
  obtain ⟨name, hn⟩ := find _ _ _ _ _ _ (by decide) (fun _ => rfl) h₁.macroName h₂.macroName
  obtain ⟨enable, he⟩ :=
    find _ _ _ _ _ _ (by decide) (fun _ => rfl) h₁.enableDefine h₂.enableDefine
  obtain ⟨disable, hd⟩ :=
    find _ _ _ _ _ _ (by decide) (fun _ => rfl) h₁.disableDefine h₂.disableDefine
  obtain ⟨windows, hw⟩ :=
    find _ _ _ _ _ _ (by decide) (fun _ => rfl) h₁.windowsAttribute h₂.windowsAttribute
  obtain ⟨unix, hu⟩ :=
    find _ _ _ _ _ _ (by decide) (fun _ => rfl) h₁.unixAttribute h₂.unixAttribute
  obtain ⟨rootPrefix, hp⟩ :=
    find _ _ _ _ _ _ (by decide) (fun _ => rfl) h₁.rootFunctionPrefix h₂.rootFunctionPrefix
  obtain ⟨includeDir, hi⟩ :=
    find _ _ _ _ _ _ (by decide) (fun _ => rfl) h₁.rootIncludeDir h₂.rootIncludeDir
  obtain ⟨parser, hs⟩ := find _ _ _ _ _ _ (by decide) (fun _ => rfl) h₁.parserFile h₂.parserFile
  obtain ⟨generator, hg⟩ := find _ _ _ _ _ _ (by decide) (fun _ => rfl) h₁.generator h₂.generator
  obtain ⟨args, ha⟩ := find _ _ _ _ _ _ (by decide) (fun _ => rfl) h₁.args h₂.args
  obtain ⟨jobs, hj⟩ := find _ _ _ _ _ _ (by decide) (fun _ => rfl) h₁.jobs h₂.jobs
  obtain ⟨allow, hm⟩ :=
    find _ _ _ _ _ _ (by decide) (fun _ => rfl) h₁.allowNameMismatch h₂.allowNameMismatch
  exact ⟨⟨⟨name, enable, disable, windows, unix⟩, ⟨rootPrefix, ⟨includeDir⟩, parser⟩,
    ⟨generator, args⟩, ⟨jobs, allow⟩⟩, ⟨hn, he, hd, hw, hu, hp, hi, hs, hg, ha, hj, hm⟩⟩

end EachSetting

/-- A setting has this value among the fields of its section. -/
def GivenBy (fields : String → Fields) {α : Type} (heading name : String)
    (read : Value → Option α) (default value : α) : Prop :=
  field (fields heading) name read default = some value

theorem exportMacro?_eq_some_iff {v : Option Value} {m : ExportMacro} :
    exportMacro? .stored v = some m ↔
      ∃ fields, section? .stored (fieldNames "export") v = some fields ∧
        field fields "macro_name" (string? .stored) ({} : ExportMacro).name = some m.name ∧
        field fields "enable_define" (string? .stored) ({} : ExportMacro).enableDefine =
          some m.enableDefine ∧
        field fields "disable_define" (string? .stored) ({} : ExportMacro).disableDefine =
          some m.disableDefine ∧
        field fields "windows_attribute" (string? .stored) ({} : ExportMacro).windowsAttribute =
          some m.windowsAttribute ∧
        field fields "unix_attribute" (string? .stored) ({} : ExportMacro).unixAttribute =
          some m.unixAttribute := by
  simp only [exportMacro?, Option.bind_eq_bind, Option.bind_eq_some_iff, Option.pure_def]
  constructor
  · rintro ⟨fields, hf, _, h₁, _, h₂, _, h₃, _, h₄, _, h₅, h⟩
    cases h
    exact ⟨fields, hf, h₁, h₂, h₃, h₄, h₅⟩
  · rintro ⟨fields, hf, h₁, h₂, h₃, h₄, h₅⟩
    exact ⟨fields, hf, _, h₁, _, h₂, _, h₃, _, h₄, _, h₅, rfl⟩

theorem layout?_eq_some_iff {v : Option Value} {s : LayoutSettings} :
    layout? .stored v = some s ↔
      ∃ fields, section? .stored (fieldNames "layout") v = some fields ∧
        field fields "root_function_prefix" (string? .stored)
          ({} : LayoutSettings).rootFunctionPrefix = some s.rootFunctionPrefix ∧
        field fields "root_include_dir" (string? .stored)
          ({} : LayoutSettings).rootIncludeDir.text = some s.rootIncludeDir.text ∧
        field fields "parser_file" (string? .stored) ({} : LayoutSettings).parserFile =
          some s.parserFile := by
  simp only [layout?, Option.bind_eq_bind, Option.bind_eq_some_iff, Option.pure_def]
  constructor
  · rintro ⟨fields, hf, _, h₁, _, h₂, _, h₃, h⟩
    cases h
    exact ⟨fields, hf, h₁, h₂, h₃⟩
  · rintro ⟨fields, hf, h₁, h₂, h₃⟩
    exact ⟨fields, hf, _, h₁, _, h₂, _, h₃, rfl⟩

theorem bindings?_eq_some_iff {v : Option Value} {s : BindingSettings} :
    bindings? .stored v = some s ↔
      ∃ fields, section? .stored (fieldNames "bindings") v = some fields ∧
        field fields "generator" (fun v => (string? .stored v).map fun s => some (⟨s⟩ : Path))
          none = some s.generator ∧
        field fields "args" (strings? .stored) [] = some s.args := by
  simp only [bindings?, Option.bind_eq_bind, Option.bind_eq_some_iff, Option.pure_def]
  constructor
  · rintro ⟨fields, hf, _, h₁, _, h₂, h⟩
    cases h
    exact ⟨fields, hf, h₁, h₂⟩
  · rintro ⟨fields, hf, h₁, h₂⟩
    exact ⟨fields, hf, _, h₁, _, h₂, rfl⟩

theorem generate?_eq_some_iff {v : Option Value} {s : RunSettings} :
    generate? .stored v = some s ↔
      ∃ fields, section? .stored (fieldNames "generate") v = some fields ∧
        field fields "jobs" (fun v => (count? v).map some) none = some s.jobs ∧
        field fields "allow_name_mismatch" boolean? false = some s.allowNameMismatch := by
  simp only [generate?, Option.bind_eq_bind, Option.bind_eq_some_iff, Option.pure_def]
  constructor
  · rintro ⟨fields, hf, _, h₁, _, h₂, h⟩
    cases h
    exact ⟨fields, hf, h₁, h₂⟩
  · rintro ⟨fields, hf, h₁, h₂⟩
    exact ⟨fields, hf, _, h₁, _, h₂, rfl⟩

end Schema

open Schema

theorem Config.ofTable?_eq_some_iff {t : Table} {c : Config} :
    ofTable? .stored t = some c ↔
      (∀ heading ∈ headings, (fieldsOf? t heading).isSome) ∧
        EachSetting (GivenBy (fieldsOf t)) c := by
  simp only [ofTable?, Option.bind_eq_bind, Option.bind_eq_some_iff, Option.pure_def,
    exportMacro?_eq_some_iff, layout?_eq_some_iff, bindings?_eq_some_iff, generate?_eq_some_iff]
  constructor
  · rintro ⟨m, ⟨fm, hm, m₁, m₂, m₃, m₄, m₅⟩, l, ⟨fl, hl, l₁, l₂, l₃⟩, b, ⟨fb, hb, b₁, b₂⟩,
      g, ⟨fg, hg, g₁, g₂⟩, h⟩
    cases h
    have sections : ∀ heading ∈ headings, (fieldsOf? t heading).isSome := by
      simp [headings, fieldsOf?, hm, hl, hb, hg]
    rw [← fieldsOf_of_fieldsOf? hm] at m₁ m₂ m₃ m₄ m₅
    rw [← fieldsOf_of_fieldsOf? hl] at l₁ l₂ l₃
    rw [← fieldsOf_of_fieldsOf? hb] at b₁ b₂
    rw [← fieldsOf_of_fieldsOf? hg] at g₁ g₂
    exact ⟨sections, ⟨m₁, m₂, m₃, m₄, m₅, l₁, l₂, l₃, b₁, b₂, g₁, g₂⟩⟩
  · rintro ⟨sections, h⟩
    have given : ∀ heading ∈ headings, section? .stored (fieldNames heading) (t.get? heading) =
        some (fieldsOf t heading) := by
      intro heading hh
      obtain ⟨fields, hf⟩ := Option.isSome_iff_exists.1 (sections heading hh)
      rw [fieldsOf_of_fieldsOf? hf]
      exact hf
    exact ⟨_, ⟨_, given "export" (by decide), h.macroName, h.enableDefine, h.disableDefine,
        h.windowsAttribute, h.unixAttribute⟩,
      _, ⟨_, given "layout" (by decide), h.rootFunctionPrefix, h.rootIncludeDir, h.parserFile⟩,
      _, ⟨_, given "bindings" (by decide), h.generator, h.args⟩,
      _, ⟨_, given "generate" (by decide), h.jobs, h.allowNameMismatch⟩, rfl⟩

namespace Schema

theorem ne_table_of_field {α : Type} {fields : Fields} {name : String} {read : Value → Option α}
    {default v : α} (refuses : ∀ entries, read (.table entries) = none)
    (h : field fields name read default = some v) (entries : Table) :
    fields name ≠ some (.table entries) := by
  intro he
  simp [field, he, refuses] at h

theorem over?_eq_or {above : Option Value} (h : ∀ entries, above ≠ some (.table entries))
    (below : Option Value) : over? above below = above.or below := by
  cases above with
  | none => rfl
  | some v =>
    rw [over?, Value.over_of_not_table fun entries he => h entries (congrArg some he)]
    rfl

/-- The section of a table laid over another still fits. Unless both give it as a table, it is
taken whole. -/
theorem fieldsOf?_overlay {t : Table} (ht : (Value.table t).Keyed) (base : Table)
    (heading : String) :
    (∃ upper lower, t.get? heading = some (.table upper) ∧
      base.get? heading = some (.table lower) ∧
      fieldsOf? (overlay t base) heading =
        some fun name => over? (Table.get? upper name) (Table.get? lower name)) ∨
    fieldsOf? (overlay t base) heading = fieldsOf? t heading ∨
    (t.get? heading = none ∧
      fieldsOf? (overlay t base) heading = fieldsOf? base heading) := by
  obtain ⟨once, inside⟩ := Value.keyed_table.1 ht
  simp only [fieldsOf?, get?_overlay once]
  cases hv : t.get? heading with
  | none => exact .inr (.inr ⟨rfl, rfl⟩)
  | some v =>
    by_cases both : (∃ upper, v = .table upper) ∧ ∃ lower, base.get? heading = some (.table lower)
    · obtain ⟨⟨upper, rfl⟩, lower, hb⟩ := both
      refine .inl ⟨upper, lower, rfl, hb, ?_⟩
      have hupper := Value.keyed_table.1 (inside _ (Table.mem_of_get? hv))
      rw [hb, over?, Value.over_table]
      exact congrArg some (funext (get?_overlay hupper.1 lower))
    · have hover : v.over (base.get? heading) = v := by
        unfold Value.over
        split
        · next upper lower hb => exact absurd ⟨⟨upper, rfl⟩, lower, hb⟩ both
        · rfl
      refine .inr (.inl ?_)
      rw [over?, hover]

/-- The table gives its sections as tables, not as arrays of their fields. -/
def Tabular (t : Table) : Prop := ∀ heading ∈ headings, ∀ v ∈ t.get? heading, v.isTable

instance (t : Table) : Decidable (Tabular t) :=
  inferInstanceAs (Decidable (∀ heading ∈ headings, ∀ v ∈ t.get? heading, v.isTable = true))

theorem tabular_nil : Tabular [] := by decide

/-- The value that a table sets under a key of a section. -/
def setting? (t : Table) (heading name : String) : Option Value :=
  match t.get? heading with
  | some (.table entries) => Table.get? entries name
  | _ => none

theorem fieldsOf_of_tabular {t : Table} (h : Tabular t) {heading : String}
    (hh : heading ∈ headings) : fieldsOf t heading = setting? t heading := by
  cases hv : t.get? heading with
  | none =>
    funext name
    simp [fieldsOf, fieldsOf?, setting?, section?, hv]
  | some v =>
    obtain ⟨entries, rfl⟩ := Value.isTable_iff.1 (h heading hh v hv)
    funext name
    simp [fieldsOf, fieldsOf?, setting?, section?, hv]

/-- A table that can be laid over another: its keys are unique and it fits. -/
structure Sound (t : Table) : Prop where
  keyed : (Value.table t).Keyed
  fits : (Config.ofTable? .stored t).isSome

theorem sound_nil : Sound [] := ⟨.table List.nodup_nil (by simp), rfl⟩

/-- A table that fits keeps fitting when it is laid over another that fits: a field is of one of
the two, since no setting takes a table. -/
theorem Sound.fits_overlay {t base : Table} (h : Sound t)
    (hb : (Config.ofTable? .stored base).isSome) :
    (Config.ofTable? .stored (overlay t base)).isSome := by
  obtain ⟨c, hc⟩ := Option.isSome_iff_exists.1 h.fits
  obtain ⟨cb, hcb⟩ := Option.isSome_iff_exists.1 hb
  obtain ⟨sections, given⟩ := Config.ofTable?_eq_some_iff.1 hc
  obtain ⟨sectionsBase, givenBase⟩ := Config.ofTable?_eq_some_iff.1 hcb
  rw [Option.isSome_iff_exists]
  simp only [Config.ofTable?_eq_some_iff, exists_and_left]
  refine ⟨fun heading hh => ?_, given.exists_of_forall ?_ givenBase⟩
  · obtain ⟨_, _, _, _, hf⟩ | hf | ⟨_, hf⟩ := fieldsOf?_overlay h.keyed base heading
    · simp [hf]
    · exact hf ▸ sections heading hh
    · exact hf ▸ sectionsBase heading hh
  · intro α heading name read default v₁ v₂ hh refuses h₁ h₂
    obtain ⟨upper, lower, hu, hl, hf⟩ | hf | ⟨_, hf⟩ := fieldsOf?_overlay h.keyed base heading
    · have above : fieldsOf t heading = Table.get? upper := by
        simp [fieldsOf, fieldsOf?, hu, section?]
      have below : fieldsOf base heading = Table.get? lower := by
        simp [fieldsOf, fieldsOf?, hl, section?]
      rw [GivenBy, above] at h₁
      rw [GivenBy, below] at h₂
      have found := over?_eq_or (ne_table_of_field refuses h₁) (Table.get? lower name)
      simp only [GivenBy, field, fieldsOf, hf, Option.getD_some, found]
      cases hv : Table.get? upper name with
      | none => exact ⟨v₂, h₂⟩
      | some v =>
        rw [field, hv] at h₁
        exact ⟨v₁, h₁⟩
    · exact ⟨v₁, by rw [GivenBy, fieldsOf, hf]; exact h₁⟩
    · exact ⟨v₂, by rw [GivenBy, fieldsOf, hf]; exact h₂⟩

/-- A setting of two tables laid over each other is the upper one's if it sets the key, and else
the lower one's. -/
theorem setting?_overlay {t base : Table} (ht : (Value.table t).Keyed) (h : Tabular t)
    (hb : Tabular base) {heading : String} (hh : heading ∈ headings) (name : String) :
    setting? (overlay t base) heading name =
      over? (setting? t heading name) (setting? base heading name) := by
  obtain ⟨once, inside⟩ := Value.keyed_table.1 ht
  simp only [setting?, get?_overlay once]
  cases hv : t.get? heading with
  | none => rfl
  | some v =>
    obtain ⟨upper, rfl⟩ := Value.isTable_iff.1 (h heading hh v hv)
    have hupper := Value.keyed_table.1 (inside _ (Table.mem_of_get? hv))
    cases hl : base.get? heading with
    | none =>
      simp only [over?, Value.over_none]
      cases Table.get? upper name <;> simp
    | some w =>
      obtain ⟨lower, rfl⟩ := Value.isTable_iff.1 (hb heading hh w hl)
      simp only [over?, Value.over_table]
      exact get?_overlay hupper.1 lower name

theorem tabular_overlay {t base : Table} (once : (t.map Prod.fst).Nodup) (h : Tabular t)
    (hb : Tabular base) : Tabular (overlay t base) := by
  intro heading hh v hv
  rw [get?_overlay once] at hv
  cases hu : t.get? heading with
  | none =>
    rw [hu] at hv
    exact hb heading hh v hv
  | some u =>
    obtain ⟨upper, rfl⟩ := Value.isTable_iff.1 (h heading hh u hu)
    rw [hu, over?, Option.mem_some_iff] at hv
    subst hv
    unfold Value.over
    split <;> rfl

end Schema

namespace Config

/-- The table that a file contributes, if it loads. -/
def loaded (d : Disk) (file : Path) : Option Table := (loadTable d file).toOption

/-- What is logged about a file: one that exists but does not load is skipped. -/
def complaint? (d : Disk) (file : Path) : Option LogLine :=
  match loadTable d file with
  | .ok _ => none
  | .error fault => if d.pathExists file then some (skipped file fault) else none

theorem of_loaded {d : Disk} {file : Path} {t : Table} (h : loaded d file = some t) :
    Sound t := by
  simp only [loaded, loadTable] at h
  cases hr : readWith Table.read? d file with
  | error fault => simp [hr, bind, Except.bind, Except.toOption] at h
  | ok table =>
    cases hc : ofTable? .stored table with
    | none => simp [hr, hc, bind, Except.bind, Except.toOption] at h
    | some c =>
      simp only [hr, hc, bind, Except.bind, Except.toOption, Option.some.injEq] at h
      subst h
      refine ⟨?_, by simp [hc]⟩
      unfold readWith at hr
      split at hr
      · cases hr
      · split at hr
        · cases hr
        · next hp =>
          cases hr
          exact Table.keyed_read? hp

theorem loaded_of_not_pathExists {d : Disk} {file : Path} (h : d.pathExists file = false) :
    loaded d file = none := by
  unfold Disk.pathExists at h
  cases he : d.entryAt file true with
  | ok entry => simp [he, Except.isOk, Except.toBool] at h
  | error cause =>
    simp [loaded, loadTable, readWith, Disk.readText, Disk.readContent, he, bind, Except.bind,
      Except.toOption]

theorem layer_eq (d : Disk) (files : List Path) (base : Table) :
    layer d files base =
      (files.foldl (fun base file => overlay ((loaded d file).getD []) base) base,
        files.filterMap (complaint? d)) := by
  induction files generalizing base with
  | nil => rfl
  | cons file rest ih =>
    unfold layer
    cases he : d.pathExists file with
    | false =>
      have hnone : complaint? d file = none := by
        unfold complaint?
        split <;> simp [he]
      simp [ih, loaded_of_not_pathExists he, hnone, overlay]
    | true =>
      cases hl : loadTable d file with
      | ok table => simp [ih, loaded, complaint?, hl, Except.toOption]
      | error fault => simp [ih, loaded, complaint?, hl, he, Except.toOption, overlay]

theorem of_getD {P : Table → Prop} {o : Option Table} (h : ∀ t ∈ o, P t) (empty : P []) :
    P (o.getD []) := by
  cases o with
  | none => exact empty
  | some t => exact h t rfl

theorem setting?_getD (o : Option Table) (heading name : String) :
    setting? (o.getD []) heading name = o.bind (setting? · heading name) := by
  cases o <;> rfl

theorem foldl_loaded (d : Disk) (user : Option Path) (project : Path) :
    (user.toList ++ [project]).foldl
        (fun base file => overlay ((loaded d file).getD []) base) [] =
      overlay ((loaded d project).getD []) (overlay ((user.bind (loaded d)).getD []) []) := by
  cases user <;> rfl

theorem message_ne_of_complaint? {d : Disk} {file : Path} {line : LogLine}
    (h : complaint? d file = some line) : line.message ≠ "Failed to merge config files" := by
  unfold complaint? at h
  split at h
  · cases h
  · split at h <;> cases h
    intro he
    have hten := congrArg (fun s => s.toList[10]?) he
    simp only [skipped, LogLine.warn, String.toList_append, List.append_assoc] at hten
    rw [List.getElem?_append_left (by decide)] at hten
    exact absurd hten (by decide)

/-- The value of a setting is what the project's file gives its key, else what the user's file
gives it, else the default. -/
def Prevails (project user : Option Table) {α : Type} (heading name : String)
    (read : Value → Option α) (default value : α) : Prop :=
  match project.bind (setting? · heading name), user.bind (setting? · heading name) with
  | some v, _ => read v = some value
  | none, some v => read v = some value
  | none, none => value = default

theorem each_prevails {project user : Option Table} {c : Config}
    (hp : ∀ t ∈ project, Sound t) (hu : ∀ t ∈ user, Sound t)
    (tp : ∀ t ∈ project, Tabular t) (tu : ∀ t ∈ user, Tabular t)
    (hc : ofTable? .stored (overlay (project.getD []) (overlay (user.getD []) [])) = some c) :
    EachSetting (Prevails project user) c := by
  have keyedP := (of_getD hp sound_nil).keyed
  have keyedU := (of_getD hu sound_nil).keyed
  have tabularP := of_getD tp tabular_nil
  have tabularU := of_getD tu tabular_nil
  have tabularBase := tabular_overlay (Value.keyed_table.1 keyedU).1 tabularU tabular_nil
  refine (ofTable?_eq_some_iff.1 hc).2.mono ?_
  intro α heading name read default value hh refuses h
  have found : fieldsOf (overlay (project.getD []) (overlay (user.getD []) [])) heading name =
      over? (setting? (project.getD []) heading name) (setting? (user.getD []) heading name) := by
    have bottom : setting? [] heading name = none := rfl
    rw [fieldsOf_of_tabular (tabular_overlay (Value.keyed_table.1 keyedP).1 tabularP tabularBase)
        hh, setting?_overlay keyedP tabularP tabularBase hh,
      setting?_overlay keyedU tabularU tabular_nil hh, bottom, over?_none]
  rw [GivenBy, field, found] at h
  rw [Prevails, ← setting?_getD, ← setting?_getD]
  cases hv : setting? (project.getD []) heading name with
  | some v =>
    simp only [hv, over?] at h ⊢
    rwa [Value.over_eq_of_read refuses h] at h
  | none =>
    cases hw : setting? (user.getD []) heading name with
    | some w => simpa only [hv, hw, over?] using h
    | none =>
      simp only [hv, hw, over?, Option.some.injEq] at h ⊢
      exact h.symm

/-- Two configuration files never fail to merge: what is logged are the files that were skipped,
in their order. If the files that load give their sections as tables, every setting is the
project's if its file loads and sets the key, else the user's under the same condition, else the
default. -/
theorem layered_settings (d : Disk) (user : Option Path) (project : Path) :
    (∃ c, ofTable? .stored (layer d (user.toList ++ [project]) []).1 = some c ∧
      loadLayered d user project =
        (c, (user.toList ++ [project]).filterMap (complaint? d))) ∧
    (∀ line ∈ (loadLayered d user project).2, line.message ≠ "Failed to merge config files") ∧
    ((∀ file ∈ user.toList ++ [project], ∀ t ∈ loaded d file, Tabular t) →
      EachSetting (Prevails (loaded d project) (user.bind (loaded d)))
        (loadLayered d user project).1) := by
  have hproject : ∀ t ∈ loaded d project, Sound t := fun t ht => of_loaded ht
  have huser : ∀ t ∈ user.bind (loaded d), Sound t := fun t ht => by
    obtain ⟨file, -, ht⟩ := Option.bind_eq_some_iff.1 ht
    exact of_loaded ht
  have hlayer := layer_eq d (user.toList ++ [project]) []
  rw [foldl_loaded] at hlayer
  have fits := (of_getD hproject sound_nil).fits_overlay
    ((of_getD huser sound_nil).fits_overlay sound_nil.fits)
  obtain ⟨c, hc⟩ := Option.isSome_iff_exists.1 fits
  have hall : loadLayered d user project =
      (c, (user.toList ++ [project]).filterMap (complaint? d)) := by
    simp only [loadLayered, hlayer, hc]
  refine ⟨⟨c, by rw [hlayer, hc], hall⟩, fun line hline => ?_, fun tabular => ?_⟩
  · rw [hall, List.mem_filterMap] at hline
    obtain ⟨file, -, hf⟩ := hline
    exact message_ne_of_complaint? hf
  · rw [hall]
    refine each_prevails hproject huser (fun t ht => ?_) (fun t ht => ?_) hc
    · exact tabular project (by simp) t ht
    · obtain ⟨file, hfile, ht⟩ := Option.bind_eq_some_iff.1 ht
      exact tabular file (by simp [hfile]) t ht

/-- A user's file that sets two settings and two arguments, and a project's file that sets one
setting back to its default and gives another argument. -/
def layeredDisk : Disk where
  tree.entries := [(["user"], .file (.text
      "[export]\nmacro_name = \"U\"\nenable_define = \"V\"\n[bindings]\nargs = [\"a\", \"b\"]".toList)
      false),
    (["project"], .file (.text
      "bindings.args = [\"c\"]\n[export]\nmacro_name = \"DllExport\"\n".toList) false)]

def usersFile : Option Path := some ⟨"user"⟩

def projectsFile : Path := ⟨"project"⟩

theorem layered_settings_toy :
    (∀ file ∈ usersFile.toList ++ [projectsFile], ∀ t ∈ loaded layeredDisk file, Tabular t) ∧
    EachSetting (Prevails (loaded layeredDisk projectsFile) (usersFile.bind (loaded layeredDisk)))
      (loadLayered layeredDisk usersFile projectsFile).1 ∧
    (loadLayered layeredDisk usersFile projectsFile).1 =
      { exportMacro := { enableDefine := "V" }, bindings := { args := ["c"] } } := by
  have tabular : ∀ file ∈ usersFile.toList ++ [projectsFile],
      ∀ t ∈ loaded layeredDisk file, Tabular t := by decide +kernel
  exact ⟨tabular, (layered_settings layeredDisk usersFile projectsFile).2.2 tabular,
    by decide +kernel⟩

end Config

end GrammarHeaders
