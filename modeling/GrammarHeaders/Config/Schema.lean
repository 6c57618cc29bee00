import GrammarHeaders.Config.Basic
import GrammarHeaders.Toml.Document

namespace GrammarHeaders

/-- How the values of a table are taken. -/
inductive Reading where
  /-- Straight from a document: a date stands for a table without known keys. -/
  | direct
  /-- From a table that was read before: a date stands for its text, and an array for a section
  may not be too long. -/
  | stored
  deriving DecidableEq, Repr

namespace Schema

/-- The fields of a section by name; a field that is absent has no value. -/
abbrev Fields := String → Option Toml.Value

def section? (reading : Reading) (names : List String) : Option Toml.Value → Option Fields
  | none => some fun _ => none
  | some (.table entries) => some (Toml.Table.get? entries)
  | some (.array items) =>
    if reading = .stored ∧ names.length < items.length then none
    else some fun name => (names.zip items).lookup name
  | some (.moment _) => if reading = .direct then some fun _ => none else none
  | some _ => none

def string? (reading : Reading) : Toml.Value → Option String
  | .string s => some s
  | .moment m => if reading = .stored then some m.render else none
  | _ => none

def strings? (reading : Reading) : Toml.Value → Option (List String)
  | .array items => items.mapM (string? reading)
  | _ => none

def count? : Toml.Value → Option Nat
  | .integer n => if 0 ≤ n then some n.toNat else none
  | _ => none

def boolean? : Toml.Value → Option Bool
  | .boolean b => some b
  | _ => none

def field {α : Type} (fields : Fields) (name : String) (read : Toml.Value → Option α) (default : α) :
    Option α :=
  match fields name with
  | none => some default
  | some v => read v

def exportMacro? (reading : Reading) (v : Option Toml.Value) : Option ExportMacro := do
  let fields ← section? reading
    ["macro_name", "enable_define", "disable_define", "windows_attribute", "unix_attribute"] v
  let d : ExportMacro := {}
  let text (name default : String) := field fields name (string? reading) default
  return ⟨← text "macro_name" d.name, ← text "enable_define" d.enableDefine,
    ← text "disable_define" d.disableDefine, ← text "windows_attribute" d.windowsAttribute,
    ← text "unix_attribute" d.unixAttribute⟩

def layout? (reading : Reading) (v : Option Toml.Value) : Option LayoutSettings := do
  let fields ← section? reading ["root_function_prefix", "root_include_dir", "parser_file"] v
  let d : LayoutSettings := {}
  let text (name default : String) := field fields name (string? reading) default
  return ⟨← text "root_function_prefix" d.rootFunctionPrefix,
    ⟨← text "root_include_dir" d.rootIncludeDir.text⟩, ← text "parser_file" d.parserFile⟩

def bindings? (reading : Reading) (v : Option Toml.Value) : Option BindingSettings := do
  let fields ← section? reading ["generator", "args"] v
  return ⟨← field fields "generator" (fun v => (string? reading v).map fun s => some ⟨s⟩) none,
    ← field fields "args" (strings? reading) []⟩

def generate? (reading : Reading) (v : Option Toml.Value) : Option RunSettings := do
  let fields ← section? reading ["jobs", "allow_name_mismatch"] v
  return ⟨← field fields "jobs" (fun v => (count? v).map some) none,
    ← field fields "allow_name_mismatch" boolean? false⟩

end Schema

def Config.ofTable? (reading : Reading) (t : Toml.Table) : Option Config := do
  return {
    exportMacro := ← Schema.exportMacro? reading (t.get? "export")
    layout := ← Schema.layout? reading (t.get? "layout")
    bindings := ← Schema.bindings? reading (t.get? "bindings")
    generate := ← Schema.generate? reading (t.get? "generate") }

end GrammarHeaders
