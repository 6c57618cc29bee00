import GrammarHeaders.Config.Schema
import GrammarHeaders.Disk
import GrammarHeaders.Log
import GrammarHeaders.Toml.Reading

namespace GrammarHeaders

/-- Why a configuration file cannot be used. -/
inductive ConfigFault where
  | unreadable (file : Path) (cause : Cause)
  | unparsable (file : Path)
  | unfit (file : Path)
  deriving DecidableEq, Repr

namespace ConfigFault

def message : ConfigFault → String
  | unreadable file _ => s!"failed to read config file: {file}"
  | unparsable file => s!"failed to parse config file: {file}"
  | unfit file => s!"invalid config file: {file}"

def fullMessage (f : ConfigFault) : String :=
  match f with
  | unreadable _ cause => s!"{f.message}: {cause.message}"
  | _ => f.message

end ConfigFault

namespace Config

def readWith (parse? : Text → Option Toml.Table) (d : Disk) (file : Path) :
    Except ConfigFault Toml.Table :=
  match d.readText file with
  | .error cause => .error (.unreadable file cause)
  | .ok t => match parse? t with
    | none => .error (.unparsable file)
    | some table => .ok table

def load (d : Disk) (file : Path) : Except ConfigFault Config := do
  match ofTable? .direct (← readWith Toml.Document.parse? d file) with
  | some config => .ok config
  | none => .error (.unparsable file)

def loadOrDefault (d : Disk) (file : Path) : Config :=
  if d.pathExists file then (load d file).toOption.getD {} else {}

/-- The table of one file. It holds only the keys that the file sets, so that laying it over
another can set a field back to its default. -/
def loadTable (d : Disk) (file : Path) : Except ConfigFault Toml.Table := do
  let table ← readWith Toml.Table.read? d file
  match ofTable? .stored table with
  | some _ => .ok table
  | none => .error (.unfit file)

def skipped (file : Path) (fault : ConfigFault) : LogLine :=
  .warn s!"Failed to load config from {file}: {fault.fullMessage}"

def layer (d : Disk) : List Path → Toml.Table → Toml.Table × List LogLine
  | [], base => (base, [])
  | file :: rest, base =>
    if !d.pathExists file then layer d rest base
    else match loadTable d file with
      | .ok table => layer d rest (Toml.overlay table base)
      | .error fault =>
        let (table, lines) := layer d rest base
        (table, skipped file fault :: lines)

/-- The settings of the user's file and the project's file together. -/
def loadLayered (d : Disk) (user : Option Path) (project : Path) : Config × List LogLine :=
  let (table, lines) := layer d (user.toList ++ [project]) []
  match ofTable? .stored table with
  | some config => (config, lines)
  | none => ({}, lines ++ [.warn "Failed to merge config files"])

def fileIn (dir : Path) : Path := dir / ".tsheader" / "config.toml"

end Config

end GrammarHeaders
