import GrammarHeaders.Shell.Pattern
import GrammarHeaders.Shell.Utility.Directory

namespace GrammarHeaders.Shell.Utility.Listing

open Shell.Options

/-- How names are shown. -/
structure Style where
  hidden : Bool
  points : Bool
  marks : Option Bool
  reversed : Bool
  separator : Bytes
  ignored : List Bytes
  quoted : Bool
  bySize : Bool
  byExtension : Bool

def mark (s : Style) (e : Entry) : Bytes :=
  match s.marks, e with
  | none, _ => []
  | some _, .directory => ['/']
  | some false, _ => []
  | some true, .link _ => ['@']
  | some true, .file _ true => ['*']
  | some true, _ => []

def spelled (s : Style) (name : Bytes) : Bytes :=
  if s.quoted then '"' :: name.flatMap (fun c => if c = '"' ∨ c = '\\' then ['\\', c] else [c]) ++ ['"']
  else name

def size : Entry → Nat
  | .file content _ => content.bytes.length
  | .link target => target.utf8ByteSize
  | _ => 4096

def extension (name : Bytes) : Bytes :=
  let tail := name.reverse.takeWhile (· != '.')
  if tail.length = name.length then [] else tail.reverse

def sorted (s : Style) (entries : List (Bytes × Entry)) : List (Bytes × Entry) :=
  let entries := entries.mergeSort fun a b => Bytes.le a.1 b.1
  let entries := if s.bySize then entries.mergeSort fun a b => size b.2 ≤ size a.2 else entries
  let entries := if s.byExtension then
    entries.mergeSort fun a b => Bytes.le (extension a.1) (extension b.1) else entries
  if s.reversed then entries.reverse else entries

def gap : Nat → Nat → Nat → Bytes
  | 0, _, _ => []
  | n + 1, start, stop =>
    if stop ≤ start then []
    else if (start + 1) / 8 < stop / 8 then '\t' :: gap n ((start / 8 + 1) * 8) stop
    else ' ' :: gap n (start + 1) stop

def inColumns (names : List Bytes) : Bytes :=
  (names.foldl (fun (done, place, stop) name =>
    (done ++ gap (stop - place + 1) place stop ++ name, stop + name.length, stop + name.length + 2))
    (([] : Bytes), 0, 0)).1

def printEntries (s : Style) (entries : List (Bytes × Entry)) : Task Unit := do
  let shown := (sorted s entries).map fun (name, e) => spelled s name ++ mark s e
  if !shown.isEmpty then
    Task.write ((if s.separator.isEmpty then inColumns shown else Bytes.join s.separator shown) ++ ['\n'])

def entriesIn (s : Style) (d : Disk) (l : Location) : List (Bytes × Entry) :=
  let all := (d.tree.below l).filterMap fun (names, e) => match names with
    | [name] => some (Bytes.ofString name, e)
    | _ => none
  let points : List (Bytes × Entry) := if s.points then
    [(['.'], .directory), (['.', '.'], .directory)] else []
  points ++ all.filter fun (name, _) => (s.hidden || name.head? != some '.') &&
    !s.ignored.any fun p => Pattern.fits (Pattern.ofGlyphs (Glyph.ofBytes false p)) name

/-- A directory whose content is shown. -/
structure Shown where
  path : Bytes
  location : Location

def dirsIn (s : Style) (d : Disk) (dir : Shown) : List Shown :=
  ((sorted s (entriesIn s d dir.location)).filter fun (name, e) =>
    e == .directory && name != ['.'] && name != ['.', '.']).map fun (name, _) =>
      ⟨under dir.path name, dir.location ++ [name.toString]⟩

def printDirs (s : Style) (recursive headed : Bool) : Nat → Bool → List Shown → Task Unit
  | 0, _, _ => return
  | _ + 1, _, [] => return
  | n + 1, first, dir :: rest => do
    let d ← Task.disk
    if headed || recursive then
      Task.write ((if first then [] else ['\n']) ++ spelled s dir.path ++ ":\n".toList)
    printEntries s (entriesIn s d dir.location)
    printDirs s recursive headed n false ((if recursive then dirsIn s d dir else []) ++ rest)

end Listing

open Shell.Options in
def ls (args : List Bytes) : Task Nat := do
  let g ← parse { letters := "abcdfghiklmnopqrstuvw:xABCDFGHI:LNQRST:UXZ1", status := 2, long :=
    [⟨"all", 'a', .none⟩, ⟨"almost-all", 'A', .none⟩, ⟨"directory", 'd', .none⟩,
     ⟨"classify", 'F', .optional⟩, ⟨"reverse", 'r', .none⟩, ⟨"recursive", 'R', .none⟩,
     ⟨"ignore", 'I', .required⟩, ⟨"color", '%', .optional⟩, ⟨"indicator-style", '&', .required⟩,
     ⟨"quote-name", 'Q', .none⟩, ⟨"sort", '(', .required⟩, ⟨"format", ')', .required⟩,
     ⟨"dereference", 'L', .none⟩, ⟨"group-directories-first", '+', .none⟩,
     ⟨"literal", 'N', .none⟩, ⟨"size", 's', .none⟩, ⟨"human-readable", 'h', .none⟩,
     ⟨"ignore-backups", 'B', .none⟩] } args
  let d ← Task.disk
  let s : Listing.Style := {
    hidden := g.has 'a' || g.has 'A' || g.has 'f', points := g.last? ['a', 'A', 'f'] != some 'A' && (g.has 'a' || g.has 'f')
    marks := match g.last? ['F', 'p'] with
      | some 'F' => some true
      | some _ => some false
      | none => none
    reversed := g.has 'r', separator := match g.last? ['1', 'm', 'x', 'C'] with
      | some 'm' => ", ".toList
      | some 'x' | some 'C' => []
      | _ => ['\n']
    ignored := (g.options.filter fun o => o.1 == 'I').map Prod.snd ++ (if g.has 'B' then ["*~".toList] else [])
    quoted := g.has 'Q', bySize := g.has 'S', byExtension := g.has 'X' }
  let operands := if g.operands.isEmpty then [['.']] else g.operands
  let mut status := 0
  let mut files : List (Bytes × Entry) := []
  let mut dirs : List (Bytes × Entry) := []
  let mut places : List (Bytes × Location) := []
  for path in operands do
    match d.entryAt (Host.pathOf path) false with
    | .error cause =>
      Task.complain (Task.because ("cannot access ".toList ++ Quoting.always path) cause)
      status := 2
    | .ok (l, e) =>
      let target := d.entryAt (Host.pathOf path) true
      let (l, e, bad) : Location × Entry × Option Cause := match e, target with
        | .link _, .ok (k, .directory) =>
          if g.has 'd' || g.has 'F' then (l, e, none) else (k, .directory, none)
        | .link _, .ok (k, other) => if g.has 'L' then (k, other, none) else (l, e, none)
        | .link _, .error cause => if g.has 'L' then (l, e, some cause) else (l, e, none)
        | _, _ => (l, e, none)
      match bad with
      | some cause =>
        Task.complain (Task.because ("cannot access ".toList ++ Quoting.always path) cause)
        status := 2
      | none =>
        if e = .directory ∧ !g.has 'd' then
          dirs := dirs ++ [(path, e)]
          places := (path, l) :: places
        else files := files ++ [(path, e)]
  Listing.printEntries s files
  let shown : List Listing.Shown := (Listing.sorted s dirs).map fun (path, _) =>
    ⟨path, (places.lookup path).getD []⟩
  if !files.isEmpty && !shown.isEmpty then Task.write ['\n']
  Listing.printDirs s (g.has 'R') (1 < operands.length) 1000 true shown
  return status

end GrammarHeaders.Shell.Utility
