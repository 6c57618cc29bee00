import GrammarHeaders.Disk
import GrammarHeaders.Shell.Pattern

namespace GrammarHeaders.Shell.Glob

/-- A part of a path pattern, with the separators behind it. -/
structure Component where
  glyphs : List Glyph
  slashes : Bytes

def components : Nat → List Glyph → List Component
  | 0, _ => []
  | _ + 1, [] => []
  | n + 1, gs =>
    let name := gs.takeWhile fun g => g.char != '/'
    let rest := gs.drop name.length
    let slashes := rest.takeWhile fun g => g.char == '/'
    ⟨name, Glyph.bytes slashes⟩ :: components n (rest.drop slashes.length)

def namesIn (d : Disk) (dir : Bytes) : List Bytes :=
  match d.entryAt ⟨if dir.isEmpty then "." else Bytes.toString dir⟩ true with
  | .ok (l, .directory) =>
    [['.'], ['.', '.']] ++ (d.tree.below l).filterMap fun (names, _) => match names with
      | [name] => some (Bytes.ofString name)
      | _ => none
  | _ => []

def found (c : Component) (names : List Bytes) : List Bytes :=
  let dotted := match c.glyphs with
    | g :: _ => g.char == '.'
    | [] => false
  let pattern := Pattern.ofGlyphs c.glyphs
  names.filter fun name => (dotted || name.head? != some '.') && Pattern.fits pattern name

def walk (d : Disk) (front : Bytes) : List Component → List Bytes
  | [] => [front]
  | c :: rest =>
    let here :=
      if c.glyphs.any Pattern.isMeta then (found c (namesIn d front)).map fun name => front ++ name
      else [front ++ Glyph.bytes c.glyphs]
    (here.filter fun path =>
      if rest.isEmpty ∧ c.slashes.isEmpty then (d.entryAt ⟨Bytes.toString path⟩ false).isOk
      else d.isDir ⟨Bytes.toString path⟩ || path.isEmpty).flatMap fun path =>
        walk d (path ++ c.slashes) rest

def expand (d : Disk) (pattern : List Glyph) : List Bytes :=
  (walk d [] (components (pattern.length + 1) pattern)).mergeSort Bytes.le

end GrammarHeaders.Shell.Glob
