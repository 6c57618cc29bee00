import GrammarHeaders.Text.Basic

namespace GrammarHeaders

structure Path where
  text : String
  deriving DecidableEq, Repr, Inhabited

instance : ToString Path := ⟨Path.text⟩

namespace Path

/-- A part of a path; the order of the constructors is the order of the parts. -/
inductive Component where
  | root
  | here
  | up
  | name (n : String)
  deriving DecidableEq, Repr

def Component.rank : Component → Nat
  | root => 0
  | here => 1
  | up => 2
  | name _ => 3

def Component.compare (a b : Component) : Ordering :=
  match a, b with
  | .name x, .name y => Ord.compare x y
  | _, _ => Ord.compare a.rank b.rank

def pieces (p : Path) : List String := (Text.splitOn '/' p.text.toList).map String.ofList

def ofPieces (ps : List String) : Path := ⟨"/".intercalate ps⟩

def isIdle (piece : String) : Bool := piece == "" || piece == "."

def innerComponent (piece : String) : Component := if piece == ".." then .up else .name piece

def innerComponents (pieces : List String) : List Component :=
  (pieces.filter fun piece => !isIdle piece).map innerComponent

def components (p : Path) : List Component :=
  match p.pieces with
  | [] => []
  | [""] => []
  | "" :: rest => .root :: innerComponents rest
  | "." :: rest => .here :: innerComponents rest
  | first :: rest => innerComponent first :: innerComponents rest

def isAbsolute (p : Path) : Bool := p.text.toList.head? == some '/'

def same (p q : Path) : Bool := p.components == q.components

def compareComponents : List Component → List Component → Ordering
  | [], [] => .eq
  | [], _ :: _ => .lt
  | _ :: _, [] => .gt
  | a :: as, b :: bs => (a.compare b).then (compareComponents as bs)

def le (p q : Path) : Bool := (compareComponents p.components q.components).isLE

def join (p q : Path) : Path :=
  if q.isAbsolute then q
  else if p.text == "" || p.text.toList.getLast? == some '/' then ⟨p.text ++ q.text⟩
  else ⟨p.text ++ "/" ++ q.text⟩

instance : HDiv Path String Path := ⟨fun p name => p.join ⟨name⟩⟩

def Component.text : Component → String
  | root => "/"
  | here => "."
  | up => ".."
  | name n => n

def extend (p : Path) (components : List Component) : Path :=
  components.foldl (fun p c => p / c.text) p

def fileName? (p : Path) : Option String :=
  match p.components.getLast? with
  | some (.name n) => some n
  | _ => none

def dropIdleEnd (pieces : List String) : List String :=
  (pieces.reverse.dropWhile isIdle).reverse

def ofKept (first : String) (kept : List String) : Path :=
  if first == "" && kept.isEmpty then ⟨"/"⟩ else ofPieces (first :: kept)

def parent? (p : Path) : Option Path :=
  match p.pieces with
  | [] => none
  | first :: rest =>
    let rest := dropIdleEnd rest
    if !rest.isEmpty then some (ofKept first (dropIdleEnd rest.dropLast))
    else if first == "" then none
    else some ⟨""⟩

def ancestorsUpTo : Nat → Path → List Path
  | 0, _ => []
  | n + 1, p => p :: (match p.parent? with
    | some q => ancestorsUpTo n q
    | none => [])

def ancestors (p : Path) : List Path := ancestorsUpTo (p.pieces.length + 2) p

def extensionOf? (name : String) : Option String :=
  let back := name.toList.reverse
  let ext := back.takeWhile (· != '.')
  match back.drop ext.length with
  | '.' :: _ :: _ => some (String.ofList ext.reverse)
  | _ => none

def extension? (p : Path) : Option String := p.fileName?.bind extensionOf?

def dropComponents : Nat → List String → List String
  | _, [] => []
  | 0, pieces => pieces.dropWhile isIdle
  | n + 1, piece :: rest => if isIdle piece then dropComponents (n + 1) rest else dropComponents n rest

def below? (p base : Path) : Option Path :=
  if base.components.isPrefixOf p.components then
    match base.components.length, p.pieces with
    | 0, first :: rest => some (if p.text == "" then p else ofKept first (dropIdleEnd rest))
    | n + 1, _ :: rest => some (ofPieces (dropIdleEnd (dropComponents n rest)))
    | _, [] => some p
  else none

end Path

end GrammarHeaders
