import GrammarHeaders.Text.Utf8

namespace GrammarHeaders

/-- The content of a file: a text, bytes that are not the UTF-8 form of any text, or a program that
the machine brings along. -/
inductive Content where
  | text (t : Text)
  | binary (bytes : List UInt8)
  | program (name : String)
  deriving DecidableEq, Repr

namespace Content

def ofBytes (bytes : List UInt8) : Content :=
  match Utf8.decode? bytes with
  | some t => text t
  | none => binary bytes

def programHead : List UInt8 := [127, 69, 76, 70, 2, 1, 1, 0, 0, 0, 0, 0, 0, 0, 0, 0, 3, 0, 62, 0]

def bytes : Content → List UInt8
  | text t => Utf8.encode t
  | binary bytes => bytes
  | program name => programHead ++ Utf8.encode name.toList

def size : Content → Nat
  | text t => t.foldl (fun n c => n + c.utf8Size) 0
  | c => c.bytes.length

def append (c : Content) (more : List UInt8) : Content :=
  match c, Utf8.decode? more with
  | text t, some u => text (t ++ u)
  | c, _ => ofBytes (c.bytes ++ more)

end Content

/-- Files that hold nothing. -/
inductive Device where
  /-- Takes everything. -/
  | null
  /-- Takes everything, and gives zeros without end. -/
  | zero
  /-- Takes nothing, and gives zeros without end. -/
  | full
  /-- Stands for an open stream of the program that uses it. -/
  | stream (number : Nat)
  deriving DecidableEq, Repr

inductive Entry where
  | file (content : Content) (executable : Bool)
  | directory
  | link (target : String)
  | device (d : Device)
  deriving DecidableEq, Repr

/-- The names from the root down; the root itself is empty. -/
abbrev Location := List String

namespace Device

def place : Device → Location
  | null => ["dev", "null"]
  | zero => ["dev", "zero"]
  | full => ["dev", "full"]
  | stream number => ["dev", "fd", toString number]

end Device

def Entry.FitsAt (l : Location) : Entry → Prop
  | .device d => l = d.place
  | _ => True

instance (l : Location) : (e : Entry) → Decidable (e.FitsAt l)
  | .device d => inferInstanceAs (Decidable (l = d.place))
  | .file .. | .directory | .link _ => .isTrue trivial

namespace Entry

variable {l : Location}

@[simp] theorem fitsAt_file {content : Content} {executable : Bool} : (file content executable).FitsAt l :=
  trivial

@[simp] theorem fitsAt_directory : directory.FitsAt l := trivial

@[simp] theorem fitsAt_link {target : String} : (link target).FitsAt l := trivial

end Entry

@[ext] structure Tree where
  entries : List (Location × Entry) := []
  fits : ∀ entry ∈ entries, entry.2.FitsAt entry.1 := by first | decide | simp
  deriving DecidableEq, Repr

namespace Tree

variable {l : Location} {e : Entry} {entries : List (Location × Entry)}

def find? (l : Location) : List (Location × Entry) → Option Entry
  | [] => none
  | (k, e) :: rest => if k = l then some e else find? l rest

def get? (t : Tree) (l : Location) : Option Entry :=
  if l = [] then some .directory else find? l t.entries

def replace (l : Location) (e : Entry) : List (Location × Entry) → List (Location × Entry)
  | [] => [(l, e)]
  | (k, old) :: rest => if k = l then (l, e) :: rest else (k, old) :: replace l e rest

theorem fits_replace (h : e.FitsAt l) (hall : ∀ entry ∈ entries, entry.2.FitsAt entry.1) :
    ∀ entry ∈ replace l e entries, entry.2.FitsAt entry.1 := by
  induction entries with
  | nil => simpa [replace] using h
  | cons entry rest ih =>
    obtain ⟨k, old⟩ := entry
    obtain ⟨hold, hrest⟩ := List.forall_mem_cons.1 hall
    rw [replace]
    split
    · exact List.forall_mem_cons.2 ⟨h, hrest⟩
    · exact List.forall_mem_cons.2 ⟨hold, ih hrest⟩

def set (t : Tree) (l : Location) (e : Entry) (h : e.FitsAt l := by simp) : Tree :=
  ⟨replace l e t.entries, fits_replace h t.fits⟩

@[simp] theorem entries_set (t : Tree) (h : e.FitsAt l) :
    (t.set l e h).entries = replace l e t.entries := rfl

def ofEntries (entries : List (Location × Entry)) : Tree :=
  ⟨entries.filter fun entry => entry.2.FitsAt entry.1,
    fun _ h => of_decide_eq_true (List.mem_filter.1 h).2⟩

def put (t : Tree) (l : Location) (e : Entry) : Tree := if h : e.FitsAt l then t.set l e h else t

def erase (t : Tree) (l : Location) : Tree :=
  ⟨t.entries.filter fun entry => !l.isPrefixOf entry.1,
    fun entry h => t.fits entry (List.mem_filter.1 h).1⟩

def below (t : Tree) (l : Location) : List (List String × Entry) :=
  t.entries.filterMap fun (k, e) =>
    if l.isPrefixOf k ∧ k ≠ l then some (k.drop l.length, e) else none

theorem find?_replace (l k : Location) (e : Entry) (entries : List (Location × Entry)) :
    find? k (replace l e entries) = if l = k then some e else find? k entries := by
  induction entries with
  | nil => rfl
  | cons entry rest ih =>
    obtain ⟨m, old⟩ := entry
    by_cases hm : m = l
    · subst hm
      by_cases h : m = k <;> simp [replace, find?, h]
    · by_cases h : m = k
      · subst h
        have hne : ¬l = m := fun e => hm e.symm
        simp [replace, find?, hm, hne]
      · simp [replace, find?, hm, h, ih]

theorem get?_set (t : Tree) (l k : Location) (e : Entry) (h : e.FitsAt l) (hl : l ≠ []) :
    (t.set l e h).get? k = if l = k then some e else t.get? k := by
  by_cases hk : k = []
  · subst hk
    simp [get?, hl]
  · simp [get?, set, hk, find?_replace]

end Tree

end GrammarHeaders
