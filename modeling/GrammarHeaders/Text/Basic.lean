namespace GrammarHeaders

abbrev Text := List Char

/-- A half-open range of byte offsets. -/
structure Span where
  start : Nat
  stop : Nat
  deriving DecidableEq, Repr

namespace Span

def size (s : Span) : Nat := s.stop - s.start

def isEmpty (s : Span) : Bool := s.start == s.stop

def shift (s : Span) (offset : Nat) : Span := ⟨s.start + offset, s.stop + offset⟩

end Span

namespace Text

def size (t : Text) : Nat := t.foldl (fun n c => n + c.utf8Size) 0

theorem foldl_utf8Size (t : Text) (n : Nat) :
    t.foldl (fun n c => n + c.utf8Size) n = n + size t := by
  induction t generalizing n with
  | nil => rfl
  | cons c t ih =>
    have hc : size (c :: t) = c.utf8Size + size t := by
      show t.foldl (fun n c => n + c.utf8Size) (0 + c.utf8Size) = _
      rw [ih, Nat.zero_add]
    rw [List.foldl_cons, ih, hc, Nat.add_assoc]

@[simp] theorem size_nil : size [] = 0 := rfl

@[simp] theorem size_cons (c : Char) (t : Text) : size (c :: t) = c.utf8Size + size t := by
  show t.foldl (fun n c => n + c.utf8Size) (0 + c.utf8Size) = _
  rw [foldl_utf8Size, Nat.zero_add]

@[simp] theorem size_append (a b : Text) : size (a ++ b) = size a + size b := by
  induction a with
  | nil => simp
  | cons c a ih => simp [ih, Nat.add_assoc]

/-- Move `n` bytes from the text onto the reversed front, unless the last character would have
to be split. -/
def moveBytes (front : Text) : Nat → Text → Option (Text × Text)
  | 0, t => some (front.reverse, t)
  | _ + 1, [] => none
  | n + 1, c :: t =>
    if c.utf8Size ≤ n + 1 then moveBytes (c :: front) (n + 1 - c.utf8Size) t else none

/-- The two parts of a text before and after a byte offset, if the offset is the edge of a
character. -/
def cutAt? (n : Nat) (t : Text) : Option (Text × Text) := moveBytes [] n t

def slice? (t : Text) (s : Span) : Option Text := do
  let (front, _) ← cutAt? s.stop t
  let (_, middle) ← cutAt? s.start front
  return middle

/-- The first suffix on which `found` succeeds, with the offset where the suffix starts; `pos` is
the offset of the whole text. -/
def leftmost? {α : Type} (found : Text → Option α) (pos : Nat) : Text → Option (Nat × α)
  | [] => (found []).map (pos, ·)
  | c :: t => match found (c :: t) with
    | some a => some (pos, a)
    | none => leftmost? found (pos + c.utf8Size) t

def replaceFrom (old new : Text) : Nat → Text → Text
  | _, [] => []
  | skip + 1, _ :: t => replaceFrom old new skip t
  | 0, c :: t =>
    if old.isPrefixOf (c :: t) then new ++ replaceFrom old new (old.length - 1) t
    else c :: replaceFrom old new 0 t

def replaceAll (old new t : Text) : Text := replaceFrom old new 0 t

def decimalValue (digits : Text) : Nat :=
  digits.foldl (fun n c => 10 * n + (c.toNat - '0'.toNat)) 0

def splitOn (sep : Char) : Text → List Text
  | [] => [[]]
  | c :: t =>
    if c = sep then [] :: splitOn sep t
    else match splitOn sep t with
      | [] => [[c]]
      | piece :: rest => (c :: piece) :: rest

end Text

def replaceString (s old new : String) : String :=
  String.ofList (Text.replaceAll old.toList new.toList s.toList)

end GrammarHeaders
