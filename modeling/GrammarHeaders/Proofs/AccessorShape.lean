import GrammarHeaders.Accessor
import Mathlib.Data.List.Basic

namespace GrammarHeaders

namespace Text

/-- The same letters, each in any case. -/
def SameLetters (s t : Text) : Prop := s.map fold = t.map fold

theorem foldedStart?_append (spelled rest : Text) :
    foldedStart? (spelled.map fold) (spelled ++ rest) = some (spelled, rest) := by
  induction spelled with
  | nil => rfl
  | cons c spelled ih => simp [foldedStart?, ih]

theorem foldedStart?_eq_some_iff {literal t spelled rest : Text} :
    foldedStart? literal t = some (spelled, rest) ↔ t = spelled ++ rest ∧ spelled.map fold = literal := by
  constructor
  · intro h
    induction literal generalizing t spelled with
    | nil =>
      simp only [foldedStart?, Option.some.injEq, Prod.mk.injEq] at h
      obtain ⟨rfl, rfl⟩ := h
      exact ⟨rfl, rfl⟩
    | cons p literal ih =>
      cases t with
      | nil => simp [foldedStart?] at h
      | cons c t =>
        rw [foldedStart?] at h
        split at h
        · rename_i hp
          obtain ⟨⟨spelled', rest'⟩, hs, he⟩ := Option.map_eq_some_iff.mp h
          simp only [Prod.mk.injEq] at he
          obtain ⟨rfl, rfl⟩ := he
          obtain ⟨rfl, rfl⟩ := ih hs
          exact ⟨rfl, by rw [List.map_cons, hp]⟩
        · cases h
  · rintro ⟨rfl, rfl⟩
    exact foldedStart?_append spelled rest

theorem fold_of_isBlank {c : Char} (h : isBlank c = true) : fold c = c := by
  simp only [isBlank, Bool.or_eq_true, beq_iff_eq] at h
  rcases h with rfl | rfl <;> decide

end Text

namespace Accessor

open Text

def canonicalOpening : Text := "return ((__Internal*)__Instance)->".toList

theorem map_fold_canonicalOpening : canonicalOpening.map fold = opening := by decide

theorem map_fold_of_mem_fields : ∀ name ∈ fields, name.map fold = name := by decide

/-- The parts of an accessor line. The opening and the field may be in any case. -/
structure HasParts (line : Text) (a : Accessor) (spelled : Text) : Prop where
  eq : line = a.indent ++ (spelled ++ (a.field ++ ';' :: a.trailing))
  indent : ∀ c ∈ a.indent, isBlank c = true
  opening : SameLetters spelled canonicalOpening
  field : ∃ name ∈ fields, SameLetters a.field name
  trailing : '\n' ∉ a.trailing

def IsAccessor (line : Text) : Prop := ∃ a spelled, HasParts line a spelled

theorem field?_eq_some_iff {t field rest : Text} :
    field? t = some (field, rest) ↔ t = field ++ rest ∧ ∃ name ∈ fields, SameLetters field name := by
  have hfields : ∀ name ∈ fields, (SameLetters field name ↔ field.map fold = name) := fun name hn => by
    rw [SameLetters, map_fold_of_mem_fields name hn]
  constructor
  · intro h
    obtain ⟨name, hn, hname⟩ := List.exists_of_findSome?_eq_some h
    obtain ⟨ht, hl⟩ := foldedStart?_eq_some_iff.mp hname
    exact ⟨ht, name, hn, (hfields name hn).mpr hl⟩
  · rintro ⟨rfl, name, hn, hname⟩
    rw [hfields name hn] at hname
    have hstart : foldedStart? name (field ++ rest) = some (field, rest) :=
      foldedStart?_eq_some_iff.mpr ⟨rfl, hname⟩
    rcases List.mem_cons.mp hn with rfl | hn
    · rw [field?, fields, List.findSome?_cons, hstart]
    · -- the first letter tells the two fields apart
      obtain rfl := List.mem_singleton.mp hn
      cases field with
      | nil => cases hname
      | cons c field =>
        have hc : fold c = 'f' := (List.cons.inj hname).1
        have hother : foldedStart? "symbol_names".toList (c :: field ++ rest) = none := by
          simp [foldedStart?, hc]
        rw [field?, fields, List.findSome?_cons, hother]
        simp only [List.findSome?_cons, hstart]

theorem takeWhile_isBlank {indent spelled rest : Text} (hindent : ∀ c ∈ indent, isBlank c = true)
    (hopening : SameLetters spelled canonicalOpening) :
    (indent ++ (spelled ++ rest)).takeWhile isBlank = indent := by
  rw [SameLetters, map_fold_canonicalOpening] at hopening
  cases spelled with
  | nil => cases hopening
  | cons c spelled =>
    have hc : fold c = 'r' := (List.cons.inj hopening).1
    have hblank : ¬ isBlank c = true := by
      intro hb
      obtain rfl := (fold_of_isBlank hb).symm.trans hc
      exact absurd hb (by decide)
    rw [List.takeWhile_append_of_pos hindent, List.cons_append, List.takeWhile_cons_of_neg hblank,
      List.append_nil]

theorem parse?_eq_some_iff {line : Text} {a : Accessor} :
    parse? line = some a ↔ ∃ spelled, HasParts line a spelled := by
  constructor
  · intro h
    simp only [parse?, Option.bind_eq_bind, Option.bind_eq_some_iff] at h
    obtain ⟨⟨spelled, afterOpening⟩, hopening, ⟨field, afterField⟩, hfield, h⟩ := h
    obtain ⟨hline, hletters⟩ := foldedStart?_eq_some_iff.mp hopening
    obtain ⟨hrest, hname⟩ := field?_eq_some_iff.mp hfield
    dsimp only at hline hletters hrest hname h
    split at h
    · rename_i trailing
      split at h
      · cases h
      · rename_i hn
        obtain rfl := Option.some.inj h
        refine ⟨spelled, ?_, List.all_eq_true.mp List.all_takeWhile, ?_, hname, by simpa using hn⟩
        · dsimp only
          rw [← hrest, ← hline]
          exact List.prefix_iff_eq_append.mp (List.takeWhile_prefix _) |>.symm
        · rw [SameLetters, hletters, map_fold_canonicalOpening]
    · cases h
  · rintro ⟨spelled, rfl, hindent, hopening, hfield, htrailing⟩
    have hstart : foldedStart? Accessor.opening (spelled ++ (a.field ++ ';' :: a.trailing)) =
        some (spelled, a.field ++ ';' :: a.trailing) :=
      foldedStart?_eq_some_iff.mpr ⟨rfl, hopening.trans map_fold_canonicalOpening⟩
    have hname : field? (a.field ++ ';' :: a.trailing) = some (a.field, ';' :: a.trailing) :=
      field?_eq_some_iff.mpr ⟨rfl, hfield⟩
    simp only [parse?, takeWhile_isBlank hindent hopening, List.drop_left, hstart, hname,
      Option.bind_eq_bind, Option.bind_some]
    rw [if_neg (by simpa using htrailing)]

theorem parse?_eq_none {indent : Text} {c : Char} {rest : Text}
    (hi : ∀ c ∈ indent, isBlank c = true) (hc : isBlank c = false)
    (h : foldedStart? opening (c :: rest) = none) : parse? (indent ++ c :: rest) = none := by
  have ht : (indent ++ c :: rest).takeWhile isBlank = indent := by
    rw [List.takeWhile_append_of_pos hi, List.takeWhile_cons_of_neg (by simp [hc]), List.append_nil]
  simp only [parse?, ht, List.drop_left, h, Option.bind_eq_bind, Option.bind_none]

theorem isSome_parse?_iff {line : Text} : (parse? line).isSome = true ↔ IsAccessor line := by
  rw [Option.isSome_iff_exists]
  exact exists_congr fun a => parse?_eq_some_iff

instance : DecidablePred IsAccessor := fun _ => decidable_of_iff _ isSome_parse?_iff

example : IsAccessor "\tRETURN ((__internal*)__In\u017ftance)->Field_Names; // \r".toList := by decide

def insertCast (n : Nat) (line : Text) : Text := line.take n ++ "(sbyte**)".toList ++ line.drop n

/-- The cast comes after the indentation, `return` and a space. -/
def castPlace (a : Accessor) : Nat := a.indent.length + "return ".length

theorem insertCast_append {front back : Text} {n : Nat} (h : front.length = n) :
    insertCast n (front ++ back) = front ++ "(sbyte**)".toList ++ back := by
  rw [insertCast, ← h, List.take_left, List.drop_left]

theorem HasParts.sameLetters {line : Text} {a : Accessor} {spelled : Text} (h : HasParts line a spelled) :
    SameLetters a.fixed (insertCast a.castPlace line) ∧
      (spelled = canonicalOpening → a.fixed = insertCast a.castPlace line) := by
  obtain ⟨rfl, -, hopening, -⟩ := h
  have hsplit : spelled = spelled.take 7 ++ spelled.drop 7 := (List.take_append_drop 7 spelled).symm
  have hplace : (a.indent ++ spelled.take 7).length = a.castPlace := by
    have hlen : spelled.length = canonicalOpening.length := by simpa using congrArg List.length hopening
    have hcanonical : canonicalOpening.length = 34 := by decide
    rw [List.length_append, List.length_take, hlen, hcanonical]
    rfl
  have hline : a.indent ++ (spelled ++ (a.field ++ ';' :: a.trailing)) =
      (a.indent ++ spelled.take 7) ++ (spelled.drop 7 ++ (a.field ++ ';' :: a.trailing)) := by
    rw [List.append_assoc, ← List.append_assoc (spelled.take 7), ← hsplit]
  have hfixed : a.fixed = a.indent ++ canonicalOpening.take 7 ++ "(sbyte**)".toList ++
      (canonicalOpening.drop 7 ++ (a.field ++ ';' :: a.trailing)) := by
    have hcast : "return (sbyte**)((__Internal*)__Instance)->".toList =
        canonicalOpening.take 7 ++ "(sbyte**)".toList ++ canonicalOpening.drop 7 := by decide
    simp only [fixed, hcast, List.append_assoc, List.singleton_append]
  rw [hline, insertCast_append hplace, hfixed]
  constructor
  · simp only [SameLetters, List.map_append, List.map_take, List.map_drop, hopening.symm]
  · rintro rfl
    rfl

end Accessor

end GrammarHeaders
