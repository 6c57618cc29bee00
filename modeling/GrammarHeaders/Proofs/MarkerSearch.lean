import GrammarHeaders.Marker
import GrammarHeaders.Text.Line
import GrammarHeaders.Proofs.Cutting
import Mathlib.Data.List.Basic

namespace GrammarHeaders.Marker

/-- The matches of a marker, with what they capture. -/
inductive Shape : Marker → Match → Prop where
  | guard : Shape guard ⟨guardToken, none⟩
  | signature {stem : Text} : stem ≠ [] → (∀ c ∈ stem, Text.isWord c = true) →
      Shape signature ⟨signatureOpening ++ (grammarFunctionPrefix.toList ++ stem) ++ signatureClosing,
        some (grammarFunctionPrefix.toList ++ stem)⟩
  | ending (e : LineEnding) : Shape ending ⟨endingOpening ++ (e.text ++ ['}']), none⟩

theorem literal?_eq_some_iff {token t : Text} {x : Match} :
    literal? token t = some x ↔ x = ⟨token, none⟩ ∧ token <+: t := by
  unfold literal?
  split
  · rename_i h
    have h := List.isPrefixOf_iff_prefix.mp h
    simp [h, eq_comm]
  · rename_i h
    have h := mt List.isPrefixOf_iff_prefix.mpr h
    simp [h]

theorem takeWhile_stem {stem : Text} (hw : ∀ c ∈ stem, Text.isWord c = true) (rest : Text) :
    (stem ++ (signatureClosing ++ rest)).takeWhile Text.isWord = stem := by
  have hopen : (signatureClosing ++ rest).takeWhile Text.isWord = [] := rfl
  rw [List.takeWhile_append_of_pos hw, hopen, List.append_nil]

theorem signature?_eq_some_iff {t : Text} {x : Match} :
    signature? t = some x ↔ Shape signature x ∧ x.matched <+: t := by
  constructor
  · intro h
    simp only [signature?, Option.bind_eq_bind, Option.bind_eq_some_iff,
      List.isPrefixOf?_eq_some_iff_append_eq] at h
    obtain ⟨t₁, rfl, t₂, rfl, h⟩ := h
    split at h
    · simp at h
    · rename_i hne
      split at h
      · rename_i hc
        obtain ⟨rest, hr⟩ := List.isPrefixOf_iff_prefix.mp hc
        obtain rfl := Option.some.inj h
        have hw : ∀ c ∈ t₂.takeWhile Text.isWord, Text.isWord c = true :=
          List.all_eq_true.mp List.all_takeWhile
        have ht : t₂.takeWhile Text.isWord ++ (signatureClosing ++ rest) = t₂ := by
          rw [hr]
          exact (List.prefix_iff_eq_append.mp (List.takeWhile_prefix _)).symm ▸ rfl
        refine ⟨.signature (by simpa using hne) hw, rest, ?_⟩
        simp only [List.append_assoc, ht]
      · simp at h
  · rintro ⟨h, rest, rfl⟩
    cases h with
    | @signature stem hne hw =>
      have h₁ : signatureOpening.isPrefixOf? (signatureOpening ++
          (grammarFunctionPrefix.toList ++ stem) ++ signatureClosing ++ rest) =
          some (grammarFunctionPrefix.toList ++ (stem ++ (signatureClosing ++ rest))) :=
        List.isPrefixOf?_eq_some_iff_append_eq.mpr (by simp)
      have h₂ : grammarFunctionPrefix.toList.isPrefixOf?
          (grammarFunctionPrefix.toList ++ (stem ++ (signatureClosing ++ rest))) =
          some (stem ++ (signatureClosing ++ rest)) :=
        List.isPrefixOf?_eq_some_iff_append_eq.mpr rfl
      have h₃ : signatureClosing.isPrefixOf (signatureClosing ++ rest) = true :=
        List.isPrefixOf_iff_prefix.mpr (List.prefix_append _ _)
      simp only [signature?, h₁, h₂, Option.bind_eq_bind, Option.bind_some, takeWhile_stem hw,
        List.isEmpty_iff, hne, if_false, List.drop_left, h₃, if_true]

theorem ending?_eq_some_iff {t : Text} {x : Match} :
    ending? t = some x ↔ Shape ending x ∧ x.matched <+: t := by
  constructor
  · intro h
    simp only [ending?, Option.bind_eq_bind, Option.bind_eq_some_iff,
      List.isPrefixOf?_eq_some_iff_append_eq] at h
    obtain ⟨t₁, rfl, h⟩ := h
    split at h
    · obtain rfl := Option.some.inj h
      exact ⟨.ending .lf, by simp⟩
    · obtain rfl := Option.some.inj h
      exact ⟨.ending .crlf, by simp⟩
    · simp at h
  · rintro ⟨h, rest, rfl⟩
    cases h with
    | ending e =>
      have h : endingOpening.isPrefixOf? (endingOpening ++ (e.text ++ ['}']) ++ rest) =
          some (e.text ++ '}' :: rest) :=
        List.isPrefixOf?_eq_some_iff_append_eq.mpr (by simp)
      simp only [ending?, h, Option.bind_eq_bind, Option.bind_some]
      cases e <;> rfl

theorem matchAt?_eq_some_iff {m : Marker} {t : Text} {x : Match} :
    m.matchAt? t = some x ↔ m.Shape x ∧ x.matched <+: t := by
  cases m with
  | guard =>
    rw [matchAt?, literal?_eq_some_iff]
    constructor
    · rintro ⟨rfl, h⟩
      exact ⟨.guard, h⟩
    · rintro ⟨⟨⟩, h⟩
      exact ⟨rfl, h⟩
  | signature => exact signature?_eq_some_iff
  | ending => exact ending?_eq_some_iff

/-- The match `x` stands in the text between `front` and `rest`, and none starts before it. -/
structure FirstMatch (m : Marker) (t front : Text) (x : Match) (rest : Text) : Prop where
  whole : t = front ++ (x.matched ++ rest)
  shape : m.Shape x
  first : ∀ f y r, m.Shape y → t = f ++ (y.matched ++ r) → front.length ≤ f.length

theorem leftmost?_matchAt? {m : Marker} {pos p : Nat} {t : Text} {x : Match}
    (h : Text.leftmost? m.matchAt? pos t = some (p, x)) :
    ∃ front rest, m.FirstMatch t front x rest ∧ p = pos + Text.size front := by
  obtain ⟨front, u, ⟨rfl, hu, hf⟩, rfl⟩ := Text.leftmost?_eq_some h
  obtain ⟨hx, rest, rfl⟩ := matchAt?_eq_some_iff.mp hu
  refine ⟨front, rest, ⟨rfl, hx, ?_⟩, rfl⟩
  intro f y r hy hs
  by_contra hl
  have hn := hf f (y.matched ++ r) hs (by omega)
  rw [matchAt?_eq_some_iff.mpr ⟨hy, r, rfl⟩] at hn
  cases hn

theorem FirstMatch.unique {m : Marker} {t front front' rest rest' : Text} {x x' : Match}
    (h : m.FirstMatch t front x rest) (h' : m.FirstMatch t front' x' rest') :
    front = front' ∧ x = x' ∧ rest = rest' := by
  have hl : front.length = front'.length :=
    Nat.le_antisymm (h.first front' x' rest' h'.shape h'.whole)
      (h'.first front x rest h.shape h.whole)
  obtain ⟨rfl, hr⟩ := List.append_inj (h.whole.symm.trans h'.whole) hl
  have hx := matchAt?_eq_some_iff.mpr ⟨h.shape, rest, rfl⟩
  rw [hr, matchAt?_eq_some_iff.mpr ⟨h'.shape, rest', rfl⟩] at hx
  obtain rfl := Option.some.inj hx
  exact ⟨rfl, rfl, List.append_cancel_left hr⟩

theorem locate_eq_some {m : Marker} {t : Text} {l : Located} (h : m.locate t = some l) :
    ∃ front x rest, m.FirstMatch t front x rest ∧
      l = ⟨m.spanAt t (Text.size front) x, x.capture, x.matched⟩ := by
  obtain ⟨⟨p, x⟩, hp, rfl⟩ := Option.map_eq_some_iff.mp h
  obtain ⟨front, rest, hf, rfl⟩ := leftmost?_matchAt? hp
  exact ⟨front, x, rest, hf, by simp⟩

theorem skipTo_append (pos : Nat) (a b : Text) :
    skipTo (pos + Text.size a) pos (a ++ b) = (pos + Text.size a, b) := by
  induction a generalizing pos with
  | nil => cases b <;> simp [skipTo]
  | cons c a ih =>
    have hc := c.utf8Size_pos
    rw [List.cons_append, skipTo, if_neg (by simp; omega), Text.size_cons, ← Nat.add_assoc, ih]

theorem locateFrom_append_eq_ok {m : Marker} {a b : Text} {l : Located}
    (h : m.locateFrom (a ++ b) (Text.size a) = .ok (some l)) :
    ∃ front x rest, m.FirstMatch b front x rest ∧
      l = ⟨m.spanAt (a ++ b) (Text.size a + Text.size front) x, x.capture, x.matched⟩ := by
  have hs := skipTo_append 0 a b
  have hl : ¬ Text.size (a ++ b) < Text.size a := by simp
  rw [Nat.zero_add] at hs
  rw [locateFrom, if_neg hl, hs] at h
  simp only [ne_eq, not_true_eq_false, and_false, if_false, Except.ok.injEq] at h
  obtain ⟨⟨p, x⟩, hp, rfl⟩ := Option.map_eq_some_iff.mp h
  obtain ⟨front, rest, hf, rfl⟩ := leftmost?_matchAt? hp
  exact ⟨front, x, rest, hf, rfl⟩

end GrammarHeaders.Marker
