import GrammarHeaders.Export
import Mathlib.Data.List.Basic

namespace GrammarHeaders

namespace Text

/-- The text has no newline character. -/
def NewlineFree (t : Text) : Prop := '\r' ∉ t ∧ '\n' ∉ t

instance (t : Text) : Decidable (NewlineFree t) := inferInstanceAs (Decidable (_ ∧ _))

theorem NewlineFree.append {s t : Text} (hs : NewlineFree s) (ht : NewlineFree t) :
    NewlineFree (s ++ t) := by
  obtain ⟨hs₁, hs₂⟩ := hs
  obtain ⟨ht₁, ht₂⟩ := ht
  exact ⟨by simp [hs₁, ht₁], by simp [hs₂, ht₂]⟩

/-- The text is an identifier of C. -/
def isIdentifier : Text → Bool
  | [] => false
  | c :: rest => (c.isAlpha || c == '_') && rest.all isAsciiWord

theorem isAsciiWord_iff (c : Char) : isAsciiWord c = true ↔
    (65 ≤ c.toNat ∧ c.toNat ≤ 90) ∨ (97 ≤ c.toNat ∧ c.toNat ≤ 122) ∨
      (48 ≤ c.toNat ∧ c.toNat ≤ 57) ∨ c.toNat = 95 := by
  have h95 : c = '_' ↔ c.toNat = 95 :=
    ⟨fun h => by simp [h], fun h => Char.ext (UInt32.toNat_inj.mp h)⟩
  have hranges : isAsciiWord c = ((decide (65 ≤ c.val ∧ c.val ≤ 90) ||
      (decide (97 ≤ c.val) && decide (c.val ≤ 122)) ||
      (decide (48 ≤ c.val) && decide (c.val ≤ 57))) || c == '_') := rfl
  simp only [hranges, Bool.or_eq_true, Bool.and_eq_true, decide_eq_true_eq, beq_iff_eq, h95,
    UInt32.le_iff_toNat_le]
  change (((65 ≤ c.toNat ∧ c.toNat ≤ 90) ∨ (97 ≤ c.toNat ∧ c.toNat ≤ 122)) ∨
    (48 ≤ c.toNat ∧ c.toNat ≤ 57)) ∨ c.toNat = 95 ↔ _
  omega

theorem isWord_of_isAsciiWord {c : Char} (h : isAsciiWord c = true) : isWord c = true := by
  have hc : c.toNat < 128 := by have := (isAsciiWord_iff c).mp h; omega
  simp [isWord, hc, h]

theorem whiteRanges_apart_ranges :
    ∀ w ∈ whiteRanges, ∀ r ∈ Word.ranges, w.2 < r.1 ∨ r.2 < w.1 := by
  decide +kernel

theorem isWord_of_isWhite {c : Char} (h : isWhite c = true) : isWord c = false := by
  obtain ⟨w, hw, hwc⟩ := List.any_eq_true.mp h
  simp only [Bool.and_eq_true, decide_eq_true_eq] at hwc
  unfold isWord
  split
  · have hb : ∀ w ∈ whiteRanges, w.2 < 48 ∨ 122 < w.1 := by decide
    have hb := hb w hw
    rw [Bool.eq_false_iff, Ne, isAsciiWord_iff]
    omega
  · rw [Bool.eq_false_iff, Ne, List.any_eq_true]
    rintro ⟨r, hr, hrc⟩
    simp only [Bool.and_eq_true, decide_eq_true_eq] at hrc
    have := whiteRanges_apart_ranges w hw r hr
    omega

theorem isWhite_of_isBlank {c : Char} (h : isBlank c = true) : isWhite c = true := by
  simp only [isBlank, Bool.or_eq_true, beq_iff_eq] at h
  rcases h with rfl | rfl <;> decide

theorem isWhite_of_isWord {c : Char} (h : isWord c = true) : isWhite c = false := by
  cases hw : isWhite c with
  | false => rfl
  | true => simp [isWord_of_isWhite hw] at h

theorem isAsciiWord_of_isIdentifier {name : Text} (h : isIdentifier name = true) :
    ∀ c ∈ name, isAsciiWord c = true := by
  cases name with
  | nil => simp
  | cons c rest =>
    simp only [isIdentifier, Bool.and_eq_true] at h
    have hc : isAsciiWord c = true := by
      simp only [isAsciiWord, Char.isAlphanum, Bool.or_eq_true] at h ⊢
      exact h.1.imp_left Or.inl
    simpa [hc] using h.2

theorem isIdentifier_cons {name : Text} (h : isIdentifier name = true) :
    ∃ c rest, name = c :: rest ∧ isWord c = true := by
  cases name with
  | nil => simp [isIdentifier] at h
  | cons c rest =>
    have hc := isAsciiWord_of_isIdentifier h c (by simp)
    exact ⟨c, rest, rfl, isWord_of_isAsciiWord hc⟩

theorem takeWhile_of_isIdentifier {name : Text} (h : isIdentifier name = true) (t : Text) :
    (name ++ ' ' :: t).takeWhile (fun c => c != ' ') = name := by
  have hn : ∀ c ∈ name, (c != ' ') = true := by
    intro c hc
    rw [bne_iff_ne]
    rintro rfl
    exact absurd (isAsciiWord_of_isIdentifier h ' ' hc) (by decide)
  rw [List.takeWhile_append_of_pos hn]
  simp

theorem dropWhile_cons_eq_of_not {p : Char → Bool} {c : Char} {t rest : Text} {d : Char}
    (hp : p c = false) (h : (c :: t).dropWhile p = d :: rest) : c = d := by
  simp_all

end Text

namespace Declaration

theorem isWord_of_isDeclaration {functionPrefix line : Text}
    (h : isDeclaration functionPrefix line = true) :
    ∃ c rest, line = c :: rest ∧ Text.isWord c = true := by
  simp only [isDeclaration, Bool.and_eq_true] at h
  cases line with
  | nil => simp [continues, ReturnType.mayEnd] at h
  | cons c rest =>
    refine ⟨c, rest, rfl, ?_⟩
    cases hc : Text.isWord c with
    | true => rfl
    | false => simp [continues, ReturnType.mayEnd, ReturnType.step, hc] at h

theorem continues_of_isCallShape {functionPrefix t : Text} {s : ReturnType.State}
    (hs : ReturnType.mayEnd s = true) (ht : isCallShape functionPrefix t = true) :
    continues functionPrefix s t = true := by
  cases t <;> simp [continues, hs, ht]

theorem continues_append {functionPrefix w t : Text} {s s' : ReturnType.State}
    (hw : w.foldlM ReturnType.step s = some s') (ht : continues functionPrefix s' t = true) :
    continues functionPrefix s (w ++ t) = true := by
  induction w generalizing s with
  | nil =>
    obtain rfl : s = s' := by simpa using hw
    exact ht
  | cons c w ih =>
    rw [List.foldlM_cons] at hw
    obtain ⟨s₁, hc, hw⟩ := Option.bind_eq_some_iff.mp hw
    simp [continues, hc, ih hw]

theorem isCallShape_append {functionPrefix stem arguments : Text}
    (hw : ∀ c ∈ stem, Text.isWord c = true) (ha : isArgumentList arguments = true) :
    isCallShape functionPrefix (functionPrefix ++ (stem ++ '(' :: arguments)) = true := by
  have hp : functionPrefix.isPrefixOf? (functionPrefix ++ (stem ++ '(' :: arguments)) =
      some (stem ++ '(' :: arguments) := List.isPrefixOf?_eq_some_iff_append_eq.mpr rfl
  have hd : (stem ++ '(' :: arguments).dropWhile Text.isWord = '(' :: arguments := by
    rw [List.dropWhile_append_of_pos hw, List.dropWhile_cons_of_neg (by decide)]
  simp [isCallShape, hp, hd, ha]

end Declaration

namespace Directive

theorem isWord_numberSign : Text.isWord '#' = false := by decide

theorem isInclude_of_isWord {c : Char} {line : Text} (hc : Text.isWord c = true) :
    isInclude (c :: line) = false := by
  have hb : Text.isBlank c = false := by
    cases hb : Text.isBlank c with
    | false => rfl
    | true => simp [Text.isWord_of_isWhite (Text.isWhite_of_isBlank hb)] at hc
  unfold isInclude
  split
  · rename_i heq
    obtain rfl := Text.dropWhile_cons_eq_of_not hb heq
    simp [isWord_numberSign] at hc
  · rfl

theorem definesMacro_of_isWord {name line : Text} {c : Char} (hc : Text.isWord c = true) :
    definesMacro name (c :: line) = false := by
  unfold definesMacro
  split
  · rename_i heq
    obtain rfl := Text.dropWhile_cons_eq_of_not (Text.isWhite_of_isWord hc) heq
    simp [isWord_numberSign] at hc
  · rfl

theorem trimStart_append {gap t : Text} {c : Char} (hg : gap.all Text.isWhite = true)
    (hc : Text.isWhite c = false) : Text.trimStart (gap ++ c :: t) = c :: t := by
  induction gap with
  | nil => simp [Text.trimStart, hc]
  | cons g gap ih => simp_all [Text.trimStart]

/-- A definition with any blanks after the number sign is recognised, whatever it defines the
macro as. -/
theorem definesMacro_define {gap name tail : Text} {c : Char} {rest : Text}
    (hg : gap.all Text.isWhite = true) (hn : name = c :: rest) (hc : Text.isWhite c = false)
    (ht : endsName tail = true) :
    definesMacro name ('#' :: (gap ++ (defineWord ++ ' ' :: (name ++ tail)))) = true := by
  have hsign : ∀ t, Text.trimStart ('#' :: t) = '#' :: t := fun t => rfl
  have hgap : Text.trimStart (gap ++ (defineWord ++ ' ' :: (name ++ tail))) =
      defineWord ++ ' ' :: (name ++ tail) :=
    trimStart_append hg (by decide)
  have hword : defineWord.isPrefixOf? (defineWord ++ ' ' :: (name ++ tail)) =
      some (' ' :: (name ++ tail)) :=
    List.isPrefixOf?_eq_some_iff_append_eq.mpr rfl
  have hname : Text.trimStart (' ' :: (name ++ tail)) = name ++ tail := by
    have hs : [' '].all Text.isWhite = true := by decide
    rw [hn]
    exact trimStart_append hs hc
  have htail : name.isPrefixOf? (name ++ tail) = some tail :=
    List.isPrefixOf?_eq_some_iff_append_eq.mpr rfl
  simp only [definesMacro, hsign, hgap, hword, hname, htail, ht]
  decide

end Directive

end GrammarHeaders
