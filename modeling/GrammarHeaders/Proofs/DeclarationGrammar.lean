import GrammarHeaders.Proofs.LineShapes
import Mathlib.Computability.Language

open Computability

namespace GrammarHeaders

namespace Text

/-- Any number of characters of a class. -/
def anyOf (p : Char → Bool) : Language Char := {t : Text | ∀ c ∈ t, p c = true}

/-- At least one character of a class. -/
def someOf (p : Char → Bool) : Language Char := {t : Text | t ≠ [] ∧ ∀ c ∈ t, p c = true}

def exactly (s : Text) : Language Char := {t : Text | t = s}

def endingIn (s : Text) : Language Char := {t : Text | s <:+ t}

section

variable {p : Char → Bool} {c : Char} {s t : Text} {l : Language Char}

@[simp] theorem mem_anyOf : t ∈ anyOf p ↔ ∀ c ∈ t, p c = true := Iff.rfl

@[simp] theorem mem_someOf : t ∈ someOf p ↔ t ≠ [] ∧ ∀ c ∈ t, p c = true := Iff.rfl

theorem self_mem_exactly (s : Text) : s ∈ exactly s := rfl

theorem singleton_mem_someOf (h : p c = true) : [c] ∈ someOf p := by simp [h]

theorem append_mem_mul_someOf (ht : t ∈ l * someOf p) (h : p c = true) : t ++ [c] ∈ l * someOf p := by
  obtain ⟨a, ha, b, hb, rfl⟩ := Language.mem_mul.mp ht
  rw [List.append_assoc]
  refine Language.append_mem_mul ha ⟨by simp, fun d hd => ?_⟩
  rcases List.mem_append.mp hd with hd | hd
  · exact hb.2 d hd
  · rw [List.mem_singleton.mp hd]
    exact h

theorem append_mem_kstar (hs : s ∈ l∗) (ht : t ∈ l) : s ++ t ∈ l∗ := by
  have hle : l∗ * l ≤ l∗ := kstar_mul_le_kstar
  exact hle (Language.append_mem_mul hs ht)

theorem mem_anyOf_iff : t ∈ anyOf p ↔ t = [] ∨ t ∈ someOf p := by
  cases t with
  | nil => simp
  | cons c t => simp

end

end Text

open Text

namespace ReturnType

/-- Words with blanks between them. -/
def words : Language Char := (someOf isWord * someOf isBlank)∗ * someOf isWord

def stars : Language Char := someOf fun c => c == '*'

/-- What divides the return type from the function name. -/
def separator : Language Char := someOf isBlank + anyOf isBlank * stars * anyOf isBlank

/-- What has been read in a state. -/
def readAs : State → Language Char
  | .start => 1
  | .word => words
  | .gap => words * someOf isBlank
  | .stars => words * anyOf isBlank * stars
  | .afterStars => words * anyOf isBlank * stars * someOf isBlank

theorem isWord_of_isBlank {c : Char} (h : isBlank c = true) : isWord c = false :=
  isWord_of_isWhite (isWhite_of_isBlank h)

theorem isWord_star : isWord '*' = false := by decide

theorem isBlank_star : isBlank '*' = false := by decide

theorem step_eq_some {s s' : State} {c : Char} (h : step s c = some s') :
    (isWord c = true ∧ (s = .start ∨ s = .word ∨ s = .gap) ∧ s' = .word) ∨
    (isBlank c = true ∧ (s = .word ∨ s = .gap) ∧ s' = .gap) ∨
    (c = '*' ∧ (s = .word ∨ s = .gap ∨ s = .stars) ∧ s' = .stars) ∨
    (isBlank c = true ∧ (s = .stars ∨ s = .afterStars) ∧ s' = .afterStars) := by
  cases s <;> simp only [step] at h <;> grind

theorem readAs_append {s s' : State} {c : Char} {t : Text} (ht : t ∈ readAs s)
    (hc : step s c = some s') : t ++ [c] ∈ readAs s' := by
  rcases step_eq_some hc with ⟨hw, hs, rfl⟩ | ⟨hb, hs, rfl⟩ | ⟨rfl, hs, rfl⟩ | ⟨hb, hs, rfl⟩
  · rcases hs with rfl | rfl | rfl
    · rw [readAs, Language.mem_one] at ht
      rw [ht]
      exact Language.append_mem_mul (Language.nil_mem_kstar _) (singleton_mem_someOf hw)
    · exact append_mem_mul_someOf ht hw
    · rw [readAs, words, mul_assoc] at ht
      obtain ⟨a, ha, b, hb, rfl⟩ := Language.mem_mul.mp ht
      refine Language.append_mem_mul ?_ (singleton_mem_someOf hw)
      exact append_mem_kstar ha hb
  · rcases hs with rfl | rfl
    · exact Language.append_mem_mul ht (singleton_mem_someOf hb)
    · exact append_mem_mul_someOf ht hb
  · have hstar : ('*' == '*') = true := rfl
    rcases hs with rfl | rfl | rfl
    · have ht' := Language.append_mem_mul ht (mem_anyOf_iff.mpr (.inl rfl) : [] ∈ anyOf isBlank)
      rw [List.append_nil] at ht'
      exact Language.append_mem_mul ht' (singleton_mem_someOf hstar)
    · obtain ⟨a, ha, b, hb, rfl⟩ := Language.mem_mul.mp ht
      exact Language.append_mem_mul (Language.append_mem_mul ha (mem_anyOf_iff.mpr (.inr hb)))
        (singleton_mem_someOf hstar)
    · exact append_mem_mul_someOf ht hstar
  · rcases hs with rfl | rfl
    · exact Language.append_mem_mul ht (singleton_mem_someOf hb)
    · exact append_mem_mul_someOf ht hb

theorem readAs_foldlM {s s' : State} {t u : Text} (hu : u ∈ readAs s)
    (ht : t.foldlM step s = some s') : u ++ t ∈ readAs s' := by
  induction t generalizing s u with
  | nil =>
    obtain rfl : s = s' := by simpa using ht
    simpa using hu
  | cons c t ih =>
    rw [List.foldlM_cons] at ht
    obtain ⟨s₁, hc, ht⟩ := Option.bind_eq_some_iff.mp ht
    rw [List.append_cons]
    exact ih (readAs_append hu hc) ht

theorem foldlM_of_someOf {p : Char → Bool} {s s' : State} {t : Text}
    (hfirst : ∀ c, p c = true → step s c = some s') (hnext : ∀ c, p c = true → step s' c = some s')
    (ht : t ∈ someOf p) : t.foldlM step s = some s' := by
  obtain ⟨hne, hall⟩ := ht
  induction t generalizing s with
  | nil => exact absurd rfl hne
  | cons c t ih =>
    rw [List.foldlM_cons, hfirst c (hall c List.mem_cons_self), Option.bind_eq_bind, Option.bind_some]
    by_cases ht : t = []
    · rw [ht]
      rfl
    · exact ih hnext ht fun d hd => hall d (List.mem_cons_of_mem _ hd)

theorem foldlM_append_of_eq_some {s s₁ : State} {t u : Text} (ht : t.foldlM step s = some s₁) :
    (t ++ u).foldlM step s = u.foldlM step s₁ := by
  rw [List.foldlM_append, ht]
  rfl

theorem foldlM_of_words {t : Text} (ht : t ∈ words) : t.foldlM step .start = some .word := by
  obtain ⟨a, ha, b, hb, rfl⟩ := Language.mem_mul.mp ht
  obtain ⟨parts, rfl, hparts⟩ := Language.mem_kstar.mp ha
  -- between two words the state is a gap, before the first one it is the start
  suffices h : ∀ s, s = .start ∨ s = .gap → (parts.flatten ++ b).foldlM step s = some .word from
    h _ (.inl rfl)
  clear ha ht
  induction parts with
  | nil =>
    rintro s hs
    refine foldlM_of_someOf (fun c hc => ?_) (fun c hc => ?_) hb
    · rcases hs with rfl | rfl <;> simp [step, hc]
    · simp [step, hc]
  | cons part parts ih =>
    rintro s hs
    obtain ⟨hpart, hrest⟩ := List.forall_mem_cons.mp hparts
    obtain ⟨w, hw, g, hg, rfl⟩ := Language.mem_mul.mp hpart
    have hword : w.foldlM step s = some .word := by
      refine foldlM_of_someOf (fun c hc => ?_) (fun c hc => ?_) hw
      · rcases hs with rfl | rfl <;> simp [step, hc]
      · simp [step, hc]
    have hgap : g.foldlM step .word = some .gap := by
      refine foldlM_of_someOf (fun c hc => ?_) (fun c hc => ?_) hg
      · simp [step, hc, isWord_of_isBlank hc]
      · simp [step, hc, isWord_of_isBlank hc]
    rw [List.flatten_cons, List.append_assoc, List.append_assoc, foldlM_append_of_eq_some hword,
      foldlM_append_of_eq_some hgap]
    exact ih hrest .gap (.inr rfl)

theorem foldlM_of_blanks {s : State} {t : Text} (hs : s = .word ∨ s = .gap) (ht : t ∈ someOf isBlank) :
    t.foldlM step s = some .gap := by
  have hblank : ∀ s c, s = .word ∨ s = .gap → isBlank c = true → step s c = some .gap := by
    rintro s c (rfl | rfl) hc <;> simp [step, hc, isWord_of_isBlank hc]
  exact foldlM_of_someOf (hblank s · hs) (hblank .gap · (.inr rfl)) ht

theorem foldlM_of_stars {s : State} {t : Text} (hs : s = .word ∨ s = .gap) (ht : t ∈ stars) :
    t.foldlM step s = some .stars := by
  refine foldlM_of_someOf (fun c hc => ?_) (fun c hc => ?_) ht
  · obtain rfl := beq_iff_eq.mp hc
    rcases hs with rfl | rfl <;> simp [step, isWord_star, isBlank_star]
  · obtain rfl := beq_iff_eq.mp hc
    simp [step]

theorem foldlM_of_blanks_after_stars {t : Text} (ht : t ∈ someOf isBlank) :
    t.foldlM step .stars = some .afterStars := by
  refine foldlM_of_someOf (fun c hc => ?_) (fun c hc => ?_) ht
  · have hne : c ≠ '*' := by
      rintro rfl
      simp [isBlank_star] at hc
    simp [step, hc, hne]
  · simp [step, hc]

theorem foldlM_of_separator {t : Text} (ht : t ∈ separator) :
    ∃ s, t.foldlM step .word = some s ∧ mayEnd s = true := by
  rcases ht with ht | ht
  · exact ⟨.gap, foldlM_of_blanks (.inl rfl) ht, rfl⟩
  · obtain ⟨left, hleft, right, hright, rfl⟩ := Language.mem_mul.mp ht
    obtain ⟨gap, hgap, marks, hmarks, rfl⟩ := Language.mem_mul.mp hleft
    have hgaps : (gap ++ marks).foldlM step .word = some .stars := by
      rcases mem_anyOf_iff.mp hgap with rfl | hgap
      · exact foldlM_of_stars (.inl rfl) hmarks
      · rw [foldlM_append_of_eq_some (foldlM_of_blanks (.inl rfl) hgap)]
        exact foldlM_of_stars (.inr rfl) hmarks
    rw [foldlM_append_of_eq_some hgaps]
    rcases mem_anyOf_iff.mp hright with rfl | hright
    · exact ⟨.stars, rfl, rfl⟩
    · exact ⟨.afterStars, foldlM_of_blanks_after_stars hright, rfl⟩

theorem mem_words_mul_separator_of_readAs {s : State} {t : Text} (ht : t ∈ readAs s)
    (hs : mayEnd s = true) : t ∈ words * separator := by
  cases s with
  | start => cases hs
  | word => cases hs
  | gap =>
    obtain ⟨w, hw, gap, hgap, rfl⟩ := Language.mem_mul.mp ht
    exact Language.append_mem_mul hw (.inl hgap)
  | stars =>
    rw [readAs, mul_assoc] at ht
    obtain ⟨w, hw, marks, hmarks, rfl⟩ := Language.mem_mul.mp ht
    refine Language.append_mem_mul hw (.inr ?_)
    have hnil := Language.append_mem_mul hmarks (mem_anyOf_iff.mpr (.inl rfl) : [] ∈ anyOf isBlank)
    rwa [List.append_nil] at hnil
  | afterStars =>
    rw [readAs, mul_assoc words] at ht
    obtain ⟨front, hfront, gap, hgap, rfl⟩ := Language.mem_mul.mp ht
    obtain ⟨w, hw, marks, hmarks, rfl⟩ := Language.mem_mul.mp hfront
    rw [List.append_assoc]
    exact Language.append_mem_mul hw
      (.inr (Language.append_mem_mul hmarks (mem_anyOf_iff.mpr (.inr hgap))))

/-- A return type with what divides it from the function name is what has been read in a state in
which the name may follow. -/
theorem mem_words_mul_separator {t : Text} :
    t ∈ words * separator ↔ ∃ s, t.foldlM step .start = some s ∧ mayEnd s = true := by
  constructor
  · intro ht
    obtain ⟨w, hw, sep, hsep, rfl⟩ := Language.mem_mul.mp ht
    rw [foldlM_append_of_eq_some (foldlM_of_words hw)]
    exact foldlM_of_separator hsep
  · rintro ⟨s, ht, hs⟩
    exact mem_words_mul_separator_of_readAs (readAs_foldlM (rfl : [] ∈ readAs .start) ht) hs

end ReturnType

namespace Declaration

/-- A parameter list that is complete, or none of it yet. -/
def parameters : Language Char := 1 + endingIn [')', ';']

/-- Blanks, and a carriage return if the line has one. -/
def lineEnd : Language Char := anyOf isBlank * (1 + exactly ['\r'])

/-- A function name and what follows it. -/
def callShape (functionPrefix : Text) : Language Char :=
  exactly functionPrefix * anyOf isWord * exactly ['('] * (parameters * lineEnd)

/-- Return type, function name and parameters, and nothing else. -/
def grammar (functionPrefix : Text) : Language Char :=
  ReturnType.words * ReturnType.separator * callShape functionPrefix

def trimBlanks (t : Text) : Text := (t.reverse.dropWhile isBlank).reverse

theorem exists_trimBlanks (t : Text) : ∃ gap ∈ anyOf isBlank, t = trimBlanks t ++ gap := by
  refine ⟨(t.reverse.takeWhile isBlank).reverse, fun c hc => ?_, ?_⟩
  · exact List.all_eq_true.mp List.all_takeWhile c (List.mem_reverse.mp hc)
  · rw [trimBlanks, ← List.reverse_append, List.takeWhile_append_dropWhile, List.reverse_reverse]

theorem trimBlanks_append {body gap : Text} (hbody : ∀ c ∈ body.getLast?, isBlank c = false)
    (hgap : gap ∈ anyOf isBlank) : trimBlanks (body ++ gap) = body := by
  have hgap' : ∀ c ∈ gap.reverse, isBlank c = true := fun c hc => hgap c (List.mem_reverse.mp hc)
  rw [trimBlanks, List.reverse_append, List.dropWhile_append_of_pos hgap']
  cases hb : body.reverse with
  | nil => simpa using hb.symm
  | cons c rest =>
    have hc : isBlank c = false := hbody c (by simp [← List.head?_reverse, hb])
    rw [List.dropWhile_cons_of_neg (by simp [hc]), ← hb, List.reverse_reverse]

theorem trimLineEnd_return (t : Text) : trimLineEnd (t ++ ['\r']) = trimBlanks t := by
  simp [trimLineEnd, trimBlanks]

theorem trimLineEnd_of_getLast? {t : Text} (h : t.getLast? ≠ some '\r') :
    trimLineEnd t = trimBlanks t := by
  simp [trimLineEnd, trimBlanks, h]

theorem exists_trimLineEnd (t : Text) : ∃ tail ∈ lineEnd, t = trimLineEnd t ++ tail := by
  by_cases h : t.getLast? = some '\r'
  · obtain ⟨u, rfl⟩ := List.getLast?_eq_some_iff.mp h
    obtain ⟨gap, hgap, hu⟩ := exists_trimBlanks u
    refine ⟨gap ++ ['\r'], Language.append_mem_mul hgap (.inr rfl), ?_⟩
    rw [trimLineEnd_return, ← List.append_assoc, ← hu]
  · obtain ⟨gap, hgap, ht⟩ := exists_trimBlanks t
    refine ⟨gap ++ [], Language.append_mem_mul hgap (.inl rfl), ?_⟩
    rw [trimLineEnd_of_getLast? h, List.append_nil]
    exact ht

theorem trimLineEnd_append {body tail : Text}
    (hbody : ∀ c ∈ body.getLast?, isBlank c = false ∧ c ≠ '\r') (htail : tail ∈ lineEnd) :
    trimLineEnd (body ++ tail) = body := by
  obtain ⟨gap, hgap, cr, hcr, rfl⟩ := Language.mem_mul.mp htail
  have htrim := trimBlanks_append (fun c hc => (hbody c hc).1) hgap
  rcases hcr with rfl | rfl
  · rw [List.append_nil, trimLineEnd_of_getLast?, htrim]
    -- the last character is a blank, or it is that of the body
    intro hlast
    rw [List.getLast?_append, Option.or_eq_some_iff] at hlast
    rcases hlast with hlast | ⟨-, hlast⟩
    · exact absurd (hgap _ (List.mem_of_getLast? hlast)) (by decide)
    · exact (hbody _ hlast).2 rfl
  · rw [← List.append_assoc, trimLineEnd_return, htrim]

theorem isArgumentList_iff {t : Text} (hn : '\n' ∉ t) :
    isArgumentList t = true ↔ t ∈ parameters * lineEnd := by
  constructor
  · intro h
    obtain ⟨tail, htail, ht⟩ := exists_trimLineEnd t
    rw [ht]
    refine Language.append_mem_mul ?_ htail
    simp only [isArgumentList, Bool.or_eq_true, Bool.and_eq_true, List.isEmpty_iff,
      List.isSuffixOf_iff_suffix] at h
    exact h.imp id And.left
  · intro h
    obtain ⟨body, hbody, tail, htail, rfl⟩ := Language.mem_mul.mp h
    rcases hbody with rfl | ⟨front, rfl⟩
    · have htrim : trimLineEnd ([] ++ tail) = [] := trimLineEnd_append nofun htail
      rw [isArgumentList, htrim]
      rfl
    · have htrim : trimLineEnd (front ++ [')', ';'] ++ tail) = front ++ [')', ';'] := by
        refine trimLineEnd_append (fun c hc => ?_) htail
        obtain rfl : ';' = c := by simpa using hc
        decide
      have hfront : '\n' ∉ front := fun hf => hn (by simp [hf])
      rw [isArgumentList, htrim]
      simp [List.dropLast_append_of_ne_nil, hfront]

theorem isCallShape_iff {functionPrefix t : Text} (hn : '\n' ∉ t) :
    isCallShape functionPrefix t = true ↔ t ∈ callShape functionPrefix := by
  constructor
  · intro h
    unfold isCallShape at h
    split at h
    · cases h
    · rename_i rest hrest
      split at h
      · rename_i arguments harguments
        have hsplit : rest = rest.takeWhile isWord ++ '(' :: arguments := by
          rw [← harguments, List.takeWhile_append_dropWhile]
        have ht : functionPrefix ++ rest = t := List.isPrefixOf?_eq_some_iff_append_eq.mp hrest
        rw [hsplit] at ht
        subst ht
        have ha : '\n' ∉ arguments := fun ha => hn (by simp [ha])
        have hstem : rest.takeWhile isWord ∈ anyOf isWord := List.all_eq_true.mp List.all_takeWhile
        have hname := Language.append_mem_mul (self_mem_exactly functionPrefix) hstem
        have hall := Language.append_mem_mul (Language.append_mem_mul hname (self_mem_exactly ['(']))
          ((isArgumentList_iff ha).mp h)
        simpa [callShape] using hall
      · cases h
  · intro h
    obtain ⟨front, hfront, arguments, harguments, rfl⟩ := Language.mem_mul.mp h
    obtain ⟨name, hname, opening, rfl, rfl⟩ := Language.mem_mul.mp hfront
    obtain ⟨functionPrefix, rfl, stem, hstem, rfl⟩ := Language.mem_mul.mp hname
    have ha : '\n' ∉ arguments := fun ha => hn (by simp [ha])
    simpa using isCallShape_append hstem ((isArgumentList_iff ha).mpr harguments)

theorem continues_iff {functionPrefix t : Text} {s : ReturnType.State} :
    continues functionPrefix s t = true ↔ ∃ front back s', front ++ back = t ∧
      front.foldlM ReturnType.step s = some s' ∧ ReturnType.mayEnd s' = true ∧
      isCallShape functionPrefix back = true := by
  constructor
  · intro h
    induction t generalizing s with
    | nil =>
      obtain ⟨hs, hcall⟩ := Bool.and_eq_true_iff.mp h
      exact ⟨[], [], s, rfl, rfl, hs, hcall⟩
    | cons c t ih =>
      rcases Bool.or_eq_true_iff.mp h with h | h
      · obtain ⟨hs, hcall⟩ := Bool.and_eq_true_iff.mp h
        exact ⟨[], c :: t, s, rfl, rfl, hs, hcall⟩
      · split at h
        · rename_i s₁ hc
          obtain ⟨front, back, s', rfl, hfront, hs', hcall⟩ := ih h
          refine ⟨c :: front, back, s', rfl, ?_, hs', hcall⟩
          rw [List.foldlM_cons, hc]
          exact hfront
        · cases h
  · rintro ⟨front, back, s', rfl, hfront, hs', hcall⟩
    exact continues_append hfront (continues_of_isCallShape hs' hcall)

/-- The first token of the line is `return`. -/
def StartsWithReturn (line : Text) : Prop :=
  ∃ white rest, line = white ++ (returnWord ++ rest) ∧ (∀ c ∈ white, isWhite c = true) ∧
    ∀ c ∈ rest.head?, isWhite c = true

theorem firstToken_eq_returnWord_iff {line : Text} :
    firstToken line = returnWord ↔ StartsWithReturn line := by
  constructor
  · intro h
    refine ⟨line.takeWhile isWhite, (trimStart line).dropWhile fun c => !isWhite c, ?_,
      List.all_eq_true.mp List.all_takeWhile, fun c hc => ?_⟩
    · rw [← h, firstToken, List.takeWhile_append_dropWhile, trimStart, List.takeWhile_append_dropWhile]
    · have hnot := List.head?_dropWhile_not (fun c => !isWhite c) (trimStart line)
      rw [Option.mem_def.mp hc] at hnot
      simpa using hnot
  · rintro ⟨white, rest, rfl, hwhite, hrest⟩
    have htrim : trimStart (white ++ (returnWord ++ rest)) = returnWord ++ rest := by
      rw [trimStart, List.dropWhile_append_of_pos hwhite]
      exact List.dropWhile_cons_of_neg (by decide)
    have hword : ∀ c ∈ returnWord, (!isWhite c) = true := List.all_eq_true.mp (by decide)
    rw [firstToken, htrim, List.takeWhile_append_of_pos hword]
    cases rest with
    | nil => simp
    | cons c rest =>
      have hc := hrest c rfl
      rw [List.takeWhile_cons_of_neg (by simp [hc]), List.append_nil]

/-- The declaration lines are exactly those of the grammar that do not start with `return`. -/
theorem isDeclaration_iff (functionPrefix : Text) {line : Text} (hn : '\n' ∉ line) :
    isDeclaration functionPrefix line = true ↔
      ¬ StartsWithReturn line ∧ line ∈ grammar functionPrefix := by
  have hgrammar : continues functionPrefix .start line = true ↔ line ∈ grammar functionPrefix := by
    constructor
    · intro h
      obtain ⟨front, back, s, rfl, hfront, hs, hcall⟩ := continues_iff.mp h
      have hback : '\n' ∉ back := fun hb => hn (by simp [hb])
      exact Language.append_mem_mul (ReturnType.mem_words_mul_separator.mpr ⟨s, hfront, hs⟩)
        ((isCallShape_iff hback).mp hcall)
    · intro h
      obtain ⟨front, hfront, back, hback, rfl⟩ := Language.mem_mul.mp h
      obtain ⟨s, hs, hend⟩ := ReturnType.mem_words_mul_separator.mp hfront
      have hn' : '\n' ∉ back := fun hb => hn (by simp [hb])
      exact continues_iff.mpr ⟨front, back, s, rfl, hs, hend, (isCallShape_iff hn').mpr hback⟩
  rw [isDeclaration, Bool.and_eq_true, hgrammar, bne_iff_ne, Ne, firstToken_eq_returnWord_iff]

/-- The prefix is also that of the words and of a call among the parameters, and the parameters end
twice. -/
theorem isDeclaration_iff_overlapping :
    let line := "ts_a ts_b *ts_c(int x); ts_d(int y); \r".toList
    '\n' ∉ line ∧ isDeclaration "ts_".toList line = true ∧
      ¬ StartsWithReturn line ∧ line ∈ grammar "ts_".toList :=
  ⟨by decide, by decide, (isDeclaration_iff "ts_".toList (by decide)).mp (by decide)⟩

end Declaration

end GrammarHeaders
