import GrammarHeaders.Text.Basic

namespace GrammarHeaders.Text

theorem moveBytes_append (front a b : Text) :
    moveBytes front (size a) (a ++ b) = some (front.reverse ++ a, b) := by
  induction a generalizing front with
  | nil => cases b <;> simp [moveBytes]
  | cons c a ih =>
    obtain ⟨n, hn⟩ := Nat.exists_eq_succ_of_ne_zero (Nat.ne_of_gt c.utf8Size_pos)
    have hs : size (c :: a) = (n + size a) + 1 := by rw [size_cons, hn]; omega
    have hd : n + size a + 1 - c.utf8Size = size a := by omega
    rw [hs, List.cons_append, moveBytes, if_pos (by omega), hd, ih]
    simp

theorem cutAt?_append (a b : Text) : cutAt? (size a) (a ++ b) = some (a, b) := by
  simpa [cutAt?] using moveBytes_append [] a b

theorem moveBytes_eq_some {front t a b : Text} {n : Nat} (h : moveBytes front n t = some (a, b)) :
    ∃ c, a = front.reverse ++ c ∧ t = c ++ b ∧ size c = n := by
  fun_induction moveBytes front n t with
  | case1 front t =>
    cases h
    exact ⟨[], by simp, rfl, rfl⟩
  | case2 => cases h
  | case3 front n c t hc ih =>
    obtain ⟨d, rfl, rfl, hd⟩ := ih h
    refine ⟨c :: d, by simp, rfl, ?_⟩
    rw [size_cons, hd]
    omega
  | case4 => cases h

theorem cutAt?_eq_some_iff {t a b : Text} {n : Nat} :
    cutAt? n t = some (a, b) ↔ t = a ++ b ∧ size a = n := by
  constructor
  · intro h
    obtain ⟨c, rfl, rfl, hc⟩ := moveBytes_eq_some h
    exact ⟨rfl, hc⟩
  · rintro ⟨rfl, rfl⟩
    exact cutAt?_append a b

theorem slice?_append (a b c : Text) :
    slice? (a ++ (b ++ c)) ⟨size a, size a + size b⟩ = some b := by
  have h : cutAt? (size a + size b) (a ++ (b ++ c)) = some (a ++ b, c) := by
    simpa using cutAt?_append (a ++ b) c
  simp [slice?, h, cutAt?_append]

variable {α : Type} {found : Text → Option α}

/-- The search succeeds with `x` on `rest`, and on no longer rest of the text. -/
structure Leftmost (found : Text → Option α) (t front rest : Text) (x : α) : Prop where
  whole : t = front ++ rest
  hit : found rest = some x
  first : ∀ f r, t = f ++ r → f.length < front.length → found r = none

theorem leftmost?_eq_some {pos p : Nat} {t : Text} {x : α}
    (h : leftmost? found pos t = some (p, x)) :
    ∃ front rest, Leftmost found t front rest x ∧ p = pos + size front := by
  induction t generalizing pos with
  | nil =>
    simp only [leftmost?, Option.map_eq_some_iff, Prod.mk.injEq] at h
    obtain ⟨y, hy, rfl, rfl⟩ := h
    exact ⟨[], [], ⟨rfl, hy, by simp⟩, by simp⟩
  | cons c t ih =>
    rw [leftmost?] at h
    split at h
    · rename_i y hy
      simp only [Option.some.injEq, Prod.mk.injEq] at h
      obtain ⟨rfl, rfl⟩ := h
      exact ⟨[], c :: t, ⟨rfl, hy, by simp⟩, by simp⟩
    · rename_i hn
      obtain ⟨front, rest, ⟨rfl, hr, hf⟩, rfl⟩ := ih h
      refine ⟨c :: front, rest, ⟨rfl, hr, ?_⟩, by simp [Nat.add_assoc]⟩
      intro f r hs hl
      cases f with
      | nil =>
        rw [List.nil_append] at hs
        rw [← hs]
        exact hn
      | cons d f =>
        simp only [List.cons_append, List.cons.injEq] at hs
        exact hf f r hs.2 (by simpa using hl)

end GrammarHeaders.Text
