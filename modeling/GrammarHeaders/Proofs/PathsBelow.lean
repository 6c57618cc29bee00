import GrammarHeaders.Proofs.RootStage

namespace GrammarHeaders

namespace Path

variable {p : Path} {first n a b : String} {rest : List String}

/-- What the first piece of a path stands for. -/
def leadComponent (first : String) : Component :=
  if first = "" then .root else if first = "." then .here else innerComponent first

theorem components_of_pieces (hp : p.pieces = first :: rest) (hne : first ≠ "" ∨ rest ≠ []) :
    p.components = leadComponent first :: innerComponents rest := by
  rw [components, hp]
  split
  · rename_i he
    cases he
  · rename_i he
    obtain ⟨rfl, rfl⟩ := List.cons.inj he
    exact absurd rfl (hne.resolve_left fun h => h rfl)
  · rename_i he
    obtain ⟨rfl, rfl⟩ := List.cons.inj he
    rfl
  · rename_i he
    obtain ⟨rfl, rfl⟩ := List.cons.inj he
    rfl
  · rename_i he hroot hhere hpieces
    obtain ⟨rfl, rfl⟩ := List.cons.inj hpieces
    rw [leadComponent, if_neg (fun h => hroot h), if_neg (fun h => hhere h)]

theorem innerComponents_append (xs ys : List String) :
    innerComponents (xs ++ ys) = innerComponents xs ++ innerComponents ys := by
  simp [innerComponents]

theorem innerComponents_of_idle {idle : List String} (h : ∀ piece ∈ idle, isIdle piece = true) :
    innerComponents idle = [] := by
  have hnone : (idle.filter fun piece => !isIdle piece) = [] := by simpa using h
  rw [innerComponents, hnone, List.map_nil]

theorem isIdle_eq_false (hn : IsName n) : isIdle n = false := by
  simp [isIdle, hn.ne_empty, hn.ne_here]

theorem innerComponents_name (hn : IsName n) : innerComponents [n] = [.name n] := by
  simp [innerComponents, isIdle_eq_false hn, innerComponent, hn.ne_up]

theorem exists_pieces (hp : p.text ≠ "") (hn : IsName n) :
    ∃ first front idle, p.pieces = first :: (front ++ idle) ∧
      (∀ piece ∈ idle, isIdle piece = true) ∧ (p / n).pieces = first :: (front ++ [n]) := by
  obtain ⟨text⟩ := p
  rw [div_eq hn]
  split
  · rename_i h
    obtain ⟨b, rfl⟩ := exists_eq_append_separator (h.resolve_left hp)
    have hb : (⟨b ++ "/"⟩ : Path).pieces = (⟨b⟩ : Path).pieces ++ [""] := by
      have he : b ++ "/" = b ++ "/" ++ "" := by simp
      rw [he, pieces_append, pieces_of_not_mem (by decide : '/' ∉ "".toList)]
    obtain ⟨first, front, hfront⟩ := List.exists_cons_of_ne_nil (pieces_ne_nil ⟨b⟩)
    refine ⟨first, front, [""], by rw [hb, hfront, List.cons_append], by decide, ?_⟩
    rw [← List.cons_append, ← hfront, ← pieces_of_not_mem hn.no_separator]
    exact pieces_append b n
  · obtain ⟨first, front, hfront⟩ := List.exists_cons_of_ne_nil (pieces_ne_nil ⟨text⟩)
    refine ⟨first, front, [], by rw [hfront, List.append_nil], nofun, ?_⟩
    rw [← List.cons_append, ← hfront, ← pieces_of_not_mem hn.no_separator]
    exact pieces_append text n

theorem text_eq_empty (hp : p.pieces = [""]) : p.text = "" := by
  obtain ⟨text⟩ := p
  cases ht : text.toList with
  | nil => exact String.toList_eq_nil_iff.mp ht
  | cons c t =>
    obtain ⟨piece, rest, he⟩ : ∃ piece rest, Text.splitOn '/' t = piece :: rest :=
      List.exists_cons_of_ne_nil (by simp [Text.splitOn_eq])
    by_cases hc : c = '/' <;> simp [pieces, ht, Text.splitOn, hc, he, ← String.toList_inj] at hp

theorem text_div_ne_empty (hn : IsName n) (p : Path) : (p / n).text ≠ "" := by
  rw [div_eq hn]
  split <;> simp [hn.ne_empty]

theorem components_div (hp : p.text ≠ "") (hn : IsName n) : (p / n).components = p.components ++ [.name n] := by
  obtain ⟨first, front, idle, hpieces, hidle, hlonger⟩ := exists_pieces hp hn
  have hroot : first ≠ "" ∨ front ++ idle ≠ [] := by
    by_contra h
    simp only [not_or, ne_eq, not_not] at h
    rw [h.1, h.2] at hpieces
    exact hp (text_eq_empty hpieces)
  rw [components_of_pieces hlonger (.inr (by simp)), components_of_pieces hpieces hroot,
    innerComponents_append, innerComponents_append, innerComponents_of_idle hidle, innerComponents_name hn,
    List.append_nil, List.cons_append]

theorem getLast?_div (hn : IsName n) (p : Path) : (p / n).text.toList.getLast? ≠ some '/' := by
  have hne : n.toList ≠ [] := by simpa using hn.ne_empty
  have hlast : (p / n).text.toList.getLast? = n.toList.getLast? := by
    rw [div_eq hn]
    split <;> simp [List.getLast?_eq_some_getLast hne, List.getLast?_cons_of_ne_nil hne]
  rw [hlast]
  exact fun h => hn.no_separator (List.mem_of_getLast? h)

theorem div_div (ha : IsName a) (hb : IsName b) (p : Path) : p / a / b = ⟨(p / a).text ++ "/" ++ b⟩ := by
  rw [div_eq hb, if_neg]
  exact not_or.mpr ⟨fun h => div_not_trivial ha p (.inl h), getLast?_div ha p⟩

theorem dropComponents_zero (xs : List String) : dropComponents 0 xs = xs.dropWhile isIdle := by
  cases xs <;> rfl

theorem dropComponents_append (xs ys : List String) :
    dropComponents (innerComponents xs).length (xs ++ ys) = ys.dropWhile isIdle := by
  induction xs with
  | nil => exact dropComponents_zero ys
  | cons x xs ih =>
    by_cases hx : isIdle x
    · have hlen : innerComponents (x :: xs) = innerComponents xs := by simp [innerComponents, hx]
      rw [hlen, List.cons_append]
      cases hk : (innerComponents xs).length with
      | zero =>
        rw [hk, dropComponents_zero] at ih
        rw [dropComponents_zero, List.dropWhile_cons_of_pos hx, ih]
      | succ k =>
        rw [dropComponents, if_pos hx, ← hk]
        exact ih
    · have hlen : (innerComponents (x :: xs)).length = (innerComponents xs).length + 1 := by
        simp [innerComponents, hx]
      rw [hlen, List.cons_append, dropComponents, if_neg hx]
      exact ih

theorem dropIdleEnd_concat (xs : List String) (h : isIdle n = false) : dropIdleEnd (xs ++ [n]) = xs ++ [n] := by
  simp [dropIdleEnd, h]

theorem join_of_name (hn : IsName n) {q : Path} (hq : q.isAbsolute = false) :
    (⟨n⟩ : Path).join q = ⟨n ++ "/" ++ q.text⟩ := by
  have hlast : ¬ (n = "" ∨ n.toList.getLast? = some '/') :=
    not_or.mpr ⟨hn.ne_empty, fun h => hn.no_separator (List.mem_of_getLast? h)⟩
  simp only [join, hq, Bool.or_eq_true, beq_iff_eq, if_neg hlast, Bool.false_eq_true, if_false]

theorem below?_div_div (hp : p.fileName? ≠ none) (ha : IsName a) (hb : IsName b) :
    (p / a / b).below? p = some ⟨a ++ "/" ++ b⟩ := by
  have hne : p.text ≠ "" := by
    rintro hempty
    obtain ⟨text⟩ := p
    obtain rfl : text = "" := hempty
    exact hp (by decide)
  obtain ⟨first, front, idle, hpieces, hidle, hlonger⟩ := exists_pieces hne ha
  have hbelow : (p / a / b).pieces = first :: (front ++ [a, b]) := by
    rw [div_div ha hb, pieces_append, hlonger, pieces_of_not_mem hb.no_separator]
    simp
  have hbase : p.components = leadComponent first :: innerComponents front := by
    have hroot : first ≠ "" ∨ front ++ idle ≠ [] := by
      by_contra h
      simp only [not_or, ne_eq, not_not] at h
      rw [h.1, h.2] at hpieces
      exact hne (text_eq_empty hpieces)
    rw [components_of_pieces hpieces hroot, innerComponents_append, innerComponents_of_idle hidle,
      List.append_nil]
  have hcomponents : (p / a / b).components = p.components ++ [.name a, .name b] := by
    rw [components_div (text_div_ne_empty ha p) hb, components_div hne ha, List.append_assoc]
    rfl
  have hprefix : p.components.isPrefixOf (p / a / b).components = true :=
    List.isPrefixOf_iff_prefix.mpr (hcomponents ▸ List.prefix_append _ _)
  rw [below?, if_pos hprefix, hbase, hbelow, List.length_cons]
  dsimp only
  rw [dropComponents_append, List.dropWhile_cons_of_neg (by simp [isIdle_eq_false ha]),
    ← List.singleton_append (l := [b]), dropIdleEnd_concat _ (isIdle_eq_false hb)]
  simp [ofPieces]

end Path

end GrammarHeaders
