import GrammarHeaders.ModuleName
import GrammarHeaders.Proofs.Cutting
import Mathlib.Data.List.Induction

namespace GrammarHeaders

namespace Text

variable {c : Char} {t : Text}

theorem toLower_eq_or (c : Char) :
    c.toLower = c ∨ 65 ≤ c.toNat ∧ c.toNat ≤ 90 ∧ c.toLower.toNat = c.toNat + 32 := by
  unfold Char.toLower
  split
  · rename_i h
    have hlast : c.toNat ≤ 90 := h.2
    have hsum : c.toNat + 32 < UInt32.size := Nat.lt_of_le_of_lt (Nat.add_le_add_right hlast 32) (by decide)
    exact .inr ⟨h.1, hlast, (UInt32.toNat_add _ _).trans (Nat.mod_eq_of_lt hsum)⟩
  · exact .inl rfl

theorem eq_dash_of_toLower (h : c.toLower = '-') : c = '-' := by
  obtain hsame | ⟨hfirst, -, hmoved⟩ := toLower_eq_or c
  · rw [← hsame, h]
  · have hdash : c.toNat + 32 = 45 := by
      rw [← hmoved, h]
      rfl
    omega

theorem utf8Size_of_toNat_le (h : c.toNat ≤ 0x7f) : c.utf8Size = 1 := if_pos h

theorem utf8Size_toLower (c : Char) : c.toLower.utf8Size = c.utf8Size := by
  obtain hsame | ⟨-, hlast, hmoved⟩ := toLower_eq_or c
  · rw [hsame]
  · rw [utf8Size_of_toNat_le (c := c.toLower) (by omega), utf8Size_of_toNat_le (by omega)]

theorem size_map_toLower (t : Text) : size (t.map Char.toLower) = size t := by
  induction t with
  | nil => rfl
  | cons c t ih => rw [List.map_cons, size_cons, size_cons, ih, utf8Size_toLower]

theorem replaceAll_singleton (old new : Char) (t : Text) :
    replaceAll [old] [new] t = t.map fun c => if c = old then new else c := by
  induction t with
  | nil => rfl
  | cons c t ih =>
    rw [replaceAll] at ih
    rw [replaceAll, replaceFrom, List.map_cons]
    by_cases hc : c = old
    · simp [List.isPrefixOf, hc, ih]
    · simp [List.isPrefixOf, hc, Ne.symm hc, ih]

end Text

namespace ModuleName

variable {t m front base : Text} {marks : List Text} {n : Nat} {dir name : String}

def checkoutMark : Text := "-src".toList

/-- The text is the mark of checkouts, with its letters in any case of ASCII. -/
def IsMark (t : Text) : Prop := t.map Char.toLower = checkoutMark

instance : DecidablePred IsMark := fun t => inferInstanceAs (Decidable (t.map Char.toLower = checkoutMark))

theorem isMark_iff : IsMark m ↔
    ∃ s r c, m = ['-', s, r, c] ∧ s.toLower = 's' ∧ r.toLower = 'r' ∧ c.toLower = 'c' := by
  constructor
  · intro h
    obtain ⟨dash, rest, rfl, hdash, h⟩ := List.map_eq_cons_iff.mp h
    obtain ⟨s, rest, rfl, hs, h⟩ := List.map_eq_cons_iff.mp h
    obtain ⟨r, rest, rfl, hr, h⟩ := List.map_eq_cons_iff.mp h
    obtain ⟨c, rfl, hc⟩ := List.map_eq_singleton_iff.mp h
    exact ⟨s, r, c, by rw [Text.eq_dash_of_toLower hdash], hs, hr, hc⟩
  · rintro ⟨s, r, c, rfl, hs, hr, hc⟩
    simp only [IsMark, List.map_cons, List.map_nil, hs, hr, hc]
    decide

theorem IsMark.size_eq (h : IsMark m) : Text.size m = Text.size checkoutMark := by
  rw [← Text.size_map_toLower, h]

theorem IsMark.dash_mem (h : IsMark m) : '-' ∈ m := by
  obtain ⟨s, r, c, rfl, -⟩ := isMark_iff.mp h
  exact List.mem_cons_self

/-- No mark is at the end of the text. -/
def IsBare (t : Text) : Prop := ∀ m, IsMark m → ¬ m <:+ t

theorem IsBare.of_dash_not_mem (h : '-' ∉ t) : IsBare t :=
  fun _ hm hsuffix => h (hsuffix.subset hm.dash_mem)

theorem isBare_or_exists_mark (t : Text) : IsBare t ∨ ∃ front m, IsMark m ∧ t = front ++ m := by
  by_cases h : IsBare t
  · exact .inl h
  · obtain ⟨m, hm, front, rfl⟩ : ∃ m, IsMark m ∧ m <:+ t := by simpa [IsBare] using h
    exact .inr ⟨front, m, hm, rfl⟩

/-- What a turn of the loop comes to: the loop is left, or goes on with what is before the mark. -/
inductive Turn where
  | leave
  | again (front : Text)
  deriving DecidableEq

/-- A turn of the loop. The last bytes are a mark only if they can be cut off, and what is before a mark is
then cut off by the same offset. There is no turn where that cut would be inside a character. -/
def turn? (t : Text) : Option Turn :=
  let split := Text.size t - Text.size checkoutMark
  if Text.size t < Text.size checkoutMark then some .leave
  else match Text.cutAt? split t with
    | none => some .leave
    | some (_, tail) =>
      if IsMark tail then (Text.cutAt? split t).map fun (front, _) => .again front else some .leave

theorem turn?_append (hm : IsMark m) (front : Text) : turn? (front ++ m) = some (.again front) := by
  have hsize : Text.size (front ++ m) = Text.size front + Text.size checkoutMark := by
    rw [Text.size_append, hm.size_eq]
  have hsplit : Text.size (front ++ m) - Text.size checkoutMark = Text.size front := by omega
  rw [turn?, if_neg (by omega), hsplit, Text.cutAt?_append]
  exact if_pos hm

theorem turn?_of_isBare (h : IsBare t) : turn? t = some .leave := by
  rw [turn?]
  split
  · rfl
  · cases hcut : Text.cutAt? (Text.size t - Text.size checkoutMark) t with
    | none => rfl
    | some parts =>
      -- whatever can be cut off is at the end of the text
      obtain ⟨front, tail⟩ := parts
      obtain ⟨rfl, -⟩ := Text.cutAt?_eq_some_iff.mp hcut
      exact if_neg fun hm => h tail hm (List.suffix_append front tail)

theorem turn?_eq_leave_iff : turn? t = some .leave ↔ IsBare t := by
  refine ⟨fun h => ?_, turn?_of_isBare⟩
  obtain hbare | ⟨front, m, hm, rfl⟩ := isBare_or_exists_mark t
  · exact hbare
  · rw [turn?_append hm] at h
    cases h

example : turn? "€rc".toList = some .leave := by decide

instance : DecidablePred IsBare := fun _ => decidable_of_iff _ turn?_eq_leave_iff

/-- The loop is left, after some turns, with the base. -/
inductive Strips : Text → Nat → Text → Prop
  | leave {t : Text} : turn? t = some .leave → Strips t 0 t
  | again {t front base : Text} {n : Nat} :
      turn? t = some (.again front) → Strips front n base → Strips t (n + 1) base

theorem Strips.unique {k : Nat} {rest : Text} (h : Strips t n base) (h' : Strips t k rest) :
    k = n ∧ rest = base := by
  induction h generalizing k with
  | leave hleave =>
    cases h' with
    | leave => exact ⟨rfl, rfl⟩
    | again hagain =>
      rw [hleave] at hagain
      cases hagain
  | again hagain _ ih =>
    cases h' with
    | leave hleave =>
      rw [hagain] at hleave
      cases hleave
    | again hagain' hrest =>
      rw [hagain] at hagain'
      cases hagain'
      obtain ⟨rfl, rfl⟩ := ih hrest
      exact ⟨rfl, rfl⟩

/-- The text is the base with marks behind it, and there are no more marks at the end of the base. -/
structure Divided (t base : Text) (marks : List Text) : Prop where
  whole : t = base ++ marks.flatten
  isMark : ∀ m ∈ marks, IsMark m
  bare : IsBare base

theorem IsBare.divided (h : IsBare t) : Divided t t [] := ⟨by simp, by simp, h⟩

theorem Divided.append (h : Divided t base marks) (hm : IsMark m) : Divided (t ++ m) base (marks ++ [m]) where
  whole := by rw [h.whole, List.flatten_append, List.flatten_singleton, List.append_assoc]
  isMark := by simpa [or_imp, forall_and] using And.intro h.isMark hm
  bare := h.bare

theorem exists_divided (t : Text) : ∃ base marks, Divided t base marks := by
  -- the last mark leaves a shorter text
  induction hn : t.length using Nat.strongRecOn generalizing t with
  | _ n ih =>
    obtain hbare | ⟨front, m, hm, rfl⟩ := isBare_or_exists_mark t
    · exact ⟨t, [], hbare.divided⟩
    · have hshorter : front.length < n := by
        have hpos := List.length_pos_of_mem hm.dash_mem
        rw [← hn, List.length_append]
        omega
      obtain ⟨base, marks, h⟩ := ih front.length hshorter front rfl
      exact ⟨base, marks ++ [m], h.append hm⟩

theorem Divided.induction {P : Text → List Text → Prop} (h : Divided t base marks) (hbase : P base [])
    (hmark : ∀ t marks m, IsMark m → P t marks → P (t ++ m) (marks ++ [m])) : P t marks := by
  obtain ⟨rfl, hmarks, -⟩ := h
  induction marks using List.reverseRecOn with
  | nil => simpa using hbase
  | append_singleton marks m ih =>
    rw [List.flatten_append, List.flatten_singleton, ← List.append_assoc]
    exact hmark _ _ _ (hmarks m (by simp)) (ih fun x hx => hmarks x (by simp [hx]))

theorem Divided.strips (h : Divided t base marks) : Strips t marks.length base := by
  refine h.induction (P := fun t marks => Strips t marks.length base) (.leave (turn?_of_isBare h.bare)) ?_
  intro t marks m hm hrest
  rw [List.length_append]
  exact .again (turn?_append hm t) hrest

theorem dropCheckoutMark_reverse_append (hm : IsMark m) (t : Text) :
    dropCheckoutMark (t ++ m).reverse = dropCheckoutMark t.reverse := by
  obtain ⟨s, r, c, rfl, hs, hr, hc⟩ := isMark_iff.mp hm
  rw [List.reverse_append]
  exact if_pos ⟨hc, hr, hs⟩

theorem dropCheckoutMark_reverse_of_isBare (h : IsBare t) : dropCheckoutMark t.reverse = t.reverse := by
  unfold dropCheckoutMark
  split
  · rename_i c r s rest hrest
    split
    · rename_i hmark
      have ht : t = rest.reverse ++ ['-', s, r, c] := by
        rw [← List.reverse_reverse t, hrest]
        simp
      have hm : IsMark ['-', s, r, c] := isMark_iff.mpr ⟨s, r, c, rfl, hmark.2.2, hmark.2.1, hmark.1⟩
      exact absurd (ht ▸ List.suffix_append _ _) (h _ hm)
    · exact hrest.symm
  · rfl

theorem Divided.dropCheckoutMark_reverse (h : Divided t base marks) :
    dropCheckoutMark t.reverse = base.reverse := by
  refine h.induction (P := fun t _ => dropCheckoutMark t.reverse = base.reverse)
    (dropCheckoutMark_reverse_of_isBare h.bare) ?_
  intro t _ m hm hrest
  rw [dropCheckoutMark_reverse_append hm, hrest]

theorem Divided.ofDirectory (h : Divided dir.toList base marks) :
    ofDirectory dir = replaceString (String.ofList base) "-" "_" := by
  rw [ModuleName.ofDirectory, h.dropCheckoutMark_reverse, List.reverse_reverse]
  simp only [replaceString, String.toList_ofList]
  exact congrArg String.ofList (Text.replaceAll_singleton '-' '_' base).symm

theorem Divided.base_unique {rest : Text} {marks' : List Text} (h : Divided t base marks)
    (h' : Divided t rest marks') : rest = base :=
  (h.strips.unique h'.strips).2

theorem dash_not_mem_ofDirectory (dir : String) : '-' ∉ (ofDirectory dir).toList := by
  rw [ofDirectory, String.toList_ofList, List.mem_map]
  rintro ⟨c, -, hc⟩
  split at hc
  · cases hc
  · contradiction

theorem ofDirectory_of_dash_not_mem (h : '-' ∉ name.toList) : ofDirectory name = name := by
  have hsame : ∀ c ∈ name.toList, (if c = '-' then '_' else c) = c := by
    intro c hc
    rw [if_neg]
    rintro rfl
    exact h hc
  rw [ofDirectory, dropCheckoutMark_reverse_of_isBare (.of_dash_not_mem h), List.reverse_reverse,
    List.map_congr_left hsame, List.map_id', String.ofList_toList]

theorem ofDirectory_append (hm : IsMark m) (dir : String) :
    ofDirectory (dir ++ String.ofList m) = ofDirectory dir := by
  rw [ofDirectory, String.toList_append, String.toList_ofList, dropCheckoutMark_reverse_append hm]
  rfl

theorem isIdentifierFragment_append {front : String} (hfront : isIdentifierFragment front = true)
    (h : isIdentifierFragment name = true) : isIdentifierFragment (front ++ name) = true := by
  simp only [isIdentifierFragment, Bool.and_eq_true, Bool.not_eq_true', List.isEmpty_eq_false_iff,
    String.toList_append, List.all_append] at hfront h ⊢
  exact ⟨List.append_ne_nil_of_left_ne_nil hfront.1 _, hfront.2, h.2⟩

theorem isIdentifierFragment_factoryName (h : isIdentifierFragment name = true) :
    isIdentifierFragment (factoryName name) = true ∧
      grammarFunctionPrefix.toList <+: (factoryName name).toList := by
  unfold factoryName
  split
  · rename_i hprefix
    exact ⟨h, List.isPrefixOf_iff_prefix.mp hprefix⟩
  · rw [String.toList_append]
    exact ⟨isIdentifierFragment_append (by decide) h, List.prefix_append _ _⟩

/-- A directory's name is divided in one way into a base and the marks behind it. The loop takes a turn for
each mark and is left with the base, and the module's name is the base with underscores for dashes. So there
is no dash in it, a further mark does not change it, it is the name that it gives itself, and if it can
stand inside an identifier then so can its factory. -/
theorem ofDirectory_canonical (dir : String) :
    (∃ base marks, Divided dir.toList base marks ∧
      (∀ rest marks', Divided dir.toList rest marks' → rest = base) ∧
      (∀ n rest, Strips dir.toList n rest ↔ n = marks.length ∧ rest = base) ∧
      ofDirectory dir = replaceString (String.ofList base) "-" "_") ∧
    '-' ∉ (ofDirectory dir).toList ∧
    (∀ m, IsMark m → ofDirectory (dir ++ String.ofList m) = ofDirectory dir) ∧
    ofDirectory (ofDirectory dir) = ofDirectory dir ∧
    (isIdentifierFragment (ofDirectory dir) = true →
      isIdentifierFragment (factoryName (ofDirectory dir)) = true ∧
        "tree_sitter_".toList <+: (factoryName (ofDirectory dir)).toList) := by
  obtain ⟨base, marks, h⟩ := exists_divided dir.toList
  have hloop : ∀ n rest, Strips dir.toList n rest ↔ n = marks.length ∧ rest = base := by
    intro n rest
    refine ⟨h.strips.unique, ?_⟩
    rintro ⟨rfl, rfl⟩
    exact h.strips
  have hdash := dash_not_mem_ofDirectory dir
  exact ⟨⟨base, marks, h, fun _ _ => h.base_unique, hloop, h.ofDirectory⟩, hdash,
    fun m hm => ofDirectory_append hm dir, ofDirectory_of_dash_not_mem hdash, isIdentifierFragment_factoryName⟩

/-- From the first name two marks are taken off, and the last four bytes of what is left begin inside a
character. The second one gives a name that can stand inside an identifier. -/
theorem ofDirectory_canonical_divided :
    Divided "€rc-SRC-sRc".toList "€rc".toList ["-SRC".toList, "-sRc".toList] ∧
    Strips "€rc-SRC-sRc".toList 2 "€rc".toList ∧
    (∀ rest marks, Divided "€rc-SRC-sRc".toList rest marks → rest = "€rc".toList) ∧
    IsMark "-Src".toList ∧
    ofDirectory ("€rc-SRC-sRc" ++ String.ofList "-Src".toList) = ofDirectory "€rc-SRC-sRc" ∧
    isIdentifierFragment (ofDirectory "c-sharp-src") = true ∧
    isIdentifierFragment (factoryName (ofDirectory "c-sharp-src")) = true := by
  have hdivided : Divided "€rc-SRC-sRc".toList "€rc".toList ["-SRC".toList, "-sRc".toList] :=
    ⟨by decide, by decide, by decide⟩
  have hstrips : Strips "€rc-SRC-sRc".toList 2 "€rc".toList := hdivided.strips
  obtain ⟨⟨base, marks, -, hunique, hloop, -⟩, -, hmark, -⟩ := ofDirectory_canonical "€rc-SRC-sRc"
  obtain ⟨-, rfl⟩ := (hloop _ _).mp hstrips
  have hm : IsMark "-Src".toList := by decide
  have hfragment : isIdentifierFragment (ofDirectory "c-sharp-src") = true := by decide
  obtain ⟨-, -, -, -, hfactory⟩ := ofDirectory_canonical "c-sharp-src"
  exact ⟨hdivided, hstrips, hunique, hm, hmark _ hm, hfragment, (hfactory hfragment).1⟩

end ModuleName

end GrammarHeaders
