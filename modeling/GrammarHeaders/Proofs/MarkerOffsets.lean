import GrammarHeaders.Proofs.ExtractionFaults
import Mathlib.Order.Bounds.Basic

namespace GrammarHeaders

namespace Text

variable {a b f g t : Text} {n : Nat}

/-- The offset is the edge of a character in the UTF-8 form of the text. -/
def IsEdge (t : Text) (n : Nat) : Prop := (⟨n⟩ : String.Pos.Raw).IsValid (String.ofList t)

theorem utf8ByteSize_ofList (t : Text) : (String.ofList t).utf8ByteSize = size t := by
  induction t with
  | nil => rfl
  | cons c t ih =>
    have hc : String.ofList (c :: t) = String.singleton c ++ String.ofList t := by
      rw [← String.toList_inj]
      simp
    rw [hc, String.utf8ByteSize_append, String.utf8ByteSize_singleton, ih, size_cons]

theorem isEdge_iff : t.IsEdge n ↔ ∃ a b, t = a ++ b ∧ size a = n := by
  rw [IsEdge, String.Pos.Raw.isValid_iff_exists_append]
  constructor
  · rintro ⟨s, u, hs, hn⟩
    refine ⟨s.toList, u.toList, ?_, ?_⟩
    · rw [← String.toList_append, ← hs, String.toList_ofList]
    · rw [← utf8ByteSize_ofList, String.ofList_toList]
      exact (congrArg String.Pos.Raw.byteIdx hn).symm
  · rintro ⟨a, b, rfl, rfl⟩
    refine ⟨String.ofList a, String.ofList b, String.ofList_append, ?_⟩
    rw [← utf8ByteSize_ofList]
    rfl

theorem eq_nil_of_size (h : size t = 0) : t = [] := by
  cases t with
  | nil => rfl
  | cons c t =>
    have hc := c.utf8Size_pos
    rw [size_cons] at h
    omega

theorem exists_between (h : a ++ b = f ++ g) (hs : size a ≤ size f) : ∃ c, f = a ++ c ∧ b = c ++ g := by
  obtain ⟨c, hf, hb⟩ | ⟨c, ha, hg⟩ := List.append_eq_append_iff.mp h
  · exact ⟨c, hf, hb⟩
  · have hc : c = [] := eq_nil_of_size (by rw [ha, size_append] at hs; omega)
    subst hc
    exact ⟨[], by simpa using ha.symm, by simpa using hg.symm⟩

end Text

namespace Marker

variable {m : Marker} {t a b front rest : Text} {x y : Match} {p start : Nat} {l k : Located}

/-- The match stands at the offset. -/
def OccursAt (m : Marker) (t : Text) (p : Nat) (x : Match) : Prop :=
  m.Shape x ∧ ∃ front rest, t = front ++ (x.matched ++ rest) ∧ Text.size front = p

theorem occursAt_append_iff :
    m.OccursAt (a ++ b) p x ∧ Text.size a ≤ p ↔ ∃ q, p = Text.size a + q ∧ m.OccursAt b q x := by
  constructor
  · rintro ⟨⟨hx, front, rest, ht, rfl⟩, hle⟩
    obtain ⟨c, rfl, rfl⟩ := Text.exists_between ht hle
    exact ⟨Text.size c, Text.size_append a c, hx, c, rest, rfl, rfl⟩
  · rintro ⟨q, rfl, hx, front, rest, rfl, rfl⟩
    exact ⟨⟨hx, a ++ front, rest, by rw [List.append_assoc], Text.size_append a front⟩, Nat.le_add_right _ _⟩

theorem OccursAt.unique (hx : m.OccursAt t p x) (hy : m.OccursAt t p y) : x = y := by
  obtain ⟨hx, f, r, rfl, rfl⟩ := hx
  obtain ⟨hy, g, s, ht, hs⟩ := hy
  obtain ⟨c, rfl, hc⟩ := Text.exists_between ht hs.ge
  obtain rfl : c = [] := Text.eq_nil_of_size (by rw [Text.size_append] at hs; omega)
  exact (hx.unique hy hc).1

theorem FirstMatch.occursAt (h : m.FirstMatch t front x rest) : m.OccursAt t (Text.size front) x :=
  ⟨h.shape, front, rest, h.whole, rfl⟩

theorem FirstMatch.size_le (h : m.FirstMatch t front x rest) (hy : m.OccursAt t p y) :
    Text.size front ≤ p := by
  obtain ⟨hy, f, r, ht, rfl⟩ := hy
  by_contra hlt
  obtain ⟨c, hf, -⟩ := Text.exists_between (ht.symm.trans h.whole) (Nat.le_of_not_le hlt)
  -- the earlier offset would be that of a shorter part
  have hle := h.first f y r hy ht
  obtain rfl : c = [] := List.eq_nil_of_length_eq_zero (by rw [hf, List.length_append] at hle; omega)
  rw [hf, List.append_nil] at hlt
  exact hlt (Nat.le_refl _)

theorem absent_iff : m.Absent b ↔ ∀ p x, m.OccursAt (a ++ b) p x → p < Text.size a := by
  constructor
  · intro h p x hx
    by_contra hlt
    obtain ⟨q, -, hx, f, r, hb, -⟩ := occursAt_append_iff.mp ⟨hx, Nat.le_of_not_lt hlt⟩
    exact h f x r hx hb
  · intro h f x r hx hb
    obtain ⟨hx, hle⟩ := occursAt_append_iff.mpr ⟨Text.size f, rfl, hx, f, r, hb, rfl⟩
    exact absurd (h _ x hx) (Nat.not_lt.mpr hle)

/-- What is located is the first occurrence at or behind an offset. A guard stands for all that comes
after it and the other markers for themselves, and the name in a signature is as long as word characters
go. -/
structure IsFirstFrom (m : Marker) (t : Text) (start : Nat) (l : Located) : Prop where
  least : IsLeast {p | start ≤ p ∧ ∃ x, m.OccursAt t p x} l.span.start
  occurs : m.OccursAt t l.span.start ⟨l.matched, l.capture⟩
  stop : l.span.stop = if m = guard then Text.size t else l.span.start + Text.size l.matched
  name : m = signature → ∃ front after,
    t = front ++ (signatureOpening ++ (grammarFunctionPrefix.toList ++ after)) ∧
      Text.size front = l.span.start ∧
      l.capture = some (grammarFunctionPrefix.toList ++ after.takeWhile Text.isWord) ∧
      signatureClosing <+: after.dropWhile Text.isWord

theorem start_spanAt (m : Marker) (t : Text) (p : Nat) (x : Match) : (m.spanAt t p x).start = p := by
  cases m <;> rfl

theorem stop_spanAt (m : Marker) (t : Text) (p : Nat) (x : Match) :
    (m.spanAt t p x).stop = if m = guard then Text.size t else p + Text.size x.matched := by
  cases m <;> rfl

theorem spanAt_append (m : Marker) (a b : Text) (p : Nat) (x : Match) :
    m.spanAt (a ++ b) (Text.size a + p) x = (m.spanAt b p x).shift (Text.size a) := by
  cases m <;> simp [spanAt, Span.shift, Nat.add_comm, Nat.add_left_comm, Nat.add_assoc]

theorem FirstMatch.isFirstFrom (a : Text) (h : m.FirstMatch b front x rest) :
    m.IsFirstFrom (a ++ b) (Text.size a)
      ⟨m.spanAt (a ++ b) (Text.size a + Text.size front) x, x.capture, x.matched⟩ where
  least := by
    rw [start_spanAt]
    refine ⟨⟨Nat.le_add_right _ _, x, (occursAt_append_iff.mpr ⟨_, rfl, h.occursAt⟩).1⟩, ?_⟩
    rintro p ⟨hle, y, hy⟩
    obtain ⟨q, rfl, hq⟩ := occursAt_append_iff.mp ⟨hy, hle⟩
    exact Nat.add_le_add_left (h.size_le hq) _
  occurs := by
    rw [start_spanAt]
    exact (occursAt_append_iff.mpr ⟨_, rfl, h.occursAt⟩).1
  stop := by
    rw [stop_spanAt, start_spanAt]
  name := by
    rintro rfl
    obtain ⟨whole, shape, -⟩ := h
    cases shape with
    | @signature stem _ hword =>
      have hdrop : (stem ++ (signatureClosing ++ rest)).dropWhile Text.isWord = signatureClosing ++ rest := by
        rw [List.dropWhile_append_of_pos hword]
        rfl
      refine ⟨a ++ front, stem ++ (signatureClosing ++ rest), by simp [whole], ?_, ?_, ?_⟩
      · rw [start_spanAt, Text.size_append]
      · rw [takeWhile_stem hword]
      · rw [hdrop]
        exact List.prefix_append _ _

theorem IsFirstFrom.unique (hl : m.IsFirstFrom t start l) (hk : m.IsFirstFrom t start k) : l = k := by
  have hstart : l.span.start = k.span.start := hl.least.unique hk.least
  have hmatch := hl.occurs.unique (hstart ▸ hk.occurs)
  obtain ⟨⟨_, _⟩, _, _⟩ := l
  obtain ⟨⟨_, _⟩, _, _⟩ := k
  obtain ⟨rfl, rfl⟩ := Match.mk.inj hmatch
  obtain rfl := hstart
  obtain rfl := hl.stop.trans hk.stop.symm
  rfl

theorem locateFrom_append_eq_none_iff :
    m.locateFrom (a ++ b) (Text.size a) = .ok none ↔
      ∀ p x, m.OccursAt (a ++ b) p x → p < Text.size a := by
  rw [← absent_iff]
  constructor
  · intro h
    by_contra hb
    obtain ⟨front, x, rest, hx⟩ := exists_firstMatch hb
    cases h.symm.trans hx.locateFrom
  · exact locateFrom_of_absent

theorem locateFrom_append_eq_some_iff :
    m.locateFrom (a ++ b) (Text.size a) = .ok (some l) ↔ m.IsFirstFrom (a ++ b) (Text.size a) l := by
  constructor
  · intro h
    obtain ⟨front, x, rest, hx, rfl⟩ := locateFrom_append_eq_ok h
    exact hx.isFirstFrom a
  · intro h
    have hb : ¬ m.Absent b := fun habsent =>
      absurd (absent_iff.mp habsent _ _ h.occurs) (Nat.not_lt.mpr h.least.1.1)
    obtain ⟨front, x, rest, hx⟩ := exists_firstMatch hb
    rw [hx.locateFrom, h.unique (hx.isFirstFrom a)]

theorem locateFrom_append_eq_shift (m : Marker) (a b : Text) :
    m.locateFrom (a ++ b) (Text.size a) =
      .ok ((m.locate b).map fun l => { l with span := l.span.shift (Text.size a) }) := by
  by_cases hb : m.Absent b
  · rw [locateFrom_of_absent hb, locate_eq_none_iff.mpr hb]
    rfl
  · obtain ⟨front, x, rest, hx⟩ := exists_firstMatch hb
    rw [hx.locateFrom, hx.locate, spanAt_append]
    rfl

/-- From the edge of a character a marker is located at its first occurrence there or later, and not
located just if there is none; what is found is what a search of the rest finds, moved by the offset.
Behind the end of the text nothing is found. -/
theorem locateFrom_finds_first (m : Marker) (t : Text) (start : Nat) :
    (t.IsEdge start →
      (m.locateFrom t start = .ok none ↔ ∀ p x, m.OccursAt t p x → p < start) ∧
      (∀ l, m.locateFrom t start = .ok (some l) ↔ m.IsFirstFrom t start l) ∧
      ∃ a b, t = a ++ b ∧ Text.size a = start ∧ m.locateFrom t start =
        .ok ((m.locate b).map fun l => { l with span := l.span.shift start })) ∧
    (Text.size t < start → m.locateFrom t start = .ok none) := by
  refine ⟨fun hedge => ?_, fun hbehind => if_pos hbehind⟩
  obtain ⟨a, b, rfl, rfl⟩ := Text.isEdge_iff.mp hedge
  exact ⟨locateFrom_append_eq_none_iff, fun _ => locateFrom_append_eq_some_iff, a, b, rfl, rfl,
    locateFrom_append_eq_shift m a b⟩

/-- From inside a signature, over one that breaks off. The next one starts where the name of that would
be, and has a letter of two bytes in its own. -/
theorem locateFrom_finds_first_restarted :
    ∃ t start, t = "extern const TSLanguage *tree_sitter_a(void)extern const TSLanguage *".toList ++
        "extern const TSLanguage *tree_sitter_é1(void);".toList ∧
      Text.IsEdge t start ∧
      signature.locateFrom t start = .ok (some ⟨⟨69, 115⟩, some "tree_sitter_é1".toList,
        "extern const TSLanguage *tree_sitter_é1(void)".toList⟩) ∧
      IsLeast {p | start ≤ p ∧ ∃ x, signature.OccursAt t p x} 69 := by
  have hedge : Text.IsEdge ("extern const TSLanguage *tree_sitter_a(void)extern const TSLanguage *".toList ++
      "extern const TSLanguage *tree_sitter_é1(void);".toList) 1 :=
    Text.isEdge_iff.mpr ⟨['e'], _, rfl, rfl⟩
  have hfound : signature.locateFrom
      ("extern const TSLanguage *tree_sitter_a(void)extern const TSLanguage *".toList ++
        "extern const TSLanguage *tree_sitter_é1(void);".toList) 1 =
      .ok (some ⟨⟨69, 115⟩, some "tree_sitter_é1".toList,
        "extern const TSLanguage *tree_sitter_é1(void)".toList⟩) := by
    decide +kernel
  obtain ⟨-, hfirst, -⟩ := (locateFrom_finds_first signature _ 1).1 hedge
  exact ⟨_, _, rfl, hedge, hfound, ((hfirst _).mp hfound).least⟩

end Marker

end GrammarHeaders
