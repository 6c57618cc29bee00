import GrammarHeaders.Proofs.UniformEndings

namespace GrammarHeaders

namespace Text

theorem side_of_not_mem {a b f w r : Text} {c : Char} (hc : c ∉ w)
    (h : a ++ c :: b = f ++ (w ++ r)) :
    (∃ r', a = f ++ (w ++ r')) ∨ ∃ f', f = a ++ c :: f' ∧ b = f' ++ (w ++ r) := by
  obtain ⟨m, rfl, hm⟩ | ⟨m, rfl, hm⟩ := List.append_eq_append_iff.mp h
  · cases m with
    | nil =>
      cases w with
      | nil => exact .inl ⟨[], by simp⟩
      | cons d w => simp_all
    | cons d m =>
      obtain ⟨rfl, rfl⟩ := List.cons.inj hm
      exact .inr ⟨m, by simp, rfl⟩
  · obtain ⟨n, rfl, hn⟩ | ⟨n, rfl, hn⟩ := List.append_eq_append_iff.mp hm
    · exact .inl ⟨n, rfl⟩
    · cases n with
      | nil => exact .inl ⟨[], by simp⟩
      | cons d n =>
        obtain ⟨rfl, rfl⟩ := List.cons.inj hn
        simp at hc

theorem right_of_not_mem {a b f w r : Text} {c : Char} (hw : w.head? = some c) (hc : c ∉ a)
    (h : a ++ b = f ++ (w ++ r)) : ∃ f', f = a ++ f' ∧ b = f' ++ (w ++ r) := by
  obtain ⟨m, rfl, hm⟩ | ⟨m, rfl, hm⟩ := List.append_eq_append_iff.mp h
  · exact ⟨m, rfl, hm⟩
  · obtain ⟨w, rfl⟩ := List.head?_eq_some_iff.mp hw
    cases m with
    | nil => exact ⟨[], by simp, by simpa using hm.symm⟩
    | cons d m =>
      obtain ⟨rfl, -⟩ := List.cons.inj hm
      simp at hc

theorem left_of_not_mem {a b f w r : Text} {c : Char} (hw : w.getLast? = some c) (hc : c ∉ b)
    (h : a ++ b = f ++ (w ++ r)) : ∃ r', a = f ++ (w ++ r') := by
  obtain ⟨m, rfl, hm⟩ | ⟨m, rfl, hm⟩ := List.append_eq_append_iff.mp h
  · exact absurd (by simp [hm, List.mem_of_getLast? hw]) hc
  · obtain ⟨n, rfl, hn⟩ | ⟨n, rfl, hn⟩ := List.append_eq_append_iff.mp hm
    · exact ⟨n, rfl⟩
    · cases n with
      | nil => exact ⟨[], by simp⟩
      | cons d n =>
        rw [List.getLast?_append_of_ne_nil _ (by simp)] at hw
        exact absurd (by rw [hn]; exact List.mem_append_left r (List.mem_of_getLast? hw)) hc

end Text

namespace Marker

/-- The text has no match of the marker. -/
def Absent (m : Marker) (t : Text) : Prop :=
  ∀ f x r, m.Shape x → t ≠ f ++ (x.matched ++ r)

/-- The match `x` between `front` and `rest` is the only one in the text. -/
structure OnlyMatch (m : Marker) (t front : Text) (x : Match) (rest : Text) : Prop where
  whole : t = front ++ (x.matched ++ rest)
  shape : m.Shape x
  only : ∀ f y r, m.Shape y → t = f ++ (y.matched ++ r) → f = front ∧ y = x ∧ r = rest

theorem Shape.unique {m : Marker} {x y : Match} {r s : Text} (hx : m.Shape x) (hy : m.Shape y)
    (h : x.matched ++ r = y.matched ++ s) : x = y ∧ r = s := by
  have hm := matchAt?_eq_some_iff.mpr ⟨hx, r, rfl⟩
  rw [h, matchAt?_eq_some_iff.mpr ⟨hy, s, rfl⟩] at hm
  obtain rfl := Option.some.inj hm
  exact ⟨rfl, List.append_cancel_left h⟩

def places (m : Marker) (t : Text) : List Nat :=
  (List.range (t.length + 1)).filter fun i => (m.matchAt? (t.drop i)).isSome

theorem mem_places {m : Marker} {t : Text} {i : Nat} :
    i ∈ m.places t ↔ ∃ f x r, m.Shape x ∧ t = f ++ (x.matched ++ r) ∧ f.length = i := by
  simp only [places, List.mem_filter, List.mem_range, Option.isSome_iff_exists]
  constructor
  · rintro ⟨hi, x, hx⟩
    obtain ⟨hx, r, hr⟩ := matchAt?_eq_some_iff.mp hx
    refine ⟨t.take i, x, r, hx, ?_, by simp; omega⟩
    rw [hr, List.take_append_drop]
  · rintro ⟨f, x, r, hx, rfl, rfl⟩
    have hf : f.length < (f ++ (x.matched ++ r)).length + 1 := by
      rw [List.length_append]
      omega
    refine ⟨hf, x, ?_⟩
    rw [List.drop_left]
    exact matchAt?_eq_some_iff.mpr ⟨hx, r, rfl⟩

theorem absent_iff_places {m : Marker} {t : Text} : m.Absent t ↔ m.places t = [] := by
  rw [List.eq_nil_iff_forall_not_mem]
  constructor
  · intro h i hi
    obtain ⟨f, x, r, hx, ht, -⟩ := mem_places.mp hi
    exact h f x r hx ht
  · exact fun h f x r hx ht => h f.length (mem_places.mpr ⟨f, x, r, hx, ht, rfl⟩)

theorem onlyMatch_iff_places {m : Marker} {t : Text} :
    (∃ f x r, m.OnlyMatch t f x r) ↔ (m.places t).length = 1 := by
  rw [List.length_eq_one_iff]
  constructor
  · rintro ⟨f, x, r, hw, hx, honly⟩
    refine ⟨f.length, ?_⟩
    have hmem : f.length ∈ m.places t := mem_places.mpr ⟨f, x, r, hx, hw, rfl⟩
    have heq : ∀ i ∈ m.places t, i = f.length := by
      intro i hi
      obtain ⟨g, y, s, hy, ht, rfl⟩ := mem_places.mp hi
      rw [(honly g y s hy ht).1]
    have hpos : 0 < (m.places t).length := List.length_pos_of_mem hmem
    have hnodup : (m.places t).Nodup := List.nodup_range.filter _
    have hrep := List.eq_replicate_of_mem heq
    rw [hrep, List.nodup_replicate] at hnodup
    rw [hrep, Nat.le_antisymm hnodup hpos]
    rfl
  · rintro ⟨i, hi⟩
    obtain ⟨f, x, r, hx, hw, hf⟩ := mem_places.mp (hi ▸ List.mem_singleton_self i)
    refine ⟨f, x, r, hw, hx, ?_⟩
    intro g y s hy ht
    have hg : g.length ∈ m.places t := mem_places.mpr ⟨g, y, s, hy, ht, rfl⟩
    rw [hi, List.mem_singleton, ← hf] at hg
    obtain ⟨rfl, hr⟩ := List.append_inj (ht.symm.trans hw) hg
    obtain ⟨hy, hs⟩ := hy.unique hx hr
    exact ⟨rfl, hy, hs⟩

instance (m : Marker) (t : Text) : Decidable (m.Absent t) :=
  decidable_of_iff _ absent_iff_places.symm

instance (m : Marker) (t : Text) : Decidable (∃ f x r, m.OnlyMatch t f x r) :=
  decidable_of_iff _ onlyMatch_iff_places.symm

theorem not_mem_signature {x : Match} (h : signature.Shape x) {c : Char}
    (hw : Text.isWord c = false) (hc : c ∉ signatureOpening ++ signatureClosing) :
    c ∉ x.matched := by
  cases h with
  | @signature stem _ hstem =>
    have hp : ∀ d ∈ grammarFunctionPrefix.toList, Text.isWord d = true :=
      List.all_eq_true.mp (by decide)
    simp only [List.mem_append, not_or] at hc ⊢
    refine ⟨⟨hc.1, fun h => ?_, fun h => ?_⟩, hc.2⟩
    · simp [hp c h] at hw
    · simp [hstem c h] at hw

theorem eq_of_signature {x : Match} (h : signature.Shape x) :
    ∃ rest, x.matched = 'e' :: 'x' :: rest := by
  cases h with
  | signature => exact ⟨_, rfl⟩

theorem append_eq_of_signature {x : Match} (h : signature.Shape x) :
    ∃ name, x.matched = name ++ [')'] := by
  cases h with
  | @signature stem =>
    have hc : signatureClosing = "(void".toList ++ [')'] := by decide
    exact ⟨_, by rw [hc, ← List.append_assoc]⟩

/-- What an end of a factory starts and ends with, that it goes over a line, and two characters
that it does not have. -/
theorem parts_of_ending {x : Match} (h : ending.Shape x) : x.matched.head? = some 'r' ∧
    x.matched.getLast? = some '\x7d' ∧ '\n' ∈ x.matched ∧ '#' ∉ x.matched ∧ ')' ∉ x.matched := by
  cases h with
  | ending e => cases e <;> decide

theorem after_line {q b f r : Text} {e : LineEnding} {x : Match} (hq : signature.Absent q)
    (hx : signature.Shape x) (h : q ++ (e.text ++ b) = f ++ (x.matched ++ r)) :
    ∃ f', f = q ++ e.text ++ f' ∧ b = f' ++ (x.matched ++ r) := by
  obtain ⟨hr, hn⟩ := newlineFree_of_shape hx
  obtain ⟨rest, hrest⟩ := eq_of_signature hx
  cases e with
  | lf =>
    rcases Text.side_of_not_mem hn h with ⟨r', hl⟩ | ⟨f', rfl, hb⟩
    · exact absurd hl (hq f x r' hx)
    · exact ⟨f', by simp [LineEnding.text], hb⟩
  | crlf =>
    rcases Text.side_of_not_mem hr h with ⟨r', hl⟩ | ⟨f', rfl, hb⟩
    · exact absurd hl (hq f x r' hx)
    · obtain ⟨f₁, rfl, hb₁⟩ := Text.right_of_not_mem (a := ['\n']) (c := 'e')
        (by simp [hrest]) (by decide) hb
      exact ⟨f₁, by simp [LineEnding.text], hb₁⟩

theorem Absent.append_line {q b : Text} (hq : signature.Absent q) (hb : signature.Absent b)
    (e : LineEnding) : signature.Absent (q ++ (e.text ++ b)) := by
  intro f x r hx h
  obtain ⟨f', -, h⟩ := after_line hq hx h
  exact hb f' x r hx h

theorem absent_of_length {t : Text} (ht : t.length < 44) : signature.Absent t := by
  rintro f x r hx rfl
  cases hx with
  | @signature stem hne _ =>
    have hstem : 0 < stem.length := List.length_pos_iff.mpr hne
    have ho : signatureOpening.length = 25 := by decide
    have hp : grammarFunctionPrefix.toList.length = 12 := by decide
    have hc : signatureClosing.length = 6 := by decide
    simp only [List.length_append, ho, hp, hc] at ht
    omega

theorem Absent.map_slash {t : Text} (h : signature.Absent t) :
    signature.Absent (t.map fun c => if c = '\\' then '/' else c) := by
  intro f x r hx hm
  obtain ⟨a, u, rfl, -, hu⟩ := List.map_eq_append_iff.mp hm
  obtain ⟨w, b, rfl, hw, -⟩ := List.map_eq_append_iff.mp hu
  have hslash : '/' ∉ x.matched := not_mem_signature hx (by decide) (by decide)
  have hsame : w.map (fun c => if c = '\\' then '/' else c) = w.map id := by
    refine List.map_congr_left fun c hc => if_neg ?_
    rintro rfl
    exact hslash (hw ▸ List.mem_map.mpr ⟨_, hc, if_pos rfl⟩)
  rw [hsame, List.map_id] at hw
  exact h a x b hx (by rw [hw])

/-- The comment of a header has no signature if the path of its source has none. The words in front
of the path have no letter `x`, with which a signature would go on. -/
theorem absent_provenance {source : Path} (h : signature.Absent source.text.toList) :
    signature.Absent (Header.provenance source) := by
  intro f x r hx hp
  obtain ⟨rest, hrest⟩ := eq_of_signature hx
  rw [hrest] at hp
  have hp : "//Generated from ".toList ++ (source.text.toList.map fun c => if c = '\\' then '/' else c) =
      (f ++ ['e']) ++ (('x' :: rest) ++ r) := by
    rw [List.append_assoc]
    exact hp
  obtain ⟨f', hf, hm⟩ := Text.right_of_not_mem rfl (by decide) hp
  rcases List.eq_nil_or_concat f' with rfl | ⟨g, c, rfl⟩
  · rw [List.append_nil] at hf
    have hlast := congrArg List.getLast? hf
    rw [List.getLast?_concat] at hlast
    exact absurd hlast (by decide)
  · rw [List.concat_eq_append, ← List.append_assoc] at hf
    obtain ⟨-, hc⟩ := List.append_inj' hf rfl
    obtain rfl := List.singleton_inj.mp hc
    refine h.map_slash g x r hx ?_
    rw [hm, hrest]
    simp

end Marker

namespace Factory

def prologue (source : Path) (newline : LineEnding) : Text :=
  Header.provenance source ++ (newline.text ++ ([] ++ (newline.text ++ (lexerDeclaration ++
    (newline.text ++ (languageDeclaration ++ (newline.text ++ [])))))))

theorem Cut.text_synthesize (c : Cut) (moduleName : String) (source : Path) (newline : LineEnding) :
    (Header.synthesize moduleName source (c.declarations newline) newline).text =
      prologue source newline ++ (newline.text ++
        (c.front ++ (c.signature ++ ';' :: (newline.text ++ c.back)))) := by
  simp [Header.synthesize, Cut.declarations, prologue]

theorem absent_prologue {source : Path} (h : Marker.signature.Absent source.text.toList)
    (newline : LineEnding) : Marker.signature.Absent (prologue source newline) := by
  have hnil : Marker.signature.Absent [] := Marker.absent_of_length (by decide)
  have hlexer : Marker.signature.Absent lexerDeclaration := Marker.absent_of_length (by decide)
  have hlanguage : Marker.signature.Absent languageDeclaration := Marker.absent_of_length (by decide)
  exact (Marker.absent_provenance h).append_line (hnil.append_line (hlexer.append_line
    (hlanguage.append_line hnil newline) newline) newline) newline

variable {c : Cut} {tail : Text} {source : Path}

theorem Cut.IsFactory.onlyMatch_signature (hc : c.IsFactory tail)
    (ht : ∃ f x r, Marker.signature.OnlyMatch tail f x r)
    (hs : Marker.signature.Absent source.text.toList) (moduleName : String) (newline : LineEnding) :
    Marker.signature.OnlyMatch
      (Header.synthesize moduleName source (c.declarations newline) newline).text
      (prologue source newline ++ newline.text ++ c.front) ⟨c.signature, some c.name⟩
      (';' :: (newline.text ++ c.back)) := by
  have hx := hc.signature.shape
  have hw := hc.signature.whole
  obtain ⟨front, x, rest, -, -, honly⟩ := ht
  obtain ⟨rfl, rfl, rfl⟩ := honly _ _ _ hx hw
  refine ⟨by simp [c.text_synthesize], hx, ?_⟩
  intro f y r hy h
  rw [c.text_synthesize] at h
  obtain ⟨f, rfl, hd⟩ := Marker.after_line (absent_prologue hs newline) hy h
  have hsemicolon : ';' ∉ y.matched := Marker.not_mem_signature hy (by decide) (by decide)
  have h' : (c.front ++ c.signature) ++ ';' :: (newline.text ++ c.back) = f ++ (y.matched ++ r) := by
    rw [← hd, List.append_assoc]
  rcases Text.side_of_not_mem hsemicolon h' with ⟨r', hl⟩ | ⟨f', rfl, hr⟩
  · have htail : tail = f ++ (y.matched ++ (r' ++ (c.body ++ c.back))) := by
      rw [hw, ← List.append_assoc, hl]
      simp
    obtain ⟨rfl, rfl, -⟩ := honly _ _ _ hy htail
    exact ⟨rfl, rfl, (List.append_cancel_left (List.append_cancel_left hd)).symm⟩
  · -- a signature after the declaration would be a second one of the parser
    obtain ⟨rest, hrest⟩ := Marker.eq_of_signature hy
    have hhead : y.matched.head? = some 'e' := by simp [hrest]
    obtain ⟨f, rfl, hback⟩ := Text.right_of_not_mem hhead (by cases newline <;> decide) hr
    have htail : tail = (c.front ++ (c.signature ++ (c.body ++ f))) ++ (y.matched ++ r) := by
      rw [hw, hback]
      simp
    obtain ⟨hfront, -, -⟩ := honly _ _ _ hy htail
    obtain ⟨rest, hrest⟩ : ∃ rest, c.signature = 'e' :: 'x' :: rest := Marker.eq_of_signature hx
    have hl := congrArg List.length hfront
    simp only [List.length_append, hrest, List.length_cons] at hl
    omega

theorem Cut.IsFactory.front_eq (hc : c.IsFactory tail) (ht : Marker.guardToken <+: tail) :
    ∃ front, c.front = '#' :: front := by
  obtain ⟨rest, rfl⟩ := ht
  obtain ⟨sig, hsig⟩ : ∃ sig, c.signature = 'e' :: 'x' :: sig :=
    Marker.eq_of_signature hc.signature.shape
  have hw := congrArg List.head? hc.signature.whole
  have hg : (Marker.guardToken ++ rest).head? = some '#' := rfl
  rw [hg] at hw
  cases hf : c.front with
  | nil => simp [hf, hsig] at hw
  | cons d front =>
    obtain rfl : '#' = d := by simpa [hf] using hw
    exact ⟨front, rfl⟩

theorem exists_prologue_append (source : Path) (newline : LineEnding) :
    ∃ rest, prologue source newline ++ newline.text = Header.provenance source ++ rest ∧
      '\x7d' ∉ rest :=
  ⟨_, by rw [prologue, List.append_assoc], by cases newline <;> decide⟩

theorem newline_not_mem_provenance (h : '\n' ∉ source.text.toList) :
    '\n' ∉ Header.provenance source := by
  intro hn
  rcases List.mem_append.mp hn with hn | hn
  · exact absurd hn (by decide)
  · obtain ⟨d, hd, hc⟩ := List.mem_map.mp hn
    split at hc
    · exact absurd hc (by decide)
    · exact h (hc ▸ hd)

theorem Cut.IsFactory.ending_closes_body (hc : c.IsFactory tail)
    (ht : ∃ f x r, Marker.ending.OnlyMatch tail f x r) :
    ∃ gap y, Marker.ending.Shape y ∧ c.body = gap ++ y.matched ∧
      ∀ f x r, Marker.ending.Shape x → tail = f ++ (x.matched ++ r) → f = c.front ++ (c.signature ++ gap) := by
  obtain ⟨y, hy, gap, hbody⟩ := hc.ending
  obtain ⟨front, z, rest, -, -, honly⟩ := ht
  refine ⟨gap, y, hy, hbody.symm, fun f x r hx hf => ?_⟩
  have hend : tail = (c.front ++ (c.signature ++ gap)) ++ (y.matched ++ c.back) := by
    rw [hc.signature.whole, ← hbody]
    simp
  rw [(honly f x r hx hf).1, ← (honly _ _ _ hy hend).1]

/-- Of the only end of a factory nothing is left in a header: it was in the body, and the seams have
no `return` before them or no brace after them. -/
theorem Cut.IsFactory.absent_ending (hc : c.IsFactory tail) (hg : Marker.guardToken <+: tail)
    (ht : ∃ f x r, Marker.ending.OnlyMatch tail f x r) (hs : '\n' ∉ source.text.toList)
    (moduleName : String) (newline : LineEnding) :
    Marker.ending.Absent
      (Header.synthesize moduleName source (c.declarations newline) newline).text := by
  intro f x r hx h
  obtain ⟨gap, y, hy, hbody, honly⟩ := hc.ending_closes_body ht
  have hw : tail = c.front ++ (c.signature ++ (c.body ++ c.back)) := hc.signature.whole
  obtain ⟨front, hfront⟩ := hc.front_eq hg
  obtain ⟨name, hsig⟩ : ∃ name, c.signature = name ++ [')'] :=
    Marker.append_eq_of_signature hc.signature.shape
  obtain ⟨lines, hlines, hbrace⟩ := exists_prologue_append source newline
  obtain ⟨hr, hclose, hn, hsign, hparen⟩ := Marker.parts_of_ending hx
  rw [c.text_synthesize, ← List.append_assoc, hlines, hfront] at h
  rcases Text.side_of_not_mem hsign h with ⟨r₁, h₁⟩ | ⟨f₁, -, h₁⟩
  · -- in front of the tail only the comment can have the brace, and it is one line
    obtain ⟨r₂, h₂⟩ := Text.left_of_not_mem hclose hbrace h₁
    exact newline_not_mem_provenance hs (by rw [h₂]; simp [hn])
  · have h₂ : (front ++ name) ++ ')' :: (';' :: (newline.text ++ c.back)) = f₁ ++ (x.matched ++ r) := by
      rw [← h₁, hsig]
      simp
    rcases Text.side_of_not_mem hparen h₂ with ⟨r₂, h₃⟩ | ⟨f₂, -, h₃⟩
    · have htail : tail = ('#' :: f₁) ++ (x.matched ++ (r₂ ++ ')' :: (c.body ++ c.back))) := by
        rw [hw, hfront, hsig]
        have h₄ := congrArg (fun u => '#' :: (u ++ ')' :: (c.body ++ c.back))) h₃
        simpa using h₄
      have hl := congrArg List.length (honly _ _ _ hx htail)
      have hl₃ := congrArg List.length h₃
      simp only [hfront, hsig, List.length_append, List.length_cons] at hl hl₃
      omega
    · obtain ⟨f₃, -, h₄⟩ := Text.right_of_not_mem (a := ';' :: newline.text) hr
        (by cases newline <;> decide) h₃
      have htail : tail = (c.front ++ (c.signature ++ (c.body ++ f₃))) ++ (x.matched ++ r) := by
        rw [hw, h₄]
        simp
      have hl := congrArg List.length (honly _ _ _ hx htail)
      have hy := (length_of_ending hy).1
      simp only [hbody, List.length_append] at hl
      omega

end Factory

/-- If the tail of a parser has one signature and one end of a factory, then its header has that
signature with a semicolon and a newline, no other, and no end of a factory. -/
theorem single_factory_declaration {t head rest out : Text} {expected : String} {check : NameCheck}
    {file source : Path} {log : List LogLine} (moduleName : String)
    (hg : Marker.guard.FirstMatch t head ⟨Marker.guardToken, none⟩ rest)
    (hs : ∃ f x r, Marker.signature.OnlyMatch (Marker.guardToken ++ rest) f x r)
    (he : ∃ f x r, Marker.ending.OnlyMatch (Marker.guardToken ++ rest) f x r)
    (h : Factory.extractDeclarations t expected check file = .ok (out, log))
    (hp : Marker.signature.Absent source.text.toList) (hn : '\n' ∉ source.text.toList) :
    (∃ front x back, Marker.signature.OnlyMatch
      (Header.synthesize moduleName source out (LineEnding.detect t)).text front x
      (';' :: ((LineEnding.detect t).text ++ back))) ∧
    Marker.ending.Absent (Header.synthesize moduleName source out (LineEnding.detect t)).text := by
  obtain ⟨span, tail, factory, warnings, hspan, htail, -, c, hc, -, rfl⟩ :=
    Factory.cut_of_extractDeclarations h
  obtain ⟨head', rest', hg', hrest⟩ := Factory.slice?_of_locateTail hspan
  obtain ⟨-, -, rfl⟩ := hg.unique hg'
  obtain rfl := Option.some.inj (htail.symm.trans hrest)
  exact ⟨⟨_, _, _, hc.onlyMatch_signature hs hp moduleName (LineEnding.detect t)⟩,
    hc.absent_ending (List.prefix_append _ _) he hn moduleName (LineEnding.detect t)⟩

/-- A parser that goes on with a brace on the next line, and a path that ends like the line before
an end of a factory. -/
theorem single_factory_declaration_brace :
    ∃ (t head rest out : Text) (log : List LogLine), t = "\r\n#ifdef __cplusplus\n".toList ++
        ("extern const TSLanguage *tree_sitter_a(void)".toList ++
          "return &language;\n\x7d\n\x7dextern const TSLanguage *tree_sitter_(void)".toList) ∧
      Marker.guard.FirstMatch t head ⟨Marker.guardToken, none⟩ rest ∧
      (∃ f x r, Marker.signature.OnlyMatch (Marker.guardToken ++ rest) f x r) ∧
      (∃ f x r, Marker.ending.OnlyMatch (Marker.guardToken ++ rest) f x r) ∧
      Factory.extractDeclarations t "tree_sitter_b" .warn ⟨"p.c"⟩ = .ok (out, log) ∧
      Marker.signature.Absent "extern\\return &language;".toList ∧
      '\n' ∉ "extern\\return &language;".toList ∧
      (∃ front x back, Marker.signature.OnlyMatch
        (Header.synthesize "b" ⟨"extern\\return &language;"⟩ out (LineEnding.detect t)).text front x
        (';' :: ((LineEnding.detect t).text ++ back))) ∧
      Marker.ending.Absent
        (Header.synthesize "b" ⟨"extern\\return &language;"⟩ out (LineEnding.detect t)).text := by
  obtain ⟨t, ht⟩ : ∃ t, t = "\r\n#ifdef __cplusplus\n".toList ++
      ("extern const TSLanguage *tree_sitter_a(void)".toList ++
        "return &language;\n\x7d\n\x7dextern const TSLanguage *tree_sitter_(void)".toList) := ⟨_, rfl⟩
  have hextract : Factory.extractDeclarations t "tree_sitter_b" .warn ⟨"p.c"⟩ =
      .ok (Factory.Cut.declarations ⟨"#ifdef __cplusplus\n".toList,
          "extern const TSLanguage *tree_sitter_a(void)".toList, "tree_sitter_a".toList,
          "return &language;\n\x7d".toList,
          "\n\x7dextern const TSLanguage *tree_sitter_(void)".toList⟩ .crlf,
        [Factory.mismatchWarning "tree_sitter_b" ⟨"p.c"⟩ "tree_sitter_a",
          Factory.foundLine "tree_sitter_a" ⟨21, 84⟩ ⟨"p.c"⟩]) := by
    subst ht
    decide +kernel
  have hspan : Factory.locateTail t ⟨"p.c"⟩ = .ok ⟨2, 129⟩ := by
    subst ht
    decide +kernel
  obtain ⟨head, rest, hguard, htail⟩ := Factory.slice?_of_locateTail hspan
  have hrest : Marker.guardToken ++ rest = "#ifdef __cplusplus\n".toList ++
      ("extern const TSLanguage *tree_sitter_a(void)".toList ++
        "return &language;\n\x7d\n\x7dextern const TSLanguage *tree_sitter_(void)".toList) := by
    refine Option.some.inj (htail.symm.trans ?_)
    subst ht
    decide +kernel
  have hsignature : ∃ f x r, Marker.signature.OnlyMatch (Marker.guardToken ++ rest) f x r := by
    rw [hrest]
    decide +kernel
  have hending : ∃ f x r, Marker.ending.OnlyMatch (Marker.guardToken ++ rest) f x r := by
    rw [hrest]
    decide +kernel
  have habsent : Marker.signature.Absent (⟨"extern\\return &language;"⟩ : Path).text.toList := by
    decide +kernel
  have hline : '\n' ∉ (⟨"extern\\return &language;"⟩ : Path).text.toList := by decide
  obtain ⟨hone, hnone⟩ := single_factory_declaration "b" hguard hsignature hending hextract habsent hline
  exact ⟨t, head, rest, _, _, ht, hguard, hsignature, hending, hextract, habsent, hline, hone, hnone⟩

end GrammarHeaders
