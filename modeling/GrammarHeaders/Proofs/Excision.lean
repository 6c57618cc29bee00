import GrammarHeaders.Factory
import GrammarHeaders.Proofs.MarkerSearch

namespace GrammarHeaders.Factory

/-- The text ends with the return statement, a newline and the closing brace of a factory. -/
def EndsFactory (b : Text) : Prop := ∃ x, Marker.ending.Shape x ∧ x.matched <:+ b

/-- The parts of the tail of a parser, and the name inside the signature. -/
structure Cut where
  front : Text
  signature : Text
  name : Text
  body : Text
  back : Text

/-- The tail is cut at its leftmost signature and at the shortest body that ends a factory. -/
structure Cut.IsFactory (c : Cut) (tail : Text) : Prop where
  signature : Marker.signature.FirstMatch tail c.front ⟨c.signature, some c.name⟩ (c.body ++ c.back)
  ending : EndsFactory c.body
  shortest : ∀ b r, c.body ++ c.back = b ++ r → EndsFactory b → c.body.length ≤ b.length

theorem Cut.IsFactory.unique {c d : Cut} {tail : Text} (hc : c.IsFactory tail)
    (hd : d.IsFactory tail) : c = d := by
  obtain ⟨hf, hx, hr⟩ := hc.signature.unique hd.signature
  have hl : c.body.length = d.body.length :=
    Nat.le_antisymm (hc.shortest d.body d.back hr hd.ending) (hd.shortest c.body c.back hr.symm hc.ending)
  obtain ⟨hb, hk⟩ := List.append_inj hr hl
  simp only [Match.mk.injEq, Option.some.injEq] at hx
  cases c
  cases d
  simp_all

theorem length_of_ending {x : Match} (h : Marker.ending.Shape x) :
    19 ≤ x.matched.length ∧ x.matched.length ≤ 20 := by
  cases h with
  | ending e => cases e <;> decide

theorem shortest_of_firstMatch {u gap post : Text} {x : Match}
    (h : Marker.ending.FirstMatch u gap x post) (b r : Text) (hu : u = b ++ r)
    (hb : EndsFactory b) : (gap ++ x.matched).length ≤ b.length := by
  obtain ⟨y, hy, f, rfl⟩ := hb
  rw [List.append_assoc] at hu
  have hle := h.first f y r hy hu
  rcases Nat.lt_or_eq_of_le hle with hlt | heq
  · have hx := length_of_ending h.shape
    have hy := length_of_ending hy
    simp only [List.length_append]
    omega
  · have h' : Marker.ending.FirstMatch u f y r := ⟨hu, hy, heq ▸ h.first⟩
    obtain ⟨rfl, rfl, rfl⟩ := h.unique h'
    exact Nat.le_refl _

/-- Whatever becomes of the name, a factory that is found goes from the first signature to the
first ending after it. -/
theorem searches_of_locate {tail : Text} {expected : String} {check : NameCheck} {file : Path}
    {factory : Factory} {warnings : List LogLine}
    (h : locate tail expected check file = .ok (factory, warnings)) :
    ∃ start stop, Marker.signature.locate tail = some start ∧
      Marker.ending.locateFrom tail start.span.stop = .ok (some stop) ∧
      factory = ⟨String.ofList (start.capture.getD []), start.matched,
        ⟨start.span.start, stop.span.stop⟩⟩ := by
  unfold locate at h
  split at h
  · cases h
  · rename_i start hs
    split at h
    · rename_i stop he
      refine ⟨start, stop, hs, he, ?_⟩
      dsimp only at h
      split at h
      · cases h
        rfl
      · split at h
        · cases h
        · cases h
          rfl
    · cases h

/-- The factory that a cut describes. -/
def Cut.factory (c : Cut) : Factory :=
  ⟨String.ofList c.name, c.signature,
    ⟨Text.size c.front, Text.size c.front + (Text.size c.signature + Text.size c.body)⟩⟩

theorem cut_of_locate {tail : Text} {expected : String} {check : NameCheck} {file : Path}
    {factory : Factory} {warnings : List LogLine}
    (h : locate tail expected check file = .ok (factory, warnings)) :
    ∃ c : Cut, c.IsFactory tail ∧ factory = c.factory := by
  obtain ⟨start, stop, hs, he, rfl⟩ := searches_of_locate h
  obtain ⟨front, x, u, hx, rfl⟩ := Marker.locate_eq_some hs
  have ht : tail = (front ++ x.matched) ++ u := by rw [hx.whole, List.append_assoc]
  have hp : (Marker.signature.spanAt tail (Text.size front) x).stop =
      Text.size (front ++ x.matched) := by
    simp [Marker.spanAt]
  dsimp only at he
  rw [hp, ht] at he
  obtain ⟨gap, y, back, hy, rfl⟩ := Marker.locateFrom_append_eq_ok he
  obtain ⟨sig, capture⟩ := x
  obtain ⟨name, rfl⟩ : ∃ name, capture = some name := by
    cases hx.shape
    exact ⟨_, rfl⟩
  have hu : u = (gap ++ y.matched) ++ back := by rw [hy.whole, List.append_assoc]
  subst hu
  refine ⟨⟨front, sig, name, gap ++ y.matched, back⟩, ⟨hx, ⟨y, hy.shape, gap, rfl⟩, ?_⟩, ?_⟩
  · exact shortest_of_firstMatch hy
  · simp [Cut.factory, Marker.spanAt, Nat.add_assoc]

theorem excise?_append (newline : LineEnding) (front middle back declaration : Text) :
    excise? (front ++ (middle ++ back)) newline
      ⟨Text.size front, Text.size front + Text.size middle⟩ declaration =
      some (front ++ declaration ++ [';'] ++ newline.text ++ back) := by
  have h : Text.cutAt? (Text.size front + Text.size middle) (front ++ (middle ++ back)) =
      some (front ++ middle, back) := by
    simpa using Text.cutAt?_append (front ++ middle) back
  simp [excise?, h, Text.cutAt?_append]

theorem slice?_of_locateTail {t : Text} {file : Path} {s : Span} (h : locateTail t file = .ok s) :
    ∃ head rest, Marker.guard.FirstMatch t head ⟨Marker.guardToken, none⟩ rest ∧
      Text.slice? t s = some (Marker.guardToken ++ rest) := by
  unfold locateTail at h
  split at h
  · rename_i found hg
    obtain ⟨head, x, rest, hx, rfl⟩ := Marker.locate_eq_some hg
    cases h
    obtain rfl : x = ⟨Marker.guardToken, none⟩ := by
      cases hx.shape
      rfl
    refine ⟨head, rest, hx, ?_⟩
    have hs := Text.slice?_append head (Marker.guardToken ++ rest) []
    rw [List.append_nil, ← Text.size_append, ← hx.whole] at hs
    exact hs
  · cases h

def Cut.declarations (c : Cut) (newline : LineEnding) : Text :=
  lexerDeclaration ++ newline.text ++ languageDeclaration ++ newline.text ++ newline.text ++
    c.front ++ c.signature ++ [';'] ++ newline.text ++ c.back

theorem cut_of_extractDeclarations {t : Text} {expected : String} {check : NameCheck} {file : Path}
    {out : Text} {log : List LogLine}
    (h : extractDeclarations t expected check file = .ok (out, log)) :
    ∃ span tail factory warnings, locateTail t file = .ok span ∧ Text.slice? t span = some tail ∧
      locate tail expected check file = .ok (factory, warnings) ∧
      ∃ c : Cut, c.IsFactory tail ∧ factory = c.factory ∧
        out = c.declarations (LineEnding.detect t) := by
  unfold extractDeclarations at h
  cases hs : locateTail t file with
  | error fault => simp [hs, bind, Except.bind] at h
  | ok span =>
    obtain ⟨head, rest, hg, hr⟩ := slice?_of_locateTail hs
    simp only [hs, hr, bind, Except.bind, Option.getD_some] at h
    cases hl : locate (Marker.guardToken ++ rest) expected check file with
    | error fault => simp [hl] at h
    | ok found =>
      obtain ⟨factory, warnings⟩ := found
      obtain ⟨c, hc, rfl⟩ := cut_of_locate hl
      have ht : Marker.guardToken ++ rest = c.front ++ ((c.signature ++ c.body) ++ c.back) := by
        simpa using hc.signature.whole
      have he := excise?_append (LineEnding.detect t) c.front (c.signature ++ c.body) c.back c.signature
      rw [← ht, Text.size_append] at he
      simp only [hl, Cut.factory, he, Option.getD_some, pure, Except.pure, Except.ok.injEq,
        Prod.mk.injEq] at h
      refine ⟨span, _, c.factory, warnings, rfl, hr, hl, c, hc, rfl, ?_⟩
      rw [← h.1]
      simp [Cut.declarations, forwardDeclarations]

theorem extractDeclarations_exact_cut {t : Text} {expected : String} {check : NameCheck}
    {file : Path} {out : Text} {log : List LogLine}
    (h : extractDeclarations t expected check file = .ok (out, log)) :
    ∃ head rest, Marker.guard.FirstMatch t head ⟨Marker.guardToken, none⟩ rest ∧
      ∃ c : Cut, c.IsFactory (Marker.guardToken ++ rest) ∧
        (∀ d : Cut, d.IsFactory (Marker.guardToken ++ rest) → d = c) ∧
        out = c.declarations (LineEnding.detect t) := by
  obtain ⟨span, tail, factory, warnings, hs, ht, -, c, hc, -, ho⟩ := cut_of_extractDeclarations h
  obtain ⟨head, rest, hg, hr⟩ := slice?_of_locateTail hs
  obtain rfl := Option.some.inj (ht.symm.trans hr)
  exact ⟨head, rest, hg, c, hc, fun d hd => hd.unique hc, ho⟩

/-- A parser with an ending before its signature, an ending that a lone carriage return breaks, and
line endings that differ between its head and its tail. -/
theorem extractDeclarations_exact_cut_mixed :
    ∃ t out log, t = "é\r\n#ifdef __cplusplus\nreturn &language;\n\x7d".toList ++
        ("extern const TSLanguage *tree_sitter_é(void)".toList ++
          (" return &language;\r\x7d return &language;\r\n\x7d".toList ++ "\n#endif".toList)) ∧
      extractDeclarations t "tree_sitter_e" .warn ⟨"p.c"⟩ = .ok (out, log) ∧
      ∃ head rest, Marker.guard.FirstMatch t head ⟨Marker.guardToken, none⟩ rest ∧
        ∃ c : Cut, c.IsFactory (Marker.guardToken ++ rest) ∧
          (∀ d : Cut, d.IsFactory (Marker.guardToken ++ rest) → d = c) ∧
          out = c.declarations (LineEnding.detect t) := by
  have h : extractDeclarations ("é\r\n#ifdef __cplusplus\nreturn &language;\n\x7d".toList ++
        ("extern const TSLanguage *tree_sitter_é(void)".toList ++
          (" return &language;\r\x7d return &language;\r\n\x7d".toList ++ "\n#endif".toList)))
      "tree_sitter_e" .warn ⟨"p.c"⟩ =
      .ok (Cut.declarations ⟨"#ifdef __cplusplus\nreturn &language;\n\x7d".toList,
          "extern const TSLanguage *tree_sitter_é(void)".toList, "tree_sitter_é".toList,
          " return &language;\r\x7d return &language;\r\n\x7d".toList, "\n#endif".toList⟩ .crlf,
        [mismatchWarning "tree_sitter_e" ⟨"p.c"⟩ "tree_sitter_é",
          foundLine "tree_sitter_é" ⟨42, 128⟩ ⟨"p.c"⟩]) := by
    decide +kernel
  exact ⟨_, _, _, rfl, h, extractDeclarations_exact_cut h⟩

end GrammarHeaders.Factory
