import GrammarHeaders.Proofs.AccessorLines
import GrammarHeaders.Proofs.Excision
import GrammarHeaders.Proofs.Reannotation
import GrammarHeaders.Header

namespace GrammarHeaders

namespace LineEnding

/-- The text has only this line ending: no carriage return at all, or one before every line
feed. -/
def Throughout : LineEnding → Text → Prop
  | lf, t => '\r' ∉ t
  | crlf, t => ∀ front rest, t = front ++ '\n' :: rest → front.getLast? = some '\r'

/-- The newline character that a text with this ending may not have on its own. -/
def stranger : LineEnding → Char
  | lf => '\r'
  | crlf => '\n'

theorem stranger_not_mem_of_newlineFree {t : Text} (h : Text.NewlineFree t) (e : LineEnding) :
    e.stranger ∉ t := by
  cases e with
  | lf => exact h.1
  | crlf => exact h.2

theorem throughout_of_not_mem {e : LineEnding} {t : Text} (h : e.stranger ∉ t) : e.Throughout t := by
  cases e with
  | lf => exact h
  | crlf =>
    rintro front rest rfl
    exact absurd (by simp [stranger]) h

theorem throughout_text (e : LineEnding) : e.Throughout e.text := by
  cases e with
  | lf => simp [Throughout, text]
  | crlf =>
    intro front rest h
    cases front with
    | nil => simp [text] at h
    | cons c more =>
      simp only [text, List.cons_append, List.cons.injEq] at h
      cases more with
      | nil => simp [← h.1]
      | cons => simp at h

theorem Throughout.append {e : LineEnding} {s t : Text} (hs : e.Throughout s)
    (ht : e.Throughout t) : e.Throughout (s ++ t) := by
  cases e with
  | lf =>
    have hs : '\r' ∉ s := hs
    have ht : '\r' ∉ t := ht
    simp [Throughout, hs, ht]
  | crlf =>
    intro front rest h
    obtain ⟨m, rfl, hm⟩ | ⟨m, rfl, hm⟩ := List.append_eq_append_iff.mp h
    · -- the line feed is in the second part, which does not start with it
      have hl := ht m rest hm
      simp [List.getLast?_append, hl]
    · cases m with
      | nil => exact absurd (ht [] rest (by simpa using hm.symm)) (by simp)
      | cons c m =>
        obtain ⟨rfl, rfl⟩ := List.cons.inj hm
        exact hs front m rfl

theorem Throughout.left {e : LineEnding} {s t : Text} (h : e.Throughout (s ++ t)) :
    e.Throughout s := by
  cases e with
  | lf => exact fun hs => h (List.mem_append_left t hs)
  | crlf =>
    rintro front rest rfl
    exact h front (rest ++ t) (by simp)

/-- The rest of a text keeps the ending unless the cut divides a carriage return from its line
feed. -/
theorem Throughout.right {e : LineEnding} {s t : Text} (h : e.Throughout (s ++ t))
    (hc : t.head? = some '\n' → s.getLast? ≠ some '\r') : e.Throughout t := by
  cases e with
  | lf => exact fun ht => h (List.mem_append_right s ht)
  | crlf =>
    rintro front rest rfl
    have hl := h (s ++ front) rest (by simp)
    rw [List.getLast?_append] at hl
    cases hf : front.getLast? with
    | some c => simpa [hf] using hl
    | none =>
      obtain rfl := List.getLast?_eq_none_iff.mp hf
      exact absurd (by simpa using hl) (hc rfl)

theorem Throughout.flatMap {α : Type} {e : LineEnding} {f : α → Text} {xs : List α}
    (h : ∀ x ∈ xs, e.Throughout (f x)) : e.Throughout (xs.flatMap f) := by
  induction xs with
  | nil => exact throughout_of_not_mem (by simp)
  | cons x xs ih =>
    rw [List.flatMap_cons]
    exact (h x (by simp)).append (ih fun y hy => h y (by simp [hy]))

/-- The ending of a text that has only one is the one detected. A text without any line feed
counts as `lf`. -/
theorem detect_of_throughout {e : LineEnding} {t : Text} (h : e.Throughout t)
    (hn : e = crlf → '\n' ∈ t) : detect t = e := by
  induction t with
  | nil => cases e <;> simp_all [detect]
  | cons c t ih =>
    by_cases hc : c = '\n'
    · subst hc
      cases e with
      | lf => rfl
      | crlf => exact absurd (h [] t rfl) (by simp)
    · by_cases hr : c = '\r'
      · subst hr
        cases e with
        | lf => exact absurd h (by simp [Throughout])
        | crlf => rfl
      · rw [detect]
        · refine ih (Throughout.right (s := [c]) h ?_) ?_
          · simp [hr]
          · intro he
            simpa [Ne.symm hc] using hn he
        · exact hc
        · exact hr

theorem detect_append {s : Text} (hs : Text.NewlineFree s) (t : Text) :
    detect (s ++ t) = detect t := by
  induction s with
  | nil => rfl
  | cons c s ih =>
    obtain ⟨hr, hn⟩ := hs
    simp only [List.mem_cons, not_or] at hr hn
    rw [List.cons_append, detect, ih ⟨hr.2, hn.2⟩]
    · exact fun h => hn.1 h.symm
    · exact fun h => hr.1 h.symm

theorem detect_text_append (e : LineEnding) (t : Text) : detect (e.text ++ t) = e := by
  cases e <;> rfl

end LineEnding

open LineEnding

namespace Line

/-- The line has nothing but the given ending. -/
structure Uses (l : Line) (e : LineEnding) : Prop where
  content : e.stranger ∉ l.content
  terminator : ∀ k ∈ l.terminator, k = e

instance (l : Line) (e : LineEnding) : Decidable (l.Uses e) :=
  decidable_of_iff (e.stranger ∉ l.content ∧ ∀ k ∈ l.terminator, k = e)
    ⟨fun h => ⟨h.1, h.2⟩, fun h => ⟨h.content, h.terminator⟩⟩

theorem Uses.ending {l : Line} {e : LineEnding} (h : l.Uses e) : e.Throughout l.ending := by
  unfold Line.ending
  cases ht : l.terminator with
  | none => exact throughout_of_not_mem (by simp)
  | some k =>
    obtain rfl := h.terminator k ht
    exact throughout_text k

theorem Uses.text {l : Line} {e : LineEnding} (h : l.Uses e) : e.Throughout l.text :=
  (throughout_of_not_mem h.content).append h.ending

end Line

namespace Text

theorem uses_of_throughout {e : LineEnding} {l : Line} (hl : Canonical [l])
    (h : e.Throughout l.text) : l.Uses e := by
  have hfree : '\n' ∉ l.content := by
    cases hl with
    | last hl => exact hl.newlineFree
    | cons hl _ => exact hl.newlineFree
  cases e with
  | lf =>
    have hr : '\r' ∉ l.content ++ l.ending := h
    refine ⟨fun hc => hr (List.mem_append_left _ hc), ?_⟩
    intro k hk
    cases k with
    | lf => rfl
    | crlf =>
      have hk : l.terminator = some .crlf := hk
      simp [Line.ending, hk, LineEnding.text] at hr
  | crlf =>
    refine ⟨hfree, ?_⟩
    intro k hk
    cases k with
    | crlf => rfl
    | lf =>
      -- a bare line feed after a carriage return would be part of the terminator
      have hlast := h l.content [] (by rw [Line.text_of_terminator hk]; rfl)
      cases hl with
      | last hl => simp [hl.unterminated] at hk
      | cons hl _ => exact absurd hlast (hl.noReturn hk)

theorem uses_of_mem_lines {e : LineEnding} {t : Text} (h : e.Throughout t) {l : Line}
    (hl : l ∈ lines t) : l.Uses e := by
  obtain ⟨as, bs, hs⟩ := List.append_of_mem hl
  have hc := canonical_lines t
  have ht := ofLines_lines t
  rw [hs] at hc ht
  obtain ⟨has, hc⟩ := hc.of_append (by simp)
  rw [ofLines_append, ofLines_cons] at ht
  rw [← ht] at h
  have hend : (ofLines as).getLast? ≠ some '\r' := fun hlast =>
    absurd (endsLine_ofLines has _ hlast) (by decide)
  have hline : Canonical [l] := by
    cases hc with
    | last hl => exact .last hl
    | cons hl _ => exact .cons hl .nil
  exact uses_of_throughout hline (h.right fun _ => hend).left

theorem throughout_iff {e : LineEnding} {t : Text} :
    e.Throughout t ↔ ∀ l ∈ lines t, l.Uses e := by
  constructor
  · exact fun h _ hl => uses_of_mem_lines h hl
  · intro h
    rw [← ofLines_lines t]
    exact Throughout.flatMap fun l hl => (h l hl).text

instance (e : LineEnding) (t : Text) : Decidable (e.Throughout t) :=
  decidable_of_iff _ throughout_iff.symm

end Text

namespace Annotator

theorem throughout_annotate {a : Annotator} {e : LineEnding} {t : Text}
    (hm : a.exportMacro.OnOneLine) (h : e.Throughout t) (hn : e = .crlf → '\n' ∈ t) :
    e.Throughout (a.annotate t).text := by
  rw [text_annotate]
  refine Throughout.flatMap ?_
  intro l hl
  rcases mem_withBlock.mp hl with hl | ⟨-, hl⟩
  · obtain ⟨k, hk, rfl⟩ := List.mem_map.mp hl
    have hk := (Text.uses_of_mem_lines h hk).text
    rw [text_markLine, mark]
    split
    · have hname := hm.name.append (by decide : Text.NewlineFree [' '])
      exact (throughout_of_not_mem (stranger_not_mem_of_newlineFree hname e)).append hk
    · exact hk
  · rw [detect_of_throughout h hn, ExportMacro.blockLines_eq] at hl
    obtain ⟨line, hline, rfl⟩ := List.mem_map.mp hl
    have hline := ExportMacro.newlineFree_definitionLines hm line hline
    exact Line.Uses.text ⟨stranger_not_mem_of_newlineFree hline e, by simp [eq_comm]⟩

end Annotator

theorem Accessor.uses_of_mem_fixLine {e : LineEnding} {l k : Line} (hl : l.Uses e)
    (hk : k ∈ fixLine e l) : k.Uses e := by
  rcases mem_fixLine hk with ⟨-, rfl⟩ | ⟨a, hp, rfl | rfl⟩
  · exact hl
  · have hcomment : Text.NewlineFree fixComment := by decide +kernel
    have hblank : Text.NewlineFree a.indent := by
      obtain ⟨spelled, hparts⟩ := parse?_eq_some_iff.mp hp
      exact ⟨fun h => absurd (hparts.indent _ h) (by decide),
        fun h => absurd (hparts.indent _ h) (by decide)⟩
    exact ⟨stranger_not_mem_of_newlineFree (hblank.append fixComment_shape.2.2) e, by simp [eq_comm]⟩
  · refine ⟨?_, hl.terminator⟩
    obtain ⟨spelled, hs, -⟩ := parse?_eq_some_iff.mp hp
    have hcast : Text.NewlineFree "return (sbyte**)((__Internal*)__Instance)->".toList := by decide
    have hcast := stranger_not_mem_of_newlineFree hcast e
    have hc := hl.content
    rw [hs] at hc
    simp only [List.mem_append, List.mem_cons, not_or] at hc
    simp only [fixed, List.mem_append, List.mem_cons, List.not_mem_nil, or_false, not_or]
    exact ⟨⟨⟨⟨hc.1, hcast⟩, hc.2.2.1⟩, hc.2.2.2.1⟩, hc.2.2.2.2⟩

theorem throughout_patchBindings {e : LineEnding} {t : Text} (h : e.Throughout t)
    (hn : e = .crlf → '\n' ∈ t) : e.Throughout (patchBindings t).text := by
  rw [text_patchBindings]
  refine Throughout.flatMap ?_
  intro k hk
  obtain ⟨l, hl, hk⟩ := List.mem_flatMap.mp hk
  rw [detect_of_throughout h hn] at hk
  exact (Accessor.uses_of_mem_fixLine (Text.uses_of_mem_lines h hl) hk).text

namespace Marker

theorem newlineFree_of_shape {x : Match} (h : signature.Shape x) : Text.NewlineFree x.matched := by
  cases h with
  | @signature stem _ hw =>
    have hopen : Text.NewlineFree signatureOpening := by decide
    have hfront : Text.NewlineFree grammarFunctionPrefix.toList := by decide
    have hstem : Text.NewlineFree stem :=
      ⟨fun h => absurd (hw _ h) (by decide), fun h => absurd (hw _ h) (by decide)⟩
    have hclose : Text.NewlineFree signatureClosing := by decide
    exact (hopen.append (hfront.append hstem)).append hclose

end Marker

namespace Factory

theorem EndsFactory.getLast? {b : Text} (h : EndsFactory b) : b.getLast? = some '\x7d' := by
  obtain ⟨x, hx, front, rfl⟩ := h
  cases hx with
  | ending e => simp [← List.append_assoc]

theorem Cut.IsFactory.throughout {c : Cut} {e : LineEnding} {head tail : Text}
    (hc : c.IsFactory tail) (ht : Marker.guardToken <+: tail) (h : e.Throughout (head ++ tail)) :
    e.Throughout c.front ∧ e.Throughout c.back := by
  obtain ⟨rest, rfl⟩ := ht
  have hw := hc.signature.whole
  have hhead : (Marker.guardToken ++ rest).head? = some '#' := rfl
  have htail : e.Throughout (Marker.guardToken ++ rest) :=
    h.right fun hn => absurd (hhead.symm.trans hn) (by decide)
  rw [hw] at htail
  refine ⟨htail.left, ?_⟩
  dsimp only at htail
  rw [← List.append_assoc, ← List.append_assoc] at htail
  refine htail.right fun _ => ?_
  rw [List.getLast?_append, hc.ending.getLast?]
  simp

end Factory

theorem Header.newlineFree_provenance {source : Path} (hs : Text.NewlineFree source.text.toList) :
    Text.NewlineFree (provenance source) := by
  have hopen : Text.NewlineFree "//Generated from ".toList := by decide
  have hslash : ∀ c ∈ source.text.toList.map fun c => if c = '\\' then '/' else c,
      c ≠ '\r' ∧ c ≠ '\n' := by
    intro c hc
    obtain ⟨d, hd, rfl⟩ := List.mem_map.mp hc
    split
    · decide
    · exact ⟨fun h => hs.1 (h ▸ hd), fun h => hs.2 (h ▸ hd)⟩
  exact hopen.append ⟨fun h => (hslash _ h).1 rfl, fun h => (hslash _ h).2 rfl⟩

theorem Header.detect_synthesize {source : Path} (hs : Text.NewlineFree source.text.toList)
    (moduleName : String) (declarations : Text) (newline : LineEnding) :
    LineEnding.detect (synthesize moduleName source declarations newline).text = newline := by
  simp only [synthesize, List.append_assoc]
  rw [detect_append (newlineFree_provenance hs), detect_text_append]

theorem Factory.throughout_synthesize {t out : Text} {expected : String} {check : NameCheck}
    {file source : Path} {log : List LogLine} {e : LineEnding}
    (h : extractDeclarations t expected check file = .ok (out, log))
    (hs : Text.NewlineFree source.text.toList) (he : e.Throughout t) (hn : e = .crlf → '\n' ∈ t)
    (moduleName : String) :
    e.Throughout (Header.synthesize moduleName source out (LineEnding.detect t)).text := by
  obtain ⟨span, tail, factory, warnings, hspan, htail, -, c, hc, -, rfl⟩ :=
    cut_of_extractDeclarations h
  obtain ⟨head, rest, hg, hrest⟩ := slice?_of_locateTail hspan
  obtain rfl := Option.some.inj (htail.symm.trans hrest)
  have hwhole : t = head ++ (Marker.guardToken ++ rest) := hg.whole
  rw [hwhole] at he
  obtain ⟨hfront, hback⟩ := hc.throughout (List.prefix_append _ _) he
  rw [← hwhole] at he
  rw [detect_of_throughout he hn]
  have hline := throughout_text e
  have hfree : ∀ u : Text, Text.NewlineFree u → e.Throughout u := fun u hu =>
    throughout_of_not_mem (stranger_not_mem_of_newlineFree hu e)
  have hcomment := hfree _ (Header.newlineFree_provenance hs)
  have hlexer := hfree lexerDeclaration (by decide)
  have hlanguage := hfree languageDeclaration (by decide)
  have hsignature := hfree c.signature (Marker.newlineFree_of_shape hc.signature.shape)
  have hsemicolon := hfree [';'] (by decide)
  simp only [Header.synthesize, Cut.declarations, List.append_assoc]
  exact hcomment.append (hline.append (hline.append (hlexer.append (hline.append
    (hlanguage.append (hline.append (hline.append (hfront.append (hsignature.append
      (hsemicolon.append (hline.append hback)))))))))))

/-- Whatever line ending a text has throughout, its rewrites have throughout. A header shows the
ending of its parser even if that is mixed, so a block that annotation puts in has it too. -/
theorem rewrites_keep_line_ending (t : Text) :
    (∀ e : LineEnding, e.Throughout t → (e = .crlf → '\n' ∈ t) →
      (∀ a : Annotator, a.exportMacro.OnOneLine → e.Throughout (a.annotate t).text) ∧
      e.Throughout (patchBindings t).text ∧
      ∀ (expected : String) (check : NameCheck) (file : Path) (out : Text) (log : List LogLine),
        Factory.extractDeclarations t expected check file = .ok (out, log) →
        ∀ (moduleName : String) (source : Path), Text.NewlineFree source.text.toList →
          e.Throughout (Header.synthesize moduleName source out (LineEnding.detect t)).text) ∧
    ∀ (expected : String) (check : NameCheck) (file : Path) (out : Text) (log : List LogLine),
      Factory.extractDeclarations t expected check file = .ok (out, log) →
      ∀ (moduleName : String) (source : Path) (header : Text), Text.NewlineFree source.text.toList →
        header = (Header.synthesize moduleName source out (LineEnding.detect t)).text →
        LineEnding.detect header = LineEnding.detect t ∧
          ∀ (a : Annotator) (i : Nat), a.anchor? (Text.lines header) = some i →
            (a.annotate header).text = a.markAll ((Text.lines header).take i) ++
              a.exportMacro.definitionBlock (LineEnding.detect t).text ++
              a.markAll ((Text.lines header).drop i) := by
  constructor
  · intro e he hn
    refine ⟨fun a hm => Annotator.throughout_annotate hm he hn, throughout_patchBindings he hn, ?_⟩
    intro expected check file out log h moduleName source hs
    exact Factory.throughout_synthesize h hs he hn moduleName
  · rintro expected check file out log - moduleName source header hs rfl
    have hd := Header.detect_synthesize hs moduleName out (LineEnding.detect t)
    refine ⟨hd, ?_⟩
    intro a i hi
    simp [Annotator.annotate, hi, hd]

theorem rewrites_keep_line_ending_crlf :
    ∃ (t out : Text) (log : List LogLine) (header : Text), t = "\r\r\n#ifdef __cplusplus\r\n".toList ++
        ("extern const TSLanguage *tree_sitter_a(void)".toList ++
          " \x7b\r return &language;\r\n\x7d\r\n#endif".toList) ∧
      LineEnding.crlf.Throughout t ∧ '\n' ∈ t ∧ ({} : ExportMacro).OnOneLine ∧
      Factory.extractDeclarations t "tree_sitter_a" .strict ⟨"p.c"⟩ = .ok (out, log) ∧
      Text.NewlineFree "p.c".toList ∧
      header = (Header.synthesize "a" ⟨"p.c"⟩ out (LineEnding.detect t)).text ∧
      LineEnding.crlf.Throughout (Annotator.annotate ⟨{}, "tree_sitter_", .skip⟩ t).text ∧
      LineEnding.crlf.Throughout (patchBindings t).text ∧
      LineEnding.crlf.Throughout header ∧ LineEnding.detect header = LineEnding.detect t := by
  obtain ⟨t, ht⟩ : ∃ t, t = "\r\r\n#ifdef __cplusplus\r\n".toList ++
      ("extern const TSLanguage *tree_sitter_a(void)".toList ++
        " \x7b\r return &language;\r\n\x7d\r\n#endif".toList) := ⟨_, rfl⟩
  have hextract : Factory.extractDeclarations t "tree_sitter_a" .strict ⟨"p.c"⟩ =
      .ok (Factory.Cut.declarations ⟨"#ifdef __cplusplus\r\n".toList,
          "extern const TSLanguage *tree_sitter_a(void)".toList, "tree_sitter_a".toList,
          " \x7b\r return &language;\r\n\x7d".toList, "\r\n#endif".toList⟩ .crlf,
        [Factory.foundLine "tree_sitter_a" ⟨23, 91⟩ ⟨"p.c"⟩]) := by
    subst ht
    decide +kernel
  have huniform : LineEnding.crlf.Throughout t := by
    subst ht
    decide +kernel
  have hnewline : '\n' ∈ t := by
    subst ht
    decide
  have hmacro : ({} : ExportMacro).OnOneLine := by decide
  have hsource : Text.NewlineFree "p.c".toList := by decide
  obtain ⟨hkept, hshown⟩ := rewrites_keep_line_ending t
  obtain ⟨hannotate, hpatch, hheader⟩ := hkept .crlf huniform fun _ => hnewline
  exact ⟨t, _, _, _, ht, huniform, hnewline, hmacro, hextract, hsource, rfl,
    hannotate ⟨{}, "tree_sitter_", .skip⟩ hmacro, hpatch,
    hheader _ _ _ _ _ hextract "a" ⟨"p.c"⟩ hsource,
    (hshown _ _ _ _ _ hextract "a" ⟨"p.c"⟩ _ hsource rfl).1⟩

end GrammarHeaders
