import GrammarHeaders.Proofs.Annotation

namespace GrammarHeaders.Annotator

variable {a : Annotator}

theorem not_due_markLine (a : Annotator) (l : Line) : ¬ a.Due (a.markLine l).content := by
  by_cases h : a.Due l.content
  · intro hd
    refine hd.2 ⟨l.content, ?_⟩
    simp [markLine_of_due h]
  · simp [markLine, h]

theorem not_due_blockLines (e : LineEnding) {l : Line} (h : l ∈ a.exportMacro.blockLines e) :
    ¬ a.Due l.content := by
  intro hd
  obtain ⟨c, rest, hc, hw⟩ := Declaration.isWord_of_isDeclaration hd.1
  have hs := a.exportMacro.blockLines_numberSign e l h
  rw [hc, List.head?_cons, Option.some.injEq] at hs
  subst c
  simp [Directive.isWord_numberSign] at hw

theorem mem_withBlock {block ls : List Line} {place : Option Nat} {l : Line} :
    l ∈ withBlock block place ls ↔ l ∈ ls ∨ place.isSome ∧ l ∈ block := by
  cases place with
  | none => simp [withBlock]
  | some i =>
    have hs : l ∈ ls ↔ l ∈ ls.take i ∨ l ∈ ls.drop i := by
      rw [← List.mem_append, List.take_append_drop]
    simp only [withBlock, List.mem_append, hs, Option.isSome_some, true_and]
    exact or_right_comm

theorem not_due_annotatedLines (a : Annotator) (t : Text) :
    ∀ l ∈ a.annotatedLines t, ¬ a.Due l.content := by
  intro l hl
  rcases mem_withBlock.mp hl with hl | ⟨-, hl⟩
  · obtain ⟨k, -, rfl⟩ := List.mem_map.mp hl
    exact not_due_markLine a k
  · exact not_due_blockLines _ hl

theorem isInclude_markLine (hid : Text.isIdentifier a.exportMacro.name.toList = true) (l : Line) :
    Directive.isInclude (a.markLine l).content = Directive.isInclude l.content := by
  by_cases h : a.Due l.content
  · obtain ⟨c, rest, hc, hw⟩ := Declaration.isWord_of_isDeclaration h.1
    obtain ⟨d, name, hd, hv⟩ := Text.isIdentifier_cons hid
    rw [markLine_of_due h]
    dsimp only
    rw [hd, hc, List.cons_append, Directive.isInclude_of_isWord hv, Directive.isInclude_of_isWord hw]
  · simp [markLine, h]

theorem definesMacro_markLine (hid : Text.isIdentifier a.exportMacro.name.toList = true) (l : Line) :
    a.definesMacro (a.markLine l).content = a.definesMacro l.content := by
  by_cases h : a.Due l.content
  · obtain ⟨c, rest, hc, hw⟩ := Declaration.isWord_of_isDeclaration h.1
    obtain ⟨d, name, hd, hv⟩ := Text.isIdentifier_cons hid
    rw [markLine_of_due h]
    simp only [definesMacro]
    rw [hd, hc, List.cons_append, Directive.definesMacro_of_isWord hv,
      Directive.definesMacro_of_isWord hw]
  · simp [markLine, h]

theorem exists_definesMacro_blockLines (hid : Text.isIdentifier a.exportMacro.name.toList = true)
    (e : LineEnding) : ∃ l ∈ a.exportMacro.blockLines e, a.definesMacro l.content = true := by
  obtain ⟨l, hl⟩ : ∃ l, (a.exportMacro.blockLines e)[7]? = some l := ⟨_, rfl⟩
  have hd := (ExportMacro.definesMacro_blockLines_iff hid hl).mpr (by simp)
  exact ⟨l, List.mem_of_getElem? hl, hd⟩

theorem anchor?_eq_none_of_definesMacro {ls : List Line} {l : Line} (hl : l ∈ ls)
    (h : a.definesMacro l.content = true) : a.anchor? ls = none := by
  rw [Option.eq_none_iff_forall_ne_some]
  intro i hi
  exact (anchor?_eq_some_iff.mp hi).undefined l hl h

theorem FirstAt.of_map {p : Text → Prop} {f : Line → Line} {ls : List Line} {i : Nat}
    (hf : ∀ l, p (f l).content ↔ p l.content) (h : FirstAt p (ls.map f) i) : FirstAt p ls i := by
  obtain ⟨before, l, after, hs, rfl, hl, hb⟩ := h
  obtain ⟨before, rest, rfl, rfl, hr⟩ := List.map_eq_append_iff.mp hs
  obtain ⟨k, after, rfl, rfl, rfl⟩ := List.map_eq_cons_iff.mp hr
  refine ⟨before, k, after, rfl, by simp, (hf k).mp hl, ?_⟩
  intro j hj hp
  exact hb (f j) (List.mem_map_of_mem hj) ((hf j).mpr hp)

theorem anchor?_annotatedLines (hid : Text.isIdentifier a.exportMacro.name.toList = true)
    (t : Text) : a.anchor? (a.annotatedLines t) = none := by
  cases h : a.anchor? (Text.lines t) with
  | some i =>
    obtain ⟨l, hl, hd⟩ := exists_definesMacro_blockLines hid (LineEnding.detect t)
    have hm : l ∈ a.annotatedLines t := mem_withBlock.mpr (.inr ⟨by simp [h], hl⟩)
    exact anchor?_eq_none_of_definesMacro hm hd
  | none =>
    have he : a.annotatedLines t = (Text.lines t).map a.markLine := by
      simp [annotatedLines, h, withBlock]
    rw [he, Option.eq_none_iff_forall_ne_some]
    intro i hi
    -- an anchor of the second pass would have been one of the first
    obtain ⟨hu, hp⟩ := anchor?_eq_some_iff.mp hi
    have hu : ∀ l ∈ Text.lines t, ¬ a.definesMacro l.content := by
      intro l hl
      rw [← definesMacro_markLine hid]
      exact hu _ (List.mem_map_of_mem hl)
    rcases hp with hp | ⟨-, -, before, l, after, hs, -, hl, -⟩
    · have hp := hp.of_map fun l => by rw [isInclude_markLine hid]
      have := anchor?_eq_some_iff.mpr ⟨hu, .inl hp⟩
      simp [h] at this
    · have hl : a.Due l.content := hl
      obtain ⟨k, -, rfl⟩ := List.mem_map.mp (hs ▸ by simp : l ∈ (Text.lines t).map a.markLine)
      exact not_due_markLine a k hl

theorem annotate_of_settled {t : Text} (ha : a.anchor? (Text.lines t) = none)
    (hd : ∀ l ∈ Text.lines t, ¬ a.Due l.content) : a.annotate t = ⟨t, false, 0⟩ := by
  have hk : ∀ l ∈ Text.lines t, a.markLine l = l := fun l hl => (a.markLine_eq_iff l).mpr (hd l hl)
  have ht : (a.annotate t).text = t := by
    rw [text_annotate, (a.annotatedLines_eq_iff t).mpr ⟨ha, hk⟩, Text.ofLines_lines]
  have hp : (a.annotate t).prefixed = 0 := by
    rw [prefixed_annotate, List.countP_eq_zero]
    simpa using hk
  have hi : (a.annotate t).macroInserted = false := by simp [annotate, ha]
  calc a.annotate t = ⟨(a.annotate t).text, (a.annotate t).macroInserted, (a.annotate t).prefixed⟩ := rfl
    _ = ⟨t, false, 0⟩ := by rw [ht, hi, hp]

theorem annotate_idempotent (a : Annotator) (t : Text)
    (hid : Text.isIdentifier a.exportMacro.name.toList = true) (hm : a.exportMacro.OnOneLine) :
    a.annotate (a.annotate t).text = ⟨(a.annotate t).text, false, 0⟩ := by
  have hl := lines_annotate hm t
  apply annotate_of_settled
  · rw [hl]
    exact anchor?_annotatedLines hid t
  · rw [hl]
    exact not_due_annotatedLines a t

theorem annotate_idempotent_default :
    Text.isIdentifier ({} : ExportMacro).name.toList = true ∧ ({} : ExportMacro).OnOneLine ∧
      annotate ⟨{}, "ts_", .beforeFirstDeclaration⟩ (annotate ⟨{}, "ts_", .beforeFirstDeclaration⟩
        "x\r\nvoid ts_a(void);\rint ts_b(\nint ts_b(".toList).text =
      ⟨(annotate ⟨{}, "ts_", .beforeFirstDeclaration⟩
        "x\r\nvoid ts_a(void);\rint ts_b(\nint ts_b(".toList).text, false, 0⟩ :=
  ⟨by decide, by decide, annotate_idempotent _ _ (by decide) (by decide)⟩

end GrammarHeaders.Annotator
