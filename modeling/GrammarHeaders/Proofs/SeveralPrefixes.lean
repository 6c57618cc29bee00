import GrammarHeaders.Proofs.BlockPlacement

namespace GrammarHeaders.Annotator

variable {a b : Annotator} {t : Text} {ls : List Line} {l : Line}

/-- A line that has got the macro for one prefix is not due for another, and one that has not is due
as it was. -/
theorem due_markLine_iff (hab : b.exportMacro = a.exportMacro) :
    b.Due (a.markLine l).content ↔ b.Due l.content ∧ ¬ a.Due l.content := by
  by_cases h : a.Due l.content
  · have hexported : ¬ b.Due (a.markLine l).content := fun hd => hd.2 ⟨l.content, by
      simp [markLine_of_due h, hab]⟩
    simp [h, hexported]
  · simp [markLine, h]

theorem markLine_markLine (hab : b.exportMacro = a.exportMacro) :
    b.markLine (a.markLine l) = if a.Due l.content ∨ b.Due l.content then
      { l with content := a.exportMacro.name.toList ++ ' ' :: l.content } else l := by
  by_cases ha : a.Due l.content
  · have hb : ¬ b.Due (a.markLine l).content := fun hd => ((due_markLine_iff hab).mp hd).2 ha
    rw [(b.markLine_eq_iff _).mpr hb, markLine_of_due ha, if_pos (.inl ha)]
  · rw [(a.markLine_eq_iff l).mpr ha]
    by_cases hb : b.Due l.content
    · rw [markLine_of_due hb, if_pos (.inr hb), hab]
    · rw [(b.markLine_eq_iff l).mpr hb, if_neg (not_or.mpr ⟨ha, hb⟩)]

/-- Where the block goes does not depend on the prefix, if it goes in front of include directives
only. -/
theorem anchor?_eq_of_skip (hab : b.exportMacro = a.exportMacro) (ha : a.missingAnchor = .skip)
    (hb : b.missingAnchor = .skip) : b.anchor? ls = a.anchor? ls := by
  simp only [anchor?, definesMacro, hab, ha, hb]

theorem isSome_anchor?_iff_of_skip (ha : a.missingAnchor = .skip) :
    (a.anchor? ls).isSome = true ↔ (∃ l ∈ ls, Directive.isInclude l.content = true) ∧
      ∀ l ∈ ls, a.definesMacro l.content = false := by
  rw [Option.isSome_iff_exists]
  constructor
  · rintro ⟨i, hi⟩
    obtain ⟨hundefined, ⟨before, l, after, rfl, -, hl, -⟩ | ⟨hp, -⟩⟩ := anchor?_eq_some_iff.mp hi
    · exact ⟨⟨l, by simp, hl⟩, fun k hk => by simpa using hundefined k hk⟩
    · rw [ha] at hp
      cases hp
  · rintro ⟨⟨l, hl, hinclude⟩, hundefined⟩
    obtain ⟨i, hi⟩ := exists_firstAt (p := fun content => Directive.isInclude content) hl hinclude
    exact ⟨i, anchor?_eq_some_iff.mpr ⟨fun k hk => by simp [hundefined k hk], .inl hi⟩⟩

theorem map_withBlock {f : Line → Line} {block : List Line} (h : ∀ l ∈ block, f l = l)
    (place : Option Nat) : (withBlock block place ls).map f = withBlock block place (ls.map f) := by
  have hblock : block.map f = block := by
    have hid := List.map_congr_left (g := id) h
    rwa [List.map_id] at hid
  cases place with
  | none => rfl
  | some i => simp only [withBlock, List.map_append, List.map_take, List.map_drop, hblock]

theorem countP_withBlock {p : Line → Bool} {block : List Line} (h : ∀ l ∈ block, ¬ p l)
    (place : Option Nat) : (withBlock block place ls).countP p = ls.countP p := by
  have hblock : block.countP p = 0 := List.countP_eq_zero.mpr h
  cases place with
  | none => rfl
  | some i =>
    rw [withBlock, List.countP_append, List.countP_append, hblock, Nat.add_zero,
      ← List.countP_append, List.take_append_drop]

section TwoPasses

variable (hid : Text.isIdentifier a.exportMacro.name.toList = true) (hm : a.exportMacro.OnOneLine)
  (hab : b.exportMacro = a.exportMacro) (ha : a.missingAnchor = .skip) (hb : b.missingAnchor = .skip)

include hid ha hb hab in
theorem anchor?_annotatedLines_of_skip (t : Text) : b.anchor? (a.annotatedLines t) = none :=
  (anchor?_eq_of_skip hab ha hb).trans (anchor?_annotatedLines hid t)

include hid hm hab ha hb in
/-- The lines after two passes: the block where the first one has put it, and in front of it and
behind it the lines that one of the passes has marked. -/
theorem lines_annotate_annotate (t : Text) :
    Text.lines (b.annotate (a.annotate t).text).text =
      withBlock (a.exportMacro.blockLines (LineEnding.detect t)) (a.anchor? (Text.lines t))
        ((Text.lines t).map fun l => b.markLine (a.markLine l)) := by
  have hblock : ∀ l ∈ a.exportMacro.blockLines (LineEnding.detect t), b.markLine l = l :=
    fun l hl => (b.markLine_eq_iff l).mpr (not_due_blockLines _ (hab ▸ hl))
  rw [lines_annotate (hab ▸ hm), annotatedLines, lines_annotate hm,
    anchor?_annotatedLines_of_skip hid hab ha hb, withBlock, annotatedLines, map_withBlock hblock,
    List.map_map]
  rfl

include hid hm hab ha hb in
theorem macroInserted_annotate_annotate (t : Text) :
    (b.annotate (a.annotate t).text).macroInserted = false := by
  simp [annotate.eq_def b, lines_annotate hm, anchor?_annotatedLines_of_skip hid hab ha hb]

include hm hab in
theorem prefixed_annotate_annotate (t : Text) :
    (b.annotate (a.annotate t).text).prefixed =
      (Text.lines t).countP fun l => decide (b.Due l.content ∧ ¬ a.Due l.content) := by
  have hcount : ∀ (c : Annotator) (u : Text), (c.annotate u).prefixed =
      (Text.lines u).countP fun l => decide (c.Due l.content) := fun c u => by
    simp [annotate, ← needsMacro_iff]
  have hblock : ∀ l ∈ a.exportMacro.blockLines (LineEnding.detect t), ¬ decide (b.Due l.content) :=
    fun l hl => by simpa using not_due_blockLines _ (hab ▸ hl)
  rw [hcount, lines_annotate hm, annotatedLines, countP_withBlock hblock, List.countP_map]
  simp only [Function.comp_def, due_markLine_iff hab]

end TwoPasses

/-- The line is a declaration for one of two prefixes, and does not start with the macro and a
space. -/
def isDueForEither (m : ExportMacro) (p q : String) (content : Text) : Bool :=
  (Declaration.isDeclaration p.toList content || Declaration.isDeclaration q.toList content) &&
    !isExported m.name.toList content

theorem isDueForEither_iff {m : ExportMacro} {p q : String} {content : Text} :
    isDueForEither m p q content = true ↔
      Due ⟨m, p, .skip⟩ content ∨ Due ⟨m, q, .skip⟩ content := by
  simp only [isDueForEither, Bool.and_eq_true, Bool.or_eq_true, Bool.not_eq_true', Bool.eq_false_iff,
    Ne, isExported_iff, Due, or_and_right]

theorem isDueForEither_comm (m : ExportMacro) (p q : String) :
    isDueForEither m p q = isDueForEither m q p := by
  funext content
  simp only [isDueForEither, Bool.or_comm]

theorem countP_due_add (m : ExportMacro) (p q : String) (ls : List Line) :
    (ls.countP fun l => decide (Due ⟨m, p, .skip⟩ l.content)) +
        (ls.countP fun l => decide (Due ⟨m, q, .skip⟩ l.content ∧ ¬ Due ⟨m, p, .skip⟩ l.content)) =
      ls.countP fun l => isDueForEither m p q l.content := by
  induction ls with
  | nil => rfl
  | cons l ls ih =>
    have hl : isDueForEither m p q l.content = true ↔ _ := isDueForEither_iff
    simp only [List.countP_cons, ← ih, hl]
    -- a line that is due for both counts in the first sum only
    by_cases hp : Due ⟨m, p, .skip⟩ l.content <;> by_cases hq : Due ⟨m, q, .skip⟩ l.content <;>
      simp [hp, hq] <;> omega

/-- The lines after the passes for `p` and for `q`. The order of the prefixes is in `isDueForEither`
only. -/
theorem lines_annotate_prefixes {m : ExportMacro} (p q : String)
    (hid : Text.isIdentifier m.name.toList = true) (hm : m.OnOneLine) (t : Text) :
    Text.lines (annotate ⟨m, q, .skip⟩ (annotate ⟨m, p, .skip⟩ t).text).text =
      withBlock (m.blockLines (LineEnding.detect t)) (anchor? ⟨m, "", .skip⟩ (Text.lines t))
        ((Text.lines t).map fun l => if isDueForEither m p q l.content then
          { l with content := m.name.toList ++ ' ' :: l.content } else l) := by
  rw [lines_annotate_annotate (a := ⟨m, p, .skip⟩) (b := ⟨m, q, .skip⟩) hid hm rfl rfl rfl,
    anchor?_eq_of_skip (a := ⟨m, "", .skip⟩) (b := ⟨m, p, .skip⟩) rfl rfl rfl]
  simp only [markLine_markLine (a := ⟨m, p, .skip⟩) (b := ⟨m, q, .skip⟩) rfl, isDueForEither_iff]

/-- A header that is annotated for two prefixes, one after the other, has the same text in both
orders: one block, if there is a place for it and no definition of the macro, and one mark in front of
each line that is due for one of the prefixes. -/
theorem annotations_commute (m : ExportMacro) (p q : String) (t : Text)
    (hid : Text.isIdentifier m.name.toList = true) (hm : m.OnOneLine) {first second : Annotated}
    (hf : first = annotate ⟨m, p, .skip⟩ t) (hs : second = annotate ⟨m, q, .skip⟩ first.text) :
    second.text = (annotate ⟨m, p, .skip⟩ (annotate ⟨m, q, .skip⟩ t).text).text ∧
      (first.macroInserted.toNat + second.macroInserted.toNat = 1 ↔
        (∃ l ∈ Text.lines t, Directive.isInclude l.content = true) ∧
          ∀ l ∈ Text.lines t, Directive.definesMacro m.name.toList l.content = false) ∧
      first.prefixed + second.prefixed =
        (Text.lines t).countP (fun l => isDueForEither m p q l.content) ∧
      ∃ place : Option Nat,
        place.toList.length = first.macroInserted.toNat + second.macroInserted.toNat ∧
        Text.lines second.text = withBlock (m.blockLines (LineEnding.detect t)) place
          ((Text.lines t).map fun l => if isDueForEither m p q l.content then
            { l with content := m.name.toList ++ ' ' :: l.content } else l) := by
  subst hf hs
  have hlines := lines_annotate_prefixes p q hid hm t
  have hinserted : (annotate ⟨m, p, .skip⟩ t).macroInserted =
      (anchor? ⟨m, "", .skip⟩ (Text.lines t)).isSome := by
    rw [annotate, anchor?_eq_of_skip (a := ⟨m, "", .skip⟩) (b := ⟨m, p, .skip⟩) rfl rfl rfl]
  have hnotAgain := macroInserted_annotate_annotate (a := ⟨m, p, .skip⟩) (b := ⟨m, q, .skip⟩) hid hm
    rfl rfl rfl t
  refine ⟨?_, ?_, ?_, anchor? ⟨m, "", .skip⟩ (Text.lines t), ?_, hlines⟩
  · have hswapped := lines_annotate_prefixes q p hid hm t
    rw [isDueForEither_comm m q p, ← hlines] at hswapped
    rw [← Text.ofLines_lines (annotate _ _).text, ← hswapped, Text.ofLines_lines]
  · rw [hnotAgain, hinserted]
    have hiff : _ ↔ _ ∧ ∀ l ∈ Text.lines t, Directive.definesMacro m.name.toList l.content = false :=
      isSome_anchor?_iff_of_skip (a := ⟨m, "", .skip⟩) rfl
    rw [← hiff]
    cases anchor? ⟨m, "", .skip⟩ (Text.lines t) <;> simp
  · rw [prefixed_annotate_annotate (a := ⟨m, p, .skip⟩) (b := ⟨m, q, .skip⟩) hm rfl,
      ← countP_due_add]
    simp [annotate, ← needsMacro_iff]
  · rw [hnotAgain, hinserted]
    cases anchor? ⟨m, "", .skip⟩ (Text.lines t) <;> rfl

theorem annotations_commute_nested :
    let first := annotate ⟨{}, "ts_", .skip⟩ "#include <a.h>\nvoid ts_a(void);\nint b(void);\n".toList
    let second := annotate ⟨{}, "", .skip⟩ first.text
    Text.isIdentifier ({} : ExportMacro).name.toList = true ∧ ({} : ExportMacro).OnOneLine ∧
      second.text = (annotate ⟨{}, "ts_", .skip⟩ (annotate ⟨{}, "", .skip⟩
        "#include <a.h>\nvoid ts_a(void);\nint b(void);\n".toList).text).text ∧
      first.macroInserted.toNat + second.macroInserted.toNat = 1 ∧
      first.prefixed + second.prefixed = 2 := by
  intro first second
  obtain ⟨htext, hinserted, hprefixed, -⟩ := annotations_commute {} "ts_" ""
    "#include <a.h>\nvoid ts_a(void);\nint b(void);\n".toList (by decide) (by decide)
    (rfl : first = _) (rfl : second = _)
  refine ⟨by decide, by decide, htext, hinserted.mpr ?_, hprefixed.trans ?_⟩
  · decide +kernel
  · decide +kernel

end GrammarHeaders.Annotator
