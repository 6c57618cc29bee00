import GrammarHeaders.Proofs.Reannotation

namespace GrammarHeaders.Annotator

/-- The header is the lines `before`, the due line `l` and the lines `after`, and the block is
put in front of `l`, which is the first line to get the macro. -/
structure DefinesFirst (a : Annotator) (t : Text) (r : Annotated) (before : List Line) (l : Line)
    (after : List Line) : Prop where
  inserted : r.macroInserted = true
  split : Text.lines t = before ++ l :: after
  due : a.Due l.content
  first : ∀ k ∈ before, ¬ a.Due k.content
  lines : Text.lines r.text = before ++ (a.exportMacro.blockLines (LineEnding.detect t) ++
    { l with content := a.exportMacro.name.toList ++ ' ' :: l.content } :: after.map a.markLine)
  once : ∀ front back,
    r.text = front ++ (a.exportMacro.definitionBlock (LineEnding.detect t).text ++ back) ↔
      front = Text.ofLines before ∧ back = Text.ofLines ((l :: after).map a.markLine)

theorem exists_firstAt {p : Text → Bool} {ls : List Line} {l : Line} (hl : l ∈ ls)
    (hp : p l.content = true) : ∃ i, FirstAt (fun content => p content) ls i := by
  cases h : ls.findIdx? fun l => p l.content with
  | some i => exact ⟨i, findIdx?_eq_some_iff_firstAt.mp h⟩
  | none =>
    have hn := List.findIdx?_eq_none_iff.mp h l hl
    simp [hp] at hn

theorem annotatedLines_of_due {a : Annotator} {t : Text} {before after : List Line} {l : Line}
    (ha : a.anchor? (Text.lines t) = some before.length) (hs : Text.lines t = before ++ l :: after)
    (hf : ∀ k ∈ before, ¬ a.Due k.content) :
    a.annotatedLines t = before ++ (a.exportMacro.blockLines (LineEnding.detect t) ++
      (l :: after).map a.markLine) := by
  have hb : before.map a.markLine = before.map id :=
    List.map_congr_left fun k hk => (a.markLine_eq_iff k).mpr (hf k hk)
  rw [annotatedLines, ha, hs, List.map_append, hb, List.map_id, withBlock, List.take_left, List.drop_left,
    List.append_assoc]

theorem exists_definesFirst {a : Annotator} {t : Text}
    (hid : Text.isIdentifier a.exportMacro.name.toList = true) (hm : a.exportMacro.OnOneLine)
    (hp : a.missingAnchor = .beforeFirstDeclaration)
    (hi : ∀ l ∈ Text.lines t, ¬ Directive.isInclude l.content)
    (hu : ∀ l ∈ Text.lines t, ¬ a.definesMacro l.content) {k : Line} (hk : k ∈ Text.lines t)
    (hd : a.Due k.content) : ∃ before l after, a.DefinesFirst t (a.annotate t) before l after := by
  obtain ⟨i, hf⟩ := exists_firstAt hk ((a.needsMacro_iff _).mpr hd)
  have hf : FirstAt a.Due (Text.lines t) i := (FirstAt.congr a.needsMacro_iff).mp hf
  have ha : a.anchor? (Text.lines t) = some i := anchor?_eq_some_iff.mpr ⟨hu, .inr ⟨hp, hi, hf⟩⟩
  obtain ⟨before, l, after, hs, rfl, hl, hb⟩ := hf
  have hlines := annotatedLines_of_due ha hs hb
  refine ⟨before, l, after, by simp [annotate, ha], hs, hl, hb, ?_, ?_⟩
  · rw [lines_annotate hm, hlines, List.map_cons, markLine_of_due hl]
  · intro front back
    have hbefore : ∀ k ∈ before, ¬ Directive.definesMacro a.exportMacro.name.toList k.content :=
      fun k hk => hu k (by simp [hs, hk])
    have hafter : ∀ k ∈ (l :: after).map a.markLine,
        ¬ Directive.definesMacro a.exportMacro.name.toList k.content := by
      intro k hk
      obtain ⟨j, hj, rfl⟩ := List.mem_map.mp hk
      have hj := hu j (by rw [hs]; exact List.mem_append_right before hj)
      rwa [← definesMacro_markLine hid] at hj
    have hc := canonical_annotatedLines hm t
    rw [hlines] at hc
    rw [text_annotate, hlines]
    constructor
    · intro h
      obtain rfl := ExportMacro.front_of_definitionBlock hid hm hbefore hafter hc h
      rw [Text.ofLines_append, Text.ofLines_append, ExportMacro.ofLines_blockLines] at h
      exact ⟨rfl, (List.append_cancel_left (List.append_cancel_left h)).symm⟩
    · rintro ⟨rfl, rfl⟩
      rw [Text.ofLines_append, Text.ofLines_append, ExportMacro.ofLines_blockLines]

end GrammarHeaders.Annotator
