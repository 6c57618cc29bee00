import GrammarHeaders.Proofs.DefinitionBlock

namespace GrammarHeaders

namespace Annotator

/-- The line is a declaration that does not start with the macro and a space. -/
def Due (a : Annotator) (content : Text) : Prop :=
  Declaration.isDeclaration a.functionPrefix.toList content = true ∧
    ¬ a.exportMacro.name.toList ++ [' '] <+: content

theorem isExported_iff (name line : Text) : isExported name line = true ↔ name ++ [' '] <+: line := by
  unfold isExported
  constructor
  · intro h
    split at h
    · rename_i rest heq
      rw [List.isPrefixOf?_eq_some_iff_append_eq] at heq
      exact ⟨rest, by simpa using heq⟩
    · exact absurd h (by simp)
  · rintro ⟨rest, rfl⟩
    have hp : name.isPrefixOf? (name ++ [' '] ++ rest) = some (' ' :: rest) :=
      List.isPrefixOf?_eq_some_iff_append_eq.mpr (by simp)
    simp only [hp]

theorem needsMacro_iff (a : Annotator) (content : Text) :
    a.needsMacro content = true ↔ a.Due content := by
  rw [needsMacro, Bool.and_eq_true, Bool.not_eq_true', Bool.eq_false_iff, Ne, isExported_iff, Due,
    and_comm]

instance (a : Annotator) (content : Text) : Decidable (a.Due content) :=
  decidable_of_iff _ (a.needsMacro_iff content)

/-- A line, with the macro in front if it is due. -/
def markLine (a : Annotator) (l : Line) : Line :=
  if a.Due l.content then { l with content := a.exportMacro.name.toList ++ ' ' :: l.content } else l

theorem markLine_of_due {a : Annotator} {l : Line} (h : a.Due l.content) :
    a.markLine l = { l with content := a.exportMacro.name.toList ++ ' ' :: l.content } :=
  if_pos h

theorem text_markLine (a : Annotator) (l : Line) : (a.markLine l).text = a.mark l := by
  by_cases h : a.Due l.content
  · have hn : a.needsMacro l.content = true := (a.needsMacro_iff _).mpr h
    simp [markLine, mark, h, hn, Line.text, Line.ending]
  · have hn : a.needsMacro l.content = false := by
      rw [Bool.eq_false_iff, Ne, needsMacro_iff]
      exact h
    simp [markLine, mark, h, hn]

theorem markAll_eq (a : Annotator) (ls : List Line) :
    a.markAll ls = Text.ofLines (ls.map a.markLine) := by
  simp [markAll, Text.ofLines, List.flatMap_map, text_markLine]

theorem Due.ne_nil {a : Annotator} {content : Text} (h : a.Due content) : content ≠ [] := by
  obtain ⟨c, rest, rfl, -⟩ := Declaration.isWord_of_isDeclaration h.1
  simp

theorem markLine_closed {a : Annotator} (hm : a.exportMacro.OnOneLine) (l : Line) (h : l.Closed) :
    (a.markLine l).Closed := by
  unfold markLine
  split
  · rename_i hd
    have hn : '\n' ∉ a.exportMacro.name.toList ++ [' '] := by simp [hm.name.2]
    simpa using h.prepend hn hd.ne_nil
  · exact h

theorem markLine_open {a : Annotator} (hm : a.exportMacro.OnOneLine) (l : Line) (h : l.Open) :
    (a.markLine l).Open := by
  unfold markLine
  split
  · exact ⟨by simp [hm.name.2, h.newlineFree], h.unterminated, by simp⟩
  · exact h

/-- The line with number `i` is the first one that the predicate holds of. -/
def FirstAt (p : Text → Prop) (ls : List Line) (i : Nat) : Prop :=
  ∃ before l after, ls = before ++ l :: after ∧ before.length = i ∧ p l.content ∧
    ∀ k ∈ before, ¬ p k.content

/-- Where the block goes: no line defines the macro, and the line is the first include directive
or, where there is none and the annotator says so, the first declaration that is due. -/
structure IsAnchor (a : Annotator) (ls : List Line) (i : Nat) : Prop where
  undefined : ∀ l ∈ ls, ¬ a.definesMacro l.content
  place : FirstAt (fun content => Directive.isInclude content) ls i ∨
    a.missingAnchor = .beforeFirstDeclaration ∧ (∀ l ∈ ls, ¬ Directive.isInclude l.content) ∧
      FirstAt a.Due ls i

theorem findIdx?_eq_some_iff_firstAt {p : Text → Bool} {ls : List Line} {i : Nat} :
    ls.findIdx? (fun l => p l.content) = some i ↔ FirstAt (fun content => p content) ls i := by
  constructor
  · intro h
    obtain ⟨hi, hp, hb⟩ := List.findIdx?_eq_some_iff_getElem.mp h
    refine ⟨ls.take i, ls[i], ls.drop (i + 1), by simp, by simp; omega, hp, ?_⟩
    intro k hk
    obtain ⟨j, hj, rfl⟩ := List.getElem_of_mem hk
    simp only [List.length_take] at hj
    simpa using hb j (by omega)
  · rintro ⟨before, l, after, rfl, rfl, hl, hb⟩
    rw [List.findIdx?_append, List.findIdx?_eq_none_iff.mpr fun k hk => by simpa using hb k hk]
    simp [List.findIdx?_cons, hl]

theorem FirstAt.congr {p q : Text → Prop} (h : ∀ content, p content ↔ q content) {ls : List Line}
    {i : Nat} : FirstAt p ls i ↔ FirstAt q ls i := by
  simp only [FirstAt, h]

theorem anchor?_eq_some_iff {a : Annotator} {ls : List Line} {i : Nat} :
    a.anchor? ls = some i ↔ a.IsAnchor ls i := by
  have hd : (ls.any fun l => a.definesMacro l.content) = true ↔
      ¬ ∀ l ∈ ls, ¬ a.definesMacro l.content := by
    simp
  have hi : (ls.findIdx? fun l => Directive.isInclude l.content) = some i ↔
      FirstAt (fun content => Directive.isInclude content) ls i := findIdx?_eq_some_iff_firstAt
  have hu : (ls.findIdx? fun l => a.needsMacro l.content) = some i ↔ FirstAt a.Due ls i :=
    findIdx?_eq_some_iff_firstAt.trans (FirstAt.congr a.needsMacro_iff)
  have hn : (ls.findIdx? fun l => Directive.isInclude l.content) = none ↔
      ∀ l ∈ ls, ¬ Directive.isInclude l.content := by
    simp [List.findIdx?_eq_none_iff]
  have hp : a.IsAnchor ls i ↔ (∀ l ∈ ls, ¬ a.definesMacro l.content) ∧
      ((ls.findIdx? fun l => Directive.isInclude l.content) = some i ∨
        a.missingAnchor = .beforeFirstDeclaration ∧
          (ls.findIdx? fun l => Directive.isInclude l.content) = none ∧
            (ls.findIdx? fun l => a.needsMacro l.content) = some i) := by
    rw [hi, hn, hu]
    exact ⟨fun h => ⟨h.undefined, h.place⟩, fun h => ⟨h.1, h.2⟩⟩
  rw [hp, anchor?]
  split
  · rename_i h
    exact ⟨by simp, fun hc => absurd hc.1 (hd.mp h)⟩
  · rename_i h
    have hf : ∀ l ∈ ls, ¬ a.definesMacro l.content := by
      by_contra hc
      exact h (hd.mpr hc)
    rw [and_iff_right hf]
    cases ls.findIdx? fun l => Directive.isInclude l.content with
    | some j => simp
    | none => cases a.missingAnchor <;> simp

theorem IsAnchor.lt {a : Annotator} {ls : List Line} {i : Nat} (h : a.IsAnchor ls i) :
    i < ls.length := by
  obtain ⟨before, l, after, rfl, rfl, -⟩ | ⟨-, -, before, l, after, rfl, rfl, -⟩ := h.place <;> simp

/-- Lines with a block in front of one of them, or with none. -/
def withBlock (block : List Line) : Option Nat → List Line → List Line
  | none, ls => ls
  | some i, ls => ls.take i ++ block ++ ls.drop i

/-- The lines of the annotated header. -/
def annotatedLines (a : Annotator) (t : Text) : List Line :=
  withBlock (a.exportMacro.blockLines (LineEnding.detect t)) (a.anchor? (Text.lines t))
    ((Text.lines t).map a.markLine)

theorem text_annotate (a : Annotator) (t : Text) :
    (a.annotate t).text = Text.ofLines (a.annotatedLines t) := by
  unfold annotate annotatedLines
  cases h : a.anchor? (Text.lines t) with
  | none => simp [h, withBlock, markAll_eq]
  | some i => simp [h, withBlock, markAll_eq, ExportMacro.ofLines_blockLines]

theorem canonical_annotatedLines {a : Annotator} (hm : a.exportMacro.OnOneLine) (t : Text) :
    Text.Canonical (a.annotatedLines t) := by
  have hc : Text.Canonical ((Text.lines t).map a.markLine) :=
    (Text.canonical_lines t).map (markLine_closed hm) (markLine_open hm)
  unfold annotatedLines
  cases h : a.anchor? (Text.lines t) with
  | none => exact hc
  | some i =>
    have hi : i < (Text.lines t).length := (anchor?_eq_some_iff.mp h).lt
    have hs := hc
    rw [← List.take_append_drop i ((Text.lines t).map a.markLine)] at hs
    obtain ⟨hf, hb⟩ := hs.of_append (by simpa using hi)
    refine Text.Canonical.append ?_ hb
    intro l hl
    rcases List.mem_append.mp hl with hl | hl
    · exact hf l hl
    · exact ExportMacro.closed_blockLines hm _ l hl

theorem lines_annotate {a : Annotator} (hm : a.exportMacro.OnOneLine) (t : Text) :
    Text.lines (a.annotate t).text = a.annotatedLines t := by
  rw [text_annotate, Text.lines_ofLines (canonical_annotatedLines hm t)]

/-- Delete the nine lines of a block. -/
def withoutBlock : Option Nat → List Line → List Line
  | none, ls => ls
  | some i, ls => ls.take i ++ ls.drop (i + 9)

theorem withoutBlock_withBlock {block ls : List Line} {place : Option Nat} (hb : block.length = 9)
    (hp : ∀ i, place = some i → i ≤ ls.length) :
    withoutBlock place (withBlock block place ls) = ls := by
  cases place with
  | none => rfl
  | some i =>
    have hi : (ls.take i).length = i := List.length_take_of_le (hp i rfl)
    simp only [withoutBlock, withBlock, List.append_assoc]
    rw [List.take_left' hi, ← List.drop_drop, List.drop_left' hi, List.drop_left' hb,
      List.take_append_drop]

/-- Delete the macro and the space from a line that got them. -/
def unmark (a : Annotator) (marked : Bool) (l : Line) : Line :=
  if marked then { l with content := l.content.drop (a.exportMacro.name.toList.length + 1) } else l

theorem unmark_markLine (a : Annotator) (l : Line) :
    a.unmark (decide (a.Due l.content)) (a.markLine l) = l := by
  by_cases h : a.Due l.content
  · have hd : (a.exportMacro.name.toList ++ ' ' :: l.content).drop
        (a.exportMacro.name.toList.length + 1) = l.content := by
      rw [← List.drop_drop, List.drop_left, List.drop_one, List.tail_cons]
    simp only [unmark, markLine, h, decide_true, if_true, hd]
  · simp [unmark, markLine, h]

theorem markLine_eq_iff (a : Annotator) (l : Line) : a.markLine l = l ↔ ¬ a.Due l.content := by
  constructor
  · intro h hd
    have hl := congrArg (fun k => k.content.length) h
    rw [markLine_of_due hd] at hl
    simp only [List.length_append, List.length_cons] at hl
    omega
  · intro hd
    simp [markLine, hd]

theorem prefixed_annotate (a : Annotator) (t : Text) :
    (a.annotate t).prefixed = (Text.lines t).countP fun l => a.markLine l ≠ l := by
  simp [annotate, markLine_eq_iff, ← needsMacro_iff]

theorem zipWith_unmark_map_markLine (a : Annotator) (ls : List Line) :
    List.zipWith a.unmark (ls.map fun l => decide (a.Due l.content)) (ls.map a.markLine) = ls := by
  simp [List.zipWith_map, unmark_markLine]

theorem annotatedLines_eq_iff (a : Annotator) (t : Text) :
    a.annotatedLines t = Text.lines t ↔
      a.anchor? (Text.lines t) = none ∧ ∀ l ∈ Text.lines t, a.markLine l = l := by
  unfold annotatedLines
  cases a.anchor? (Text.lines t) with
  | none =>
    have h : (Text.lines t).map a.markLine = (Text.lines t).map id ↔
        ∀ l ∈ Text.lines t, a.markLine l = l := List.map_inj_left
    simpa [withBlock] using h
  | some i =>
    -- a block makes the list longer
    refine ⟨fun h => ?_, by simp⟩
    have hl := congrArg List.length h
    simp [withBlock, ExportMacro.blockLines, ExportMacro.definitionLines] at hl
    omega

/-- What annotation makes of a header; `place` is the line that the block goes in front of. -/
structure Insertion (a : Annotator) (t : Text) (r : Annotated) (place : Option Nat) : Prop where
  anchor : ∀ i, place = some i ↔ a.IsAnchor (Text.lines t) i
  inserted : r.macroInserted = place.isSome
  lines : Text.lines r.text = withBlock (a.exportMacro.blockLines (LineEnding.detect t)) place
    ((Text.lines t).map a.markLine)
  restored : Text.ofLines (List.zipWith a.unmark
    ((Text.lines t).map fun l => decide (a.Due l.content)) (withoutBlock place (Text.lines r.text))) = t
  prefixed : r.prefixed = (Text.lines t).countP fun l => a.markLine l ≠ l
  changed : r.changed = true ↔ r.text ≠ t

theorem annotate_inserts_exactly (a : Annotator) (t : Text) (hm : a.exportMacro.OnOneLine) :
    ∃ place, a.Insertion t (a.annotate t) place := by
  have hl := lines_annotate hm t
  refine ⟨a.anchor? (Text.lines t), fun i => anchor?_eq_some_iff, rfl, hl, ?_,
    prefixed_annotate a t, ?_⟩
  · rw [hl, annotatedLines, withoutBlock_withBlock rfl, zipWith_unmark_map_markLine,
      Text.ofLines_lines]
    intro i hi
    simpa using Nat.le_of_lt (anchor?_eq_some_iff.mp hi).lt
  · have ht : (a.annotate t).text = t ↔ a.annotatedLines t = Text.lines t := by
      constructor
      · intro h
        rw [← hl, h]
      · intro h
        rw [text_annotate, h, Text.ofLines_lines]
    have hp : (a.annotate t).prefixed = 0 ↔ ∀ l ∈ Text.lines t, a.markLine l = l := by
      simp [prefixed_annotate]
    have hi : (a.annotate t).macroInserted = false ↔ a.anchor? (Text.lines t) = none :=
      Option.isSome_eq_false_iff.trans Option.isNone_iff_eq_none
    rw [Ne, ht, annotatedLines_eq_iff, ← hp, ← hi, Annotated.changed]
    cases (a.annotate t).macroInserted <;> simp [Nat.pos_iff_ne_zero]

/-- A header with all kinds of line endings, a carriage return inside a line and no newline at the
end. -/
theorem annotate_inserts_exactly_mixed :
    ({} : ExportMacro).OnOneLine ∧ ∃ place, Insertion ⟨{}, "ts_", .skip⟩
      "// \r x\r\nvoid ts_a(void);\n#include <a.h>\r\nint *ts_b(".toList
      (annotate ⟨{}, "ts_", .skip⟩
        "// \r x\r\nvoid ts_a(void);\n#include <a.h>\r\nint *ts_b(".toList) place :=
  ⟨by decide, annotate_inserts_exactly _ _ (by decide)⟩

end Annotator

end GrammarHeaders
