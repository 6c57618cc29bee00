import GrammarHeaders.Proofs.BlockPlacement

namespace GrammarHeaders.Annotator

variable {a : Annotator} {t : Text} {ls before after : List Line} {i : Nat}

/-- The annotated header is the lines `before`, the block and the lines `after`, and none of the
lines in front of the block has got the macro. -/
structure DefinesBeforeUse (a : Annotator) (t : Text) (r : Annotated) (before after : List Line) :
    Prop where
  split : Text.lines t = before ++ after
  lines : Text.lines r.text = before.map a.markLine ++
    (a.exportMacro.blockLines (LineEnding.detect t) ++ after.map a.markLine)
  unused : ∀ l ∈ before, ¬ a.Due l.content

/-- In a header with include directives, no line above the first of them is to get the macro. -/
def IncludesFirst (a : Annotator) (ls : List Line) : Prop :=
  (∃ k ∈ ls, Directive.isInclude k.content = true) →
    ∀ l ∈ ls.takeWhile fun k => !Directive.isInclude k.content, ¬ a.Due l.content

instance (a : Annotator) (ls : List Line) : Decidable (a.IncludesFirst ls) :=
  inferInstanceAs (Decidable (_ → _))

/-- Nothing in front of the anchor is due, unless the anchor is an include directive with a
declaration above it. -/
theorem IsAnchor.unused_iff (h : a.IsAnchor ls i) :
    (∀ l ∈ ls.take i, ¬ a.Due l.content) ↔ a.IncludesFirst ls := by
  obtain ⟨front, l, back, rfl, rfl, hl, hfront⟩ | ⟨-, hno, front, l, back, rfl, rfl, -, hfront⟩ :=
    h.place
  · have habove : (front ++ l :: back).takeWhile (fun k => !Directive.isInclude k.content) = front := by
      rw [List.takeWhile_append_of_pos fun k hk => by simpa using hfront k hk,
        List.takeWhile_cons_of_neg (by simpa using hl), List.append_nil]
    rw [List.take_left, IncludesFirst, habove]
    exact ⟨fun hunused _ => hunused, fun hfirst => hfirst ⟨l, by simp, hl⟩⟩
  · rw [List.take_left]
    refine ⟨?_, fun _ => hfront⟩
    rintro - ⟨k, hk, hinclude⟩
    exact absurd hinclude (hno k hk)

theorem IsAnchor.length_eq (hid : Text.isIdentifier a.exportMacro.name.toList = true)
    (hm : a.exportMacro.OnOneLine) (h : a.IsAnchor (Text.lines t) i)
    (hlines : Text.lines (a.annotate t).text = before.map a.markLine ++
      (a.exportMacro.blockLines (LineEnding.detect t) ++ after.map a.markLine)) :
    before.length = i := by
  have hundefined : ∀ ks : List Line, (∀ k ∈ ks, k ∈ Text.lines t) → ∀ k ∈ ks.map a.markLine,
      ¬ Directive.definesMacro a.exportMacro.name.toList k.content := by
    intro ks hks k hk
    obtain ⟨l, hl, rfl⟩ := List.mem_map.mp hk
    have hu := h.undefined l (hks l hl)
    rwa [← definesMacro_markLine hid] at hu
  obtain ⟨first, rest, hblock⟩ : ∃ first rest,
      a.exportMacro.blockLines (LineEnding.detect t) = first :: rest := ⟨_, _, rfl⟩
  have hplace : ((Text.lines t).take i).map a.markLine ++
      (a.exportMacro.blockLines (LineEnding.detect t) ++ ((Text.lines t).drop i).map a.markLine) =
      before.map a.markLine ++ first :: (rest ++ after.map a.markLine) := by
    rw [← List.cons_append, ← hblock, ← hlines, lines_annotate hm, annotatedLines,
      anchor?_eq_some_iff.mpr h, withBlock, List.map_take, List.map_drop, List.append_assoc]
  have hlength := ExportMacro.length_of_blockLines hid
    (hundefined _ fun k hk => List.mem_of_mem_take hk)
    (hundefined _ fun k hk => List.mem_of_mem_drop hk) hblock hplace
  rw [List.length_map, List.length_map, List.length_take_of_le (Nat.le_of_lt h.lt)] at hlength
  exact hlength.symm

/-- Where the block is inserted, the macro is defined before it is used just if no declaration stands
above the include directives. -/
theorem defines_before_use_iff (hid : Text.isIdentifier a.exportMacro.name.toList = true)
    (hm : a.exportMacro.OnOneLine) (hi : (a.annotate t).macroInserted = true) :
    (∃ before after, a.DefinesBeforeUse t (a.annotate t) before after) ↔
      a.IncludesFirst (Text.lines t) := by
  obtain ⟨i, hanchor⟩ := Option.isSome_iff_exists.mp hi
  have hplace := anchor?_eq_some_iff.mp hanchor
  rw [← hplace.unused_iff]
  constructor
  · rintro ⟨before, after, hsplit, hlines, hunused⟩
    obtain rfl := hplace.length_eq hid hm hlines
    rwa [hsplit, List.take_left]
  · intro hunused
    refine ⟨(Text.lines t).take i, (Text.lines t).drop i, (List.take_append_drop i _).symm, ?_, hunused⟩
    rw [lines_annotate hm, annotatedLines, hanchor, withBlock, List.map_take, List.map_drop,
      List.append_assoc]

theorem defines_before_use_between :
    ∃ (a : Annotator) (t : Text), a = ⟨{}, "ts_", .skip⟩ ∧
      t = "// x\r\n#include <a.h>\nvoid ts_a(void);\n#include <b.h>\nint *ts_b(".toList ∧
      Text.isIdentifier a.exportMacro.name.toList = true ∧ a.exportMacro.OnOneLine ∧
      (a.annotate t).macroInserted = true ∧ a.IncludesFirst (Text.lines t) ∧
      ∃ before after, a.DefinesBeforeUse t (a.annotate t) before after := by
  obtain ⟨a, ha⟩ : ∃ a : Annotator, a = ⟨{}, "ts_", .skip⟩ := ⟨_, rfl⟩
  obtain ⟨t, ht⟩ : ∃ t, t = "// x\r\n#include <a.h>\nvoid ts_a(void);\n#include <b.h>\nint *ts_b(".toList :=
    ⟨_, rfl⟩
  have hid : Text.isIdentifier a.exportMacro.name.toList = true := by
    subst ha
    decide
  have hm : a.exportMacro.OnOneLine := by
    subst ha
    decide
  have hi : (a.annotate t).macroInserted = true := by
    subst ha ht
    decide +kernel
  have hfirst : a.IncludesFirst (Text.lines t) := by
    subst ha ht
    decide +kernel
  exact ⟨a, t, ha, ht, hid, hm, hi, hfirst, (defines_before_use_iff hid hm hi).mpr hfirst⟩

/-- A declaration above the only include directive gets the macro, and the block comes after it. -/
theorem uses_before_definition : ¬ ∀ (a : Annotator) (t : Text),
    Text.isIdentifier a.exportMacro.name.toList = true → a.exportMacro.OnOneLine →
    (a.annotate t).macroInserted = true →
    ∃ before after, a.DefinesBeforeUse t (a.annotate t) before after := by
  intro hall
  obtain ⟨a, ha⟩ : ∃ a : Annotator, a = ⟨{}, "ts_", .skip⟩ := ⟨_, rfl⟩
  obtain ⟨t, ht⟩ : ∃ t, t = "void ts_a(void);\n#include <a.h>\n".toList := ⟨_, rfl⟩
  obtain ⟨before, after, hsplit, hlines, hunused⟩ := hall a t (by subst ha; decide)
    (by subst ha; decide) (by subst ha ht; decide +kernel)
  have hheader : Text.lines t =
      [⟨"void ts_a(void);".toList, some .lf⟩, ⟨"#include <a.h>".toList, some .lf⟩] := by
    subst ht
    decide +kernel
  cases before with
  | nil =>
    -- the first line would be that of the block
    obtain ⟨first, rest, hblock⟩ : ∃ first rest,
        a.exportMacro.blockLines (LineEnding.detect t) = first :: rest := ⟨_, _, rfl⟩
    have hsign := a.exportMacro.blockLines_numberSign _ first (hblock ▸ List.mem_cons_self)
    have hfirst : (Text.lines (a.annotate t).text).head?.map Line.content =
        some "DllExport void ts_a(void);".toList := by
      subst ha ht
      decide +kernel
    rw [hlines, hblock] at hfirst
    have hcontent : first.content = "DllExport void ts_a(void);".toList := Option.some.inj hfirst
    rw [hcontent] at hsign
    exact absurd hsign (by decide)
  | cons l rest =>
    rw [hheader] at hsplit
    obtain ⟨rfl, -⟩ := List.cons.inj hsplit
    refine hunused _ List.mem_cons_self ?_
    subst ha
    decide +kernel

end GrammarHeaders.Annotator
