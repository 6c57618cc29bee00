import GrammarHeaders.Proofs.AccessorShape
import GrammarHeaders.Proofs.LineSplitting
import Mathlib.Data.List.Forall2

namespace GrammarHeaders

namespace Text

/-- A change of lines into lists of lines keeps a list canonical if it keeps closed lines closed
and leaves only the last line of an open one open. -/
theorem Canonical.flatMap {f : Line → List Line} {ls : List Line} (h : Canonical ls)
    (hc : ∀ l, l.Closed → ∀ k ∈ f l, k.Closed) (ho : ∀ l, l.Open → Canonical (f l)) :
    Canonical (ls.flatMap f) := by
  induction h with
  | nil => exact .nil
  | last hl => simpa using ho _ hl
  | cons hl _ ih =>
    rw [List.flatMap_cons]
    exact .append (hc _ hl) ih

end Text

namespace Accessor

/-- The lines that a line becomes. -/
def fixLine (newline : LineEnding) (l : Line) : List Line :=
  match parse? l.content with
  | some a => [⟨a.indent ++ fixComment, some newline⟩, { l with content := a.fixed }]
  | none => [l]

theorem ofLines_fixLine (newline : LineEnding) (l : Line) :
    Text.ofLines (fixLine newline l) = patchLine newline l := by
  unfold fixLine patchLine
  cases parse? l.content with
  | none => simp
  | some a => simp [Line.text, Line.ending]

theorem mem_fixLine {newline : LineEnding} {l k : Line} (h : k ∈ fixLine newline l) :
    (parse? l.content = none ∧ k = l) ∨ ∃ a, parse? l.content = some a ∧
      (k = ⟨a.indent ++ fixComment, some newline⟩ ∨ k = { l with content := a.fixed }) := by
  unfold fixLine at h
  cases hp : parse? l.content with
  | none => exact .inl ⟨rfl, by simpa [hp] using h⟩
  | some a => exact .inr ⟨a, rfl, by simpa [hp] using h⟩

theorem fixComment_shape : fixComment.head? = some '/' ∧ fixComment.getLast? = some '"' ∧
    '\r' ∉ fixComment ∧ '\n' ∉ fixComment := by
  decide +kernel

theorem parse?_of_mem_fixLine {newline : LineEnding} {l k : Line} (h : k ∈ fixLine newline l) :
    parse? k.content = none := by
  rcases mem_fixLine h with ⟨hp, rfl⟩ | ⟨a, hp, rfl | rfl⟩
  · exact hp
  · obtain ⟨spelled, hparts⟩ := parse?_eq_some_iff.mp hp
    obtain ⟨rest, hcomment⟩ := List.head?_eq_some_iff.mp fixComment_shape.1
    dsimp only
    rw [hcomment]
    exact parse?_eq_none hparts.indent (by decide) rfl
  · obtain ⟨spelled, hparts⟩ := parse?_eq_some_iff.mp hp
    have hfixed : a.fixed = a.indent ++ 'r' :: ("eturn (sbyte**)((__Internal*)__Instance)->".toList ++
        (a.field ++ ';' :: a.trailing)) := by
      simp [fixed]
    dsimp only
    rw [hfixed]
    exact parse?_eq_none hparts.indent (by decide) rfl

theorem newline_not_mem_fixed {line : Text} {a : Accessor} (h : parse? line = some a)
    (hn : '\n' ∉ line) : '\n' ∉ a.fixed := by
  obtain ⟨spelled, rfl, -⟩ := parse?_eq_some_iff.mp h
  have hcast : '\n' ∉ "return (sbyte**)((__Internal*)__Instance)->".toList := by decide
  simp only [List.mem_append, List.mem_cons, not_or] at hn
  simp only [fixed, List.mem_append, List.mem_cons, List.not_mem_nil, or_false, not_or]
  exact ⟨⟨⟨⟨hn.1, hcast⟩, hn.2.2.1⟩, hn.2.2.2.1⟩, hn.2.2.2.2⟩

theorem getLast?_fixed {line : Text} {a : Accessor} (h : parse? line = some a) :
    a.fixed.getLast? = line.getLast? := by
  obtain ⟨spelled, rfl, -⟩ := parse?_eq_some_iff.mp h
  have hend : ∀ front : Text, (front ++ ';' :: a.trailing).getLast? =
      some ((';' :: a.trailing).getLast (by simp)) := by
    intro front
    rw [List.getLast?_append, List.getLast?_eq_some_getLast (by simp), Option.some_or]
  have hfixed : a.fixed = (a.indent ++ "return (sbyte**)((__Internal*)__Instance)->".toList ++ a.field) ++
      ';' :: a.trailing := by
    simp [fixed]
  rw [hfixed, hend, ← List.append_assoc, ← List.append_assoc, hend]

theorem closed_comment {indent : Text} (hi : ∀ c ∈ indent, Text.isBlank c = true)
    (newline : LineEnding) : Line.Closed ⟨indent ++ fixComment, some newline⟩ := by
  have hn : '\n' ∉ indent := fun h => absurd (hi _ h) (by decide)
  refine ⟨by simp [hn, fixComment_shape], rfl, fun _ => ?_⟩
  rw [List.getLast?_append, fixComment_shape.2.1, Option.some_or]
  decide

theorem fixLine_closed (newline : LineEnding) (l : Line) (hl : l.Closed) :
    ∀ k ∈ fixLine newline l, k.Closed := by
  intro k hk
  rcases mem_fixLine hk with ⟨-, rfl⟩ | ⟨a, hp, rfl | rfl⟩
  · exact hl
  · obtain ⟨spelled, hparts⟩ := parse?_eq_some_iff.mp hp
    exact closed_comment hparts.indent newline
  · refine ⟨newline_not_mem_fixed hp hl.newlineFree, hl.terminated, ?_⟩
    rw [getLast?_fixed hp]
    exact hl.noReturn

theorem fixLine_open (newline : LineEnding) (l : Line) (hl : l.Open) :
    Text.Canonical (fixLine newline l) := by
  unfold fixLine
  cases hp : parse? l.content with
  | none => exact .last hl
  | some a =>
    have hne : a.fixed ≠ [] := by simp [fixed]
    obtain ⟨spelled, hparts⟩ := parse?_eq_some_iff.mp hp
    exact .cons (closed_comment hparts.indent newline)
      (.last ⟨newline_not_mem_fixed hp hl.newlineFree, hl.unterminated, hne⟩)

end Accessor

/-- The lines of the patched text. -/
def patchedLines (t : Text) : List Line :=
  (Text.lines t).flatMap (Accessor.fixLine (LineEnding.detect t))

theorem text_patchBindings (t : Text) : (patchBindings t).text = Text.ofLines (patchedLines t) := by
  have hl : (fun l => Text.ofLines (Accessor.fixLine (LineEnding.detect t) l)) =
      Accessor.patchLine (LineEnding.detect t) := funext (Accessor.ofLines_fixLine _)
  rw [patchBindings, ← hl, patchedLines, Text.ofLines, List.flatMap_assoc]
  rfl

theorem lines_patchBindings (t : Text) : Text.lines (patchBindings t).text = patchedLines t := by
  rw [text_patchBindings]
  exact Text.lines_ofLines ((Text.canonical_lines t).flatMap (Accessor.fixLine_closed _)
    (Accessor.fixLine_open _))

theorem patchBindings_of_settled {t : Text}
    (h : ∀ l ∈ Text.lines t, Accessor.parse? l.content = none) : patchBindings t = ⟨t, 0⟩ := by
  have ht : (patchBindings t).text = t := by
    have hl : ∀ l ∈ Text.lines t, Accessor.fixLine (LineEnding.detect t) l = [l] := by
      intro l hl
      simp [Accessor.fixLine, h l hl]
    have hs : patchedLines t = Text.lines t := by
      rw [patchedLines, List.flatMap_congr hl, List.flatMap_singleton']
    rw [text_patchBindings, hs, Text.ofLines_lines]
  have hp : (patchBindings t).patchedLines = 0 := by
    refine List.countP_eq_zero.mpr ?_
    intro l hl
    simp [h l hl]
  calc patchBindings t = ⟨(patchBindings t).text, (patchBindings t).patchedLines⟩ := rfl
    _ = ⟨t, 0⟩ := by rw [ht, hp]

theorem patchBindings_text (t : Text) :
    patchBindings (patchBindings t).text = ⟨(patchBindings t).text, 0⟩ := by
  apply patchBindings_of_settled
  intro l hl
  rw [lines_patchBindings] at hl
  obtain ⟨k, -, hk⟩ := List.mem_flatMap.mp hl
  exact Accessor.parse?_of_mem_fixLine hk

namespace Accessor

/-- What comes in the place of a line. An accessor makes way for the comment and for the statement with
the cast, which has the indentation, the field and the rest of the line as they were. -/
inductive Replaced (newline : LineEnding) (l : Line) : List Line → Prop where
  | fixed {a : Accessor} {spelled : Text} (parts : HasParts l.content a spelled)
      (letters : Text.SameLetters a.fixed (insertCast a.castPlace l.content))
      (canonical : spelled = canonicalOpening → a.fixed = insertCast a.castPlace l.content) :
      Replaced newline l [⟨a.indent ++ fixComment, some newline⟩, ⟨a.fixed, l.terminator⟩]
  | kept (other : ¬ IsAccessor l.content) : Replaced newline l [l]

theorem replaced_fixLine (newline : LineEnding) (l : Line) : Replaced newline l (fixLine newline l) := by
  unfold fixLine
  cases hp : parse? l.content with
  | none =>
    refine .kept fun h => ?_
    rw [← isSome_parse?_iff, hp] at h
    cases h
  | some a =>
    obtain ⟨spelled, hparts⟩ := parse?_eq_some_iff.mp hp
    exact .fixed hparts hparts.sameLetters.1 hparts.sameLetters.2

theorem length_flatMap_fixLine (newline : LineEnding) (ls : List Line) :
    (ls.flatMap (fixLine newline)).length =
      ls.length + ls.countP fun l => (parse? l.content).isSome := by
  induction ls with
  | nil => rfl
  | cons l ls ih =>
    rw [List.flatMap_cons, List.length_append, ih, List.countP_cons, List.length_cons, fixLine]
    cases parse? l.content with
    | none =>
      simp only [List.length_singleton, Option.isSome_none, Bool.false_eq_true, if_false]
      omega
    | some a =>
      simp only [List.length_cons, List.length_nil, Option.isSome_some, if_true]
      omega

end Accessor

/-- How many lines of a text are accessors. -/
def accessorCount (t : Text) : Nat :=
  (Text.lines t).countP fun l => decide (Accessor.IsAccessor l.content)

theorem patchedLines_patchBindings (t : Text) : (patchBindings t).patchedLines = accessorCount t :=
  List.countP_congr fun l _ => by rw [decide_eq_true_iff, Accessor.isSome_parse?_iff]

theorem length_lines_patchBindings (t : Text) :
    (Text.lines (patchBindings t).text).length = (Text.lines t).length + accessorCount t := by
  rw [lines_patchBindings, patchedLines, Accessor.length_flatMap_fixLine, ← patchedLines_patchBindings]
  rfl

theorem patchBindings_text_eq_iff (t : Text) : (patchBindings t).text = t ↔ accessorCount t = 0 := by
  constructor
  · intro h
    have hlength := length_lines_patchBindings t
    rw [h] at hlength
    omega
  · intro h
    rw [← patchedLines_patchBindings] at h
    have hnone : ∀ l ∈ Text.lines t, Accessor.parse? l.content = none := fun l hl => by
      simpa using List.countP_eq_zero.mp h l hl
    rw [patchBindings_of_settled hnone]

/-- Patching replaces the accessors of a text and nothing else. -/
theorem patchBindings_replaces (t : Text) :
    ∃ pieces, List.Forall₂ (Accessor.Replaced (LineEnding.detect t)) (Text.lines t) pieces ∧
      Text.lines (patchBindings t).text = pieces.flatten ∧
      (patchBindings t).patchedLines = accessorCount t ∧
      (Text.lines (patchBindings t).text).length =
        (Text.lines t).length + (patchBindings t).patchedLines := by
  refine ⟨(Text.lines t).map (Accessor.fixLine (LineEnding.detect t)), ?_, ?_, ?_, ?_⟩
  · rw [List.forall₂_map_right_iff, List.forall₂_same]
    exact fun l _ => Accessor.replaced_fixLine _ l
  · rw [lines_patchBindings, patchedLines, List.flatMap_def]
  · exact patchedLines_patchBindings t
  · rw [length_lines_patchBindings, patchedLines_patchBindings]

end GrammarHeaders
