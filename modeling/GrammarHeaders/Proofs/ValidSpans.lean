import GrammarHeaders.Proofs.MarkerOffsets

namespace GrammarHeaders

/-- The ends of the span are edges of characters of the text, in their order. -/
structure Span.Within (s : Span) (t : Text) : Prop where
  start_le_stop : s.start ≤ s.stop
  stop_le_size : s.stop ≤ Text.size t
  start_isEdge : t.IsEdge s.start
  stop_isEdge : t.IsEdge s.stop

/-- The span with the given ends, if these are in order. -/
def Span.ofEnds? (start stop : Nat) : Option Span := if start ≤ stop then some ⟨start, stop⟩ else none

theorem Span.ofEnds?_of_le {start stop : Nat} (h : start ≤ stop) : ofEnds? start stop = some ⟨start, stop⟩ :=
  if_pos h

theorem Text.isEdge_zero (t : Text) : t.IsEdge 0 := isEdge_iff.mpr ⟨[], t, rfl, rfl⟩

theorem Span.within_append (a b c : Text) :
    Within ⟨Text.size a, Text.size a + Text.size b⟩ (a ++ (b ++ c)) where
  start_le_stop := Nat.le_add_right _ _
  stop_le_size := by simp only [Text.size_append]; omega
  start_isEdge := Text.isEdge_iff.mpr ⟨a, b ++ c, rfl, rfl⟩
  stop_isEdge := Text.isEdge_iff.mpr ⟨a ++ b, c, (List.append_assoc a b c).symm, Text.size_append a b⟩

theorem Span.Within.exists_slice? {s : Span} {t : Text} (h : s.Within t) : ∃ body, Text.slice? t s = some body := by
  obtain ⟨a, b, rfl, hstart⟩ := Text.isEdge_iff.mp h.start_isEdge
  obtain ⟨f, g, hwhole, hstop⟩ := Text.isEdge_iff.mp h.stop_isEdge
  obtain ⟨body, rfl, rfl⟩ := Text.exists_between hwhole (by rw [hstart, hstop]; exact h.start_le_stop)
  have hslice := Text.slice?_append a body g
  rw [← Text.size_append, hstart, hstop] at hslice
  exact ⟨body, hslice⟩

namespace Marker

/-- Where a search from an offset starts. A token is searched in what comes after the offset, which has to be
cut off for that; a shape is searched in the text as a whole. -/
def rest? (m : Marker) (t : Text) (start : Nat) : Option (Nat × Text) :=
  if m = guard then (Text.cutAt? start t).map fun (_, rest) => (start, rest) else some (skipTo start 0 t)

/-- Find a marker from an offset on, with a check of each cut and of the order of each span's ends. -/
def locateChecked? (m : Marker) (t : Text) (start : Nat) : Option (Option Located) :=
  if Text.size t < start then some none
  else do
    let (pos, rest) ← m.rest? t start
    match Text.leftmost? m.matchAt? pos rest with
    | none => return none
    | some (pos, found) =>
      let stop := pos + Text.size found.matched
      let span ← Span.ofEnds? pos (if m = guard then Text.size t else stop)
      let matched ← Text.slice? t ⟨pos, stop⟩
      return some ⟨span, found.capture, matched⟩

variable {m : Marker} {t : Text} {start : Nat} {l : Located}

theorem rest?_append (m : Marker) (a b : Text) : m.rest? (a ++ b) (Text.size a) = some (Text.size a, b) := by
  rw [rest?]
  split
  · rw [Text.cutAt?_append]
    rfl
  · have hskip := skipTo_append 0 a b
    rw [Nat.zero_add] at hskip
    rw [hskip]

theorem locateChecked?_append (m : Marker) (a b : Text) :
    m.locateChecked? (a ++ b) (Text.size a) = match Text.leftmost? m.matchAt? (Text.size a) b with
      | none => some none
      | some (pos, found) => do
        let stop := pos + Text.size found.matched
        let span ← Span.ofEnds? pos (if m = guard then Text.size (a ++ b) else stop)
        let matched ← Text.slice? (a ++ b) ⟨pos, stop⟩
        return some ⟨span, found.capture, matched⟩ := by
  have hinside : ¬ Text.size (a ++ b) < Text.size a := by simp
  rw [locateChecked?, if_neg hinside, rest?_append]
  rfl

theorem locateChecked?_eq (h : t.IsEdge start) :
    ∃ found, m.locateFrom t start = .ok found ∧ m.locateChecked? t start = some found := by
  obtain ⟨a, b, rfl, rfl⟩ := Text.isEdge_iff.mp h
  by_cases hb : m.Absent b
  · refine ⟨none, locateFrom_of_absent hb, ?_⟩
    rw [locateChecked?_append, leftmost?_matchAt?_eq_none_iff.mpr hb]
  obtain ⟨front, x, rest, hx⟩ := exists_firstMatch hb
  refine ⟨_, hx.locateFrom, ?_⟩
  have hslice := Text.slice?_append (a ++ front) x.matched rest
  rw [List.append_assoc, ← hx.whole, Text.size_append] at hslice
  have hstop : Text.size a + Text.size front ≤ (m.spanAt (a ++ b) (Text.size a + Text.size front) x).stop := by
    rw [stop_spanAt]
    split
    · rw [Text.size_append, hx.whole, Text.size_append]
      omega
    · exact Nat.le_add_right _ _
  rw [stop_spanAt] at hstop
  rw [locateChecked?_append, hx.leftmost?]
  dsimp only
  rw [Span.ofEnds?_of_le hstop, hslice, ← stop_spanAt]
  cases m <;> rfl

theorem locateFrom_zero (m : Marker) (t : Text) : m.locateFrom t 0 = .ok (m.locate t) :=
  locateFrom_append m [] t

theorem locateChecked?_zero (m : Marker) (t : Text) : m.locateChecked? t 0 = some (m.locate t) := by
  obtain ⟨found, hfound, hchecked⟩ := locateChecked?_eq (m := m) t.isEdge_zero
  rw [locateFrom_zero] at hfound
  rw [hchecked, Except.ok.inj hfound]

example : guard.locateChecked? ['é'] 1 = none := by decide +kernel

theorem within_of_locateFrom (h : t.IsEdge start) (hl : m.locateFrom t start = .ok (some l)) :
    start ≤ l.span.start ∧ l.span.Within t := by
  obtain ⟨a, b, rfl, rfl⟩ := Text.isEdge_iff.mp h
  obtain ⟨front, x, rest, hx, rfl⟩ := locateFrom_append_eq_ok hl
  have hwhole : a ++ b = (a ++ front) ++ (x.matched ++ rest) := by rw [hx.whole, List.append_assoc]
  rw [start_spanAt, ← Text.size_append, hwhole]
  refine ⟨by simp, ?_⟩
  cases m with
  | guard =>
    have hwithin := Span.within_append (a ++ front) (x.matched ++ rest) []
    rw [List.append_nil, ← Text.size_append] at hwithin
    exact hwithin
  | signature | ending => exact Span.within_append (a ++ front) x.matched rest

theorem within_of_locate (h : m.locate t = some l) : l.span.Within t :=
  (within_of_locateFrom t.isEdge_zero (by rw [locateFrom_zero, h])).2

end Marker

namespace Factory

/-- Find the factory, with every check of its spans. -/
def locateChecked? (t : Text) (expected : String) (check : NameCheck) (file : Path) :
    Option (Except ShapeFault (Factory × List LogLine)) := do
  match ← Marker.signature.locateChecked? t 0 with
  | none => return .error (.factoryNotFound expected file)
  | some start =>
    match ← Marker.ending.locateChecked? t start.span.stop with
    | none => return .error (.factoryEndNotFound expected file)
    | some stop =>
      let name := String.ofList (start.capture.getD [])
      if name ≠ expected ∧ check = .strict then return .error (.factoryNameMismatch expected name file)
      else
        let span ← Span.ofEnds? start.span.start stop.span.stop
        return .ok (⟨name, start.matched, span⟩,
          if name = expected then [] else [mismatchWarning expected file name])

/-- Extract the declarations of a parser, with every check of its spans and cuts. -/
def extractChecked? (t : Text) (expected : String) (check : NameCheck) (file : Path) :
    Option (Except ShapeFault (Text × List LogLine)) := do
  let newline := LineEnding.detect t
  match ← Marker.guard.locateChecked? t 0 with
  | none => return .error (.markerNotFound Marker.guard.quoted file)
  | some found =>
    let tail ← Text.slice? t found.span
    match ← locateChecked? tail expected check file with
    | .error fault => return .error fault
    | .ok (factory, warnings) =>
      let excised ← excise? tail newline factory.span factory.signature
      return .ok (forwardDeclarations newline ++ newline.text ++ excised,
        warnings ++ [foundLine factory.name (factory.span.shift found.span.start) file])

variable {t tail : Text} {expected : String} {check : NameCheck} {file : Path}

theorem locateChecked?_eq (t : Text) (expected : String) (check : NameCheck) (file : Path) :
    locateChecked? t expected check file = some (locate t expected check file) := by
  rw [locateChecked?, locate, Marker.locateChecked?_zero]
  cases hs : Marker.signature.locate t with
  | none => rfl
  | some start =>
    have hstart := Marker.within_of_locate hs
    obtain ⟨found, hfound, hchecked⟩ := Marker.locateChecked?_eq (m := .ending) hstart.stop_isEdge
    simp only [bind, Option.bind, hchecked, hfound]
    cases found with
    | none => rfl
    | some stop =>
      -- the end is searched behind the signature
      obtain ⟨hbehind, hstop⟩ := Marker.within_of_locateFrom hstart.stop_isEdge hfound
      have hle : start.span.start ≤ stop.span.stop :=
        hstart.start_le_stop.trans (hbehind.trans hstop.start_le_stop)
      dsimp only
      rw [Span.ofEnds?_of_le hle]
      by_cases hname : String.ofList (start.capture.getD []) = expected
      · simp [hname]
      · cases check <;> simp [hname]

theorem exists_brace {body : Text} (h : EndsFactory body) : ∃ front, body = front ++ ['}'] := by
  obtain ⟨x, hx, f, rfl⟩ := h
  cases hx with
  | ending e => exact ⟨f ++ (Marker.endingOpening ++ e.text), by simp⟩

theorem extractChecked?_eq (t : Text) (expected : String) (check : NameCheck) (file : Path) :
    extractChecked? t expected check file = some (extractDeclarations t expected check file) := by
  rw [extractChecked?, extractDeclarations, locateTail, Marker.locateChecked?_zero]
  cases hg : Marker.guard.locate t with
  | none => rfl
  | some found =>
    obtain ⟨tail, htail⟩ := (Marker.within_of_locate hg).exists_slice?
    simp only [bind, Option.bind, Except.bind, htail, Option.getD_some, locateChecked?_eq]
    cases hl : locate tail expected check file with
    | error fault => rfl
    | ok result =>
      obtain ⟨factory, warnings⟩ := result
      obtain ⟨c, hc, rfl⟩ := cut_of_locate hl
      have hwhole : tail = c.front ++ ((c.signature ++ c.body) ++ c.back) := by simpa using hc.signature.whole
      have hexcise := excise?_append (LineEnding.detect t) c.front (c.signature ++ c.body) c.back c.signature
      rw [← hwhole, Text.size_append] at hexcise
      simp only [Cut.factory, hexcise]
      rfl

/-- The spans of the tail of a parser and of a factory are spans of the text in which they are found, and the
factory's starts with its signature and ends with a brace. No check of an extraction ever fails. -/
theorem spans_never_fail (t : Text) (expected : String) (check : NameCheck) (file : Path) :
    (∀ s, locateTail t file = .ok s → s.Within t) ∧
    (∀ factory warnings, locate t expected check file = .ok (factory, warnings) →
      factory.span.Within t ∧
      ∃ body, Text.slice? t factory.span = some (factory.signature ++ body ++ ['}'])) ∧
    extractChecked? t expected check file = some (extractDeclarations t expected check file) := by
  refine ⟨fun s hs => ?_, fun factory warnings hl => ?_, extractChecked?_eq t expected check file⟩
  · unfold locateTail at hs
    split at hs
    · rename_i found hg
      cases hs
      exact Marker.within_of_locate hg
    · cases hs
  · obtain ⟨c, hc, rfl⟩ := cut_of_locate hl
    have hwhole : t = c.front ++ ((c.signature ++ c.body) ++ c.back) := by simpa using hc.signature.whole
    have hwithin := Span.within_append c.front (c.signature ++ c.body) c.back
    have hslice := Text.slice?_append c.front (c.signature ++ c.body) c.back
    rw [← hwhole, Text.size_append] at hwithin hslice
    refine ⟨hwithin, ?_⟩
    obtain ⟨body, hbody⟩ := exists_brace hc.ending
    exact ⟨body, by rw [List.append_assoc, ← hbody]; exact hslice⟩

/-- A parser with letters of two and three bytes in front of the tail, on both sides of the signature, in
the factory's name and in its body. -/
def accentedParser : Text :=
  "// é\n#ifdef __cplusplus\n/* € */ extern const TSLanguage *tree_sitter_é(void) ".toList ++
    "\x7b \"€\"; return &language;\n\x7d // é".toList

theorem spans_never_fail_accented :
    locateTail accentedParser ⟨"parser.c"⟩ = .ok ⟨6, 115⟩ ∧
    Span.Within ⟨6, 115⟩ accentedParser ∧
    ∃ factory, locate accentedParser "tree_sitter_é" .strict ⟨"parser.c"⟩ = .ok (factory, []) ∧
      factory.span = ⟨35, 109⟩ ∧ factory.span.Within accentedParser ∧
      extractChecked? accentedParser "tree_sitter_é" .strict ⟨"parser.c"⟩ =
        some (extractDeclarations accentedParser "tree_sitter_é" .strict ⟨"parser.c"⟩) := by
  obtain ⟨htail, hfactory, hchecked⟩ := spans_never_fail accentedParser "tree_sitter_é" .strict ⟨"parser.c"⟩
  have hfound : locateTail accentedParser ⟨"parser.c"⟩ = .ok ⟨6, 115⟩ := by decide +kernel
  have hlocated : locate accentedParser "tree_sitter_é" .strict ⟨"parser.c"⟩ =
      .ok (⟨"tree_sitter_é", "extern const TSLanguage *tree_sitter_é(void)".toList, ⟨35, 109⟩⟩, []) := by
    decide +kernel
  exact ⟨hfound, htail _ hfound, _, hlocated, rfl, (hfactory _ _ hlocated).1, hchecked⟩

end Factory

end GrammarHeaders
