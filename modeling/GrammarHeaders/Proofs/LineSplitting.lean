import GrammarHeaders.Text.Line

namespace GrammarHeaders

namespace Line

/-- A line that ends with its own terminator. A carriage return right before a bare line feed
would be part of the terminator. -/
structure Closed (l : Line) : Prop where
  newlineFree : '\n' ∉ l.content
  terminated : l.terminator.isSome
  noReturn : l.terminator = some .lf → l.content.getLast? ≠ some '\r'

/-- A last line that the text breaks off in. -/
structure Open (l : Line) : Prop where
  newlineFree : '\n' ∉ l.content
  unterminated : l.terminator = none
  nonempty : l.content ≠ []

theorem Closed.prepend {l : Line} (h : l.Closed) {t : Text} (ht : '\n' ∉ t)
    (hne : l.content ≠ []) : Closed { l with content := t ++ l.content } := by
  refine ⟨by simp [ht, h.newlineFree], h.terminated, ?_⟩
  have hl : (t ++ l.content).getLast? = l.content.getLast? := by
    rw [List.getLast?_append, List.getLast?_eq_some_getLast hne, Option.some_or]
  rw [hl]
  exact h.noReturn

theorem text_of_terminator {l : Line} {e : LineEnding} (h : l.terminator = some e) :
    l.text = l.content ++ e.text := by
  simp [text, ending, h]

theorem text_of_open {l : Line} (h : l.Open) : l.text = l.content := by
  simp [text, ending, h.unterminated]

/-- A line as it stands in a text, its content and its terminator. -/
def parts (l : Line) : Text × Text := (l.content, l.ending)

theorem ending_eq_nil_iff {l : Line} : l.ending = [] ↔ l.terminator = none := by
  rcases l with ⟨content, _ | _ | _⟩ <;> simp [ending, LineEnding.text]

theorem ending_eq_lf_iff {l : Line} : l.ending = ['\n'] ↔ l.terminator = some .lf := by
  rcases l with ⟨content, _ | _ | _⟩ <;> simp [ending, LineEnding.text]

theorem ending_cases (l : Line) : l.ending = ['\n'] ∨ l.ending = ['\r', '\n'] ∨ l.ending = [] := by
  rcases l with ⟨content, _ | _ | _⟩ <;> simp [ending, LineEnding.text]

end Line

namespace Text

/-- The lists of lines that texts split into. -/
inductive Canonical : List Line → Prop where
  | nil : Canonical []
  | last {l : Line} : l.Open → Canonical [l]
  | cons {l : Line} {ls : List Line} : l.Closed → Canonical ls → Canonical (l :: ls)

theorem Canonical.append {as bs : List Line} (ha : ∀ l ∈ as, l.Closed) (hb : Canonical bs) :
    Canonical (as ++ bs) := by
  induction as with
  | nil => exact hb
  | cons l as ih =>
    exact .cons (ha l (by simp)) (ih fun k hk => ha k (by simp [hk]))

theorem Canonical.of_append {as bs : List Line} (h : Canonical (as ++ bs)) (hb : bs ≠ []) :
    (∀ l ∈ as, l.Closed) ∧ Canonical bs := by
  induction as with
  | nil => exact ⟨by simp, h⟩
  | cons l as ih =>
    rw [List.cons_append] at h
    cases hs : as ++ bs with
    | nil => simp_all
    | cons k ks =>
      rw [hs] at h ih
      cases h with
      | cons hl ht =>
        obtain ⟨hc, hk⟩ := ih ht
        refine ⟨?_, hk⟩
        intro x hx
        rcases List.mem_cons.mp hx with rfl | hx
        · exact hl
        · exact hc x hx

/-- A change of lines keeps a list canonical if it keeps closed lines closed and open ones
open. -/
theorem Canonical.map {f : Line → Line} {ls : List Line} (h : Canonical ls)
    (hc : ∀ l, l.Closed → (f l).Closed) (ho : ∀ l, l.Open → (f l).Open) : Canonical (ls.map f) := by
  induction h with
  | nil => exact .nil
  | last hl => exact .last (ho _ hl)
  | cons hl _ ih => exact .cons (hc _ hl) ih

@[simp] theorem ofLines_nil : ofLines [] = [] := rfl

@[simp] theorem ofLines_cons (l : Line) (ls : List Line) :
    ofLines (l :: ls) = l.text ++ ofLines ls := by
  simp [ofLines]

@[simp] theorem ofLines_append (as bs : List Line) :
    ofLines (as ++ bs) = ofLines as ++ ofLines bs := by
  simp [ofLines]

theorem linesAfter_cons {c : Char} {t : Text} (front : Text) (hc : c ≠ '\n')
    (hr : c = '\r' → t.head? ≠ some '\n') : linesAfter front (c :: t) = linesAfter (c :: front) t := by
  rw [linesAfter]
  · exact hc
  · rintro t' rfl rfl
    exact hr rfl rfl

theorem linesAfter_ending (front : Text) (e : LineEnding) (t : Text) :
    linesAfter front (e.text ++ t) = ⟨front.reverse, some e⟩ :: lines t := by
  cases e <;> rfl

theorem linesAfter_closed (front content : Text) (e : LineEnding) (t : Text) (hn : '\n' ∉ content)
    (hr : e = .lf → content.getLast? ≠ some '\r') :
    linesAfter front (content ++ (e.text ++ t)) = ⟨front.reverse ++ content, some e⟩ :: lines t := by
  induction content generalizing front with
  | nil => simpa using linesAfter_ending front e t
  | cons c content ih =>
    have hc : c ≠ '\n' := fun h => hn (by simp [h])
    have hs : c = '\r' → (content ++ (e.text ++ t)).head? ≠ some '\n' := by
      rintro rfl h
      cases content with
      | nil =>
        cases e with
        | lf => exact hr rfl rfl
        | crlf => simp [LineEnding.text] at h
      | cons d content => exact hn (by simp_all)
    have hl : e = .lf → content.getLast? ≠ some '\r' := by
      intro he h
      exact hr he (by simp [List.getLast?_cons, h])
    rw [List.cons_append, linesAfter_cons front hc hs, ih (c :: front) (fun h => hn (by simp [h])) hl]
    simp

theorem linesAfter_open (front content : Text) (hn : '\n' ∉ content) (hne : front ++ content ≠ []) :
    linesAfter front content = [⟨front.reverse ++ content, none⟩] := by
  induction content generalizing front with
  | nil =>
    have hf : front ≠ [] := by simpa using hne
    simp [linesAfter, hf]
  | cons c content ih =>
    have hc : c ≠ '\n' := fun h => hn (by simp [h])
    have hs : c = '\r' → content.head? ≠ some '\n' := by
      intro _ h
      exact hn (by cases content <;> simp_all)
    rw [linesAfter_cons front hc hs, ih (c :: front) (fun h => hn (by simp [h])) (by simp)]
    simp

theorem lines_text_append {l : Line} (h : l.Closed) (t : Text) : lines (l.text ++ t) = l :: lines t := by
  obtain ⟨e, he⟩ := Option.isSome_iff_exists.mp h.terminated
  rw [Line.text_of_terminator he, List.append_assoc, lines,
    linesAfter_closed [] l.content e t h.newlineFree fun hl => h.noReturn (by rw [he, hl])]
  simp [← he]

theorem lines_ofLines_append {ls : List Line} (h : ∀ l ∈ ls, l.Closed) (t : Text) :
    lines (ofLines ls ++ t) = ls ++ lines t := by
  induction ls with
  | nil => rfl
  | cons l ls ih =>
    have hl : l.Closed := h l (by simp)
    rw [ofLines_cons, List.append_assoc, lines_text_append hl, ih fun k hk => h k (by simp [hk])]
    rfl

theorem lines_ofLines {ls : List Line} (h : Canonical ls) : lines (ofLines ls) = ls := by
  induction h with
  | nil => rfl
  | @last l hl =>
    have ht := linesAfter_open [] l.content hl.newlineFree (by simpa using hl.nonempty)
    rw [ofLines_cons, ofLines_nil, List.append_nil, Line.text_of_open hl, lines, ht]
    simp [← hl.unterminated]
  | cons hl _ ih => rw [ofLines_cons, lines_text_append hl, ih]

/-- While a line is read, its front has no newline, and a carriage return at its end is not
followed by one. -/
theorem canonical_linesAfter (front t : Text) (hn : '\n' ∉ front)
    (hr : front.head? = some '\r' → t.head? ≠ some '\n') : Canonical (linesAfter front t) := by
  fun_induction linesAfter front t with
  | case1 front h => exact .nil
  | case2 front h => exact .last ⟨by simpa using hn, rfl, by simpa using h⟩
  | case3 front t ih =>
    have hf : front.head? ≠ some '\r' := fun h => hr h rfl
    exact .cons ⟨by simpa using hn, rfl, fun _ => by simpa using hf⟩ (ih (by simp) (by simp))
  | case4 front t ih =>
    exact .cons ⟨by simpa using hn, rfl, by simp⟩ (ih (by simp) (by simp))
  | case5 front c t hc hs ih =>
    refine ih (by simp [hn, Ne.symm hc]) ?_
    intro h ht
    obtain ⟨t', rfl⟩ := List.head?_eq_some_iff.mp ht
    exact hs t' (by simpa using h) rfl

theorem canonical_lines (t : Text) : Canonical (lines t) :=
  canonical_linesAfter [] t (by simp) (by simp)

/-- What follows the text starts a line. -/
def EndsLine (t : Text) : Prop := ∀ c, t.getLast? = some c → c = '\n'

theorem EndsLine.append {s t : Text} (hs : EndsLine s) (ht : EndsLine t) : EndsLine (s ++ t) := by
  intro c hc
  cases h : t.getLast? with
  | none => exact hs c (by simpa [List.getLast?_append, h] using hc)
  | some d => exact ht c (by simpa [List.getLast?_append, h] using hc)

theorem endsLine_append_ending (t : Text) (e : LineEnding) : EndsLine (t ++ e.text) := by
  cases e <;> simp [EndsLine, LineEnding.text, List.getLast?_append]

theorem endsLine_ofLines {ls : List Line} (h : ∀ l ∈ ls, l.Closed) : EndsLine (ofLines ls) := by
  induction ls with
  | nil => simp [EndsLine]
  | cons l ls ih =>
    obtain ⟨e, he⟩ := Option.isSome_iff_exists.mp (h l (by simp)).terminated
    rw [ofLines_cons, Line.text_of_terminator he]
    exact (endsLine_append_ending l.content e).append (ih fun k hk => h k (by simp [hk]))

theorem Canonical.closed_or_open {ls : List Line} (h : Canonical ls) :
    (∀ l ∈ ls, l.Closed) ∨ ∃ as l, ls = as ++ [l] ∧ l.Open := by
  induction h with
  | nil => exact .inl (by simp)
  | @last l hl => exact .inr ⟨[], l, rfl, hl⟩
  | @cons l ls hl _ ih =>
    rcases ih with hc | ⟨as, k, rfl, hk⟩
    · exact .inl (by simpa using ⟨hl, hc⟩)
    · exact .inr ⟨l :: as, k, rfl, hk⟩

theorem EndsLine.closed {t : Text} (h : EndsLine t) : ∀ l ∈ lines t, l.Closed := by
  rcases (canonical_lines t).closed_or_open with hc | ⟨as, l, hs, hl⟩
  · exact hc
  · -- an open line would be the end of the text, and it has no newline
    obtain ⟨c, hlast⟩ := Option.ne_none_iff_exists'.mp (mt List.getLast?_eq_none_iff.mp hl.nonempty)
    have ht : t = ofLines as ++ l.content := by
      rw [← ofLines_lines t, hs, ofLines_append, ofLines_cons, ofLines_nil, List.append_nil,
        Line.text_of_open hl]
    have hc : c = '\n' := h c (by rw [ht, List.getLast?_append, hlast]; rfl)
    exact absurd (List.mem_of_getLast? hlast) (hc ▸ hl.newlineFree)

theorem lines_append {t : Text} (h : EndsLine t) (u : Text) : lines (t ++ u) = lines t ++ lines u := by
  have hl := lines_ofLines_append h.closed u
  rwa [ofLines_lines] at hl

theorem exists_endsLine_append (t : Text) : ∃ a b, t = a ++ b ∧ EndsLine a ∧ '\n' ∉ b := by
  induction t with
  | nil => exact ⟨[], [], rfl, by simp [EndsLine], by simp⟩
  | cons c t ih =>
    obtain ⟨a, b, rfl, ha, hb⟩ := ih
    cases a with
    | nil =>
      by_cases hc : c = '\n'
      · exact ⟨[c], b, rfl, by simp [EndsLine, hc], hb⟩
      · exact ⟨[], c :: b, rfl, ha, by simp [Ne.symm hc, hb]⟩
    | cons d a => exact ⟨c :: d :: a, b, rfl, by simpa [EndsLine] using ha, hb⟩

/-- Contents and terminators that can be the lines of a text. Only the last terminator may be missing, and
then there is a content. No content goes on behind a newline, and none ends with what would belong to its
terminator. -/
structure AreLines (ps : List (Text × Text)) : Prop where
  newlineFree : ∀ p ∈ ps, '\n' ∉ p.1
  terminator : ∀ p ∈ ps, p.2 = ['\n'] ∨ p.2 = ['\r', '\n'] ∨ p.2 = []
  terminated : ∀ p ∈ ps.dropLast, p.2 ≠ []
  noReturn : ∀ p ∈ ps, p.2 = ['\n'] → p.1.getLast? ≠ some '\r'
  nonempty : ∀ p ∈ ps, p.2 = [] → p.1 ≠ []

def joined (ps : List (Text × Text)) : Text := ps.flatMap fun p => p.1 ++ p.2

theorem joined_parts (ls : List Line) : joined (ls.map Line.parts) = ofLines ls := by
  rw [joined, List.flatMap_map]
  rfl

theorem AreLines.exists_line {ps : List (Text × Text)} (h : AreLines ps) {p : Text × Text} (hp : p ∈ ps) :
    ∃ l : Line, l.parts = p := by
  obtain ⟨content, terminator⟩ := p
  obtain hlf | hcrlf | hnone := h.terminator _ hp
  · exact ⟨⟨content, some .lf⟩, Prod.ext rfl hlf.symm⟩
  · exact ⟨⟨content, some .crlf⟩, Prod.ext rfl hcrlf.symm⟩
  · exact ⟨⟨content, none⟩, Prod.ext rfl hnone.symm⟩

theorem AreLines.tail {ps : List (Text × Text)} {p : Text × Text} (h : AreLines (p :: ps)) : AreLines ps where
  newlineFree q hq := h.newlineFree q (List.mem_cons_of_mem p hq)
  terminator q hq := h.terminator q (List.mem_cons_of_mem p hq)
  terminated q hq := by
    have hne : ps ≠ [] := fun he => by simp [he] at hq
    exact h.terminated q (by rw [List.dropLast_cons_of_ne_nil hne]; exact List.mem_cons_of_mem p hq)
  noReturn q hq := h.noReturn q (List.mem_cons_of_mem p hq)
  nonempty q hq := h.nonempty q (List.mem_cons_of_mem p hq)

theorem AreLines.cons {ps : List (Text × Text)} {l : Line} (hl : l.Closed) (h : AreLines ps) :
    AreLines (l.parts :: ps) where
  newlineFree := List.forall_mem_cons.mpr ⟨hl.newlineFree, h.newlineFree⟩
  terminator := List.forall_mem_cons.mpr ⟨l.ending_cases, h.terminator⟩
  terminated := by
    have hended : l.parts.2 ≠ [] := fun he => by
      simpa [Line.ending_eq_nil_iff.mp he] using hl.terminated
    cases ps with
    | nil => simp
    | cons p ps =>
      rw [List.dropLast_cons_of_ne_nil (List.cons_ne_nil p ps)]
      exact List.forall_mem_cons.mpr ⟨hended, h.terminated⟩
  noReturn := List.forall_mem_cons.mpr ⟨fun he => hl.noReturn (Line.ending_eq_lf_iff.mp he), h.noReturn⟩
  nonempty := by
    refine List.forall_mem_cons.mpr ⟨fun he => ?_, h.nonempty⟩
    simpa [Line.ending_eq_nil_iff.mp he] using hl.terminated

theorem AreLines.last {l : Line} (hl : l.Open) : AreLines [l.parts] where
  newlineFree := List.forall_mem_singleton.mpr hl.newlineFree
  terminator := List.forall_mem_singleton.mpr l.ending_cases
  terminated := by simp
  noReturn := by
    refine List.forall_mem_singleton.mpr fun he => ?_
    simpa [Line.ending_eq_lf_iff.mp he] using hl.unterminated
  nonempty := List.forall_mem_singleton.mpr fun _ => hl.nonempty

theorem areLines_iff {ls : List Line} : AreLines (ls.map Line.parts) ↔ Canonical ls := by
  constructor
  · intro h
    induction ls with
    | nil => exact .nil
    | cons l ls ih =>
      have hmem : l.parts ∈ (l :: ls).map Line.parts := List.mem_cons_self
      by_cases hl : l.terminator = none
      · -- a line that is not terminated is the last one
        have hended := Line.ending_eq_nil_iff.mpr hl
        cases ls with
        | nil => exact .last ⟨h.newlineFree _ hmem, hl, h.nonempty _ hmem hended⟩
        | cons k ls => exact absurd hended (h.terminated _ List.mem_cons_self)
      · exact .cons ⟨h.newlineFree _ hmem, Option.isSome_iff_ne_none.mpr hl,
          fun he => h.noReturn _ hmem (Line.ending_eq_lf_iff.mpr he)⟩ (ih h.tail)
  · intro h
    induction h with
    | nil => constructor <;> simp
    | last hl => exact .last hl
    | cons hl _ ih => exact .cons hl ih

theorem AreLines.exists_lines {ps : List (Text × Text)} (h : AreLines ps) :
    ∃ ls : List Line, ls.map Line.parts = ps := by
  induction ps with
  | nil => exact ⟨[], rfl⟩
  | cons p ps ih =>
    obtain ⟨l, rfl⟩ := h.exists_line List.mem_cons_self
    obtain ⟨ls, rfl⟩ := ih h.tail
    exact ⟨l :: ls, rfl⟩

/-- Splitting is a bijection from the texts onto the lists of contents and terminators that can be lines
of a text, and putting these together is its inverse. -/
theorem lines_bijective :
    (∀ t, AreLines ((lines t).map Line.parts) ∧ joined ((lines t).map Line.parts) = t) ∧
    ∀ ps, AreLines ps → (lines (joined ps)).map Line.parts = ps := by
  refine ⟨fun t => ⟨areLines_iff.mpr (canonical_lines t), ?_⟩, fun ps h => ?_⟩
  · rw [joined_parts, ofLines_lines]
  · obtain ⟨ls, rfl⟩ := h.exists_lines
    rw [joined_parts, lines_ofLines (areLines_iff.mp h)]

/-- An empty line, a carriage return before one that is part of a terminator, one inside a line and one
at the end of the text. -/
theorem lines_bijective_returns :
    AreLines [(['\r'], ['\r', '\n']), ([], ['\n']), (['a', '\r', 'b'], ['\n']), (['\r'], [])] ∧
    (lines "\r\r\n\na\rb\n\r".toList).map Line.parts =
      [(['\r'], ['\r', '\n']), ([], ['\n']), (['a', '\r', 'b'], ['\n']), (['\r'], [])] := by
  have h : AreLines [(['\r'], ['\r', '\n']), ([], ['\n']), (['a', '\r', 'b'], ['\n']), (['\r'], [])] := by
    constructor <;> decide
  exact ⟨h, lines_bijective.2 _ h⟩

end Text

end GrammarHeaders
