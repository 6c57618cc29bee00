import GrammarHeaders.Proofs.SingleFactory

namespace GrammarHeaders

theorem Text.leftmost?_eq_none_iff {α : Type} {found : Text → Option α} {pos : Nat} {t : Text} :
    leftmost? found pos t = none ↔ ∀ f r, t = f ++ r → found r = none := by
  induction t generalizing pos with
  | nil =>
    rw [leftmost?, Option.map_eq_none_iff]
    constructor
    · intro h f r hs
      obtain ⟨-, rfl⟩ := List.append_eq_nil_iff.mp hs.symm
      exact h
    · exact fun h => h [] [] rfl
  | cons c t ih =>
    rw [leftmost?]
    constructor
    · intro h f r hs
      split at h
      · cases h
      · rename_i hn
        cases f with
        | nil =>
          rw [List.nil_append] at hs
          exact hs ▸ hn
        | cons d f => exact ih.mp h f r (List.cons.inj hs).2
    · intro h
      rw [h [] (c :: t) rfl]
      exact ih.mpr fun f r hs => h (c :: f) r (by rw [hs, List.cons_append])

namespace Marker

variable {m : Marker} {t a b front rest : Text} {x : Match}

theorem leftmost?_matchAt?_eq_none_iff {pos : Nat} :
    Text.leftmost? m.matchAt? pos t = none ↔ m.Absent t := by
  rw [Text.leftmost?_eq_none_iff]
  constructor
  · intro h f y r hy hs
    have hn := h f (y.matched ++ r) hs
    rw [matchAt?_eq_some_iff.mpr ⟨hy, r, rfl⟩] at hn
    cases hn
  · intro h f r hs
    rw [Option.eq_none_iff_forall_ne_some]
    intro y hy
    obtain ⟨hshape, back, rfl⟩ := matchAt?_eq_some_iff.mp hy
    exact h f y back hshape hs

theorem exists_firstMatch (h : ¬ m.Absent t) : ∃ front x rest, m.FirstMatch t front x rest := by
  have hfound : Text.leftmost? m.matchAt? 0 t ≠ none := fun hn =>
    h (leftmost?_matchAt?_eq_none_iff.mp hn)
  obtain ⟨⟨p, x⟩, hp⟩ := Option.ne_none_iff_exists'.mp hfound
  obtain ⟨front, rest, hx, -⟩ := leftmost?_matchAt? hp
  exact ⟨front, x, rest, hx⟩

theorem FirstMatch.not_absent (h : m.FirstMatch t front x rest) : ¬ m.Absent t :=
  fun ha => ha front x rest h.shape h.whole

theorem FirstMatch.leftmost? {pos : Nat} (h : m.FirstMatch t front x rest) :
    Text.leftmost? m.matchAt? pos t = some (pos + Text.size front, x) := by
  cases hl : Text.leftmost? m.matchAt? pos t with
  | none => exact absurd (leftmost?_matchAt?_eq_none_iff.mp hl) h.not_absent
  | some found =>
    obtain ⟨p, y⟩ := found
    obtain ⟨front', rest', hy, rfl⟩ := leftmost?_matchAt? hl
    obtain ⟨rfl, rfl, -⟩ := h.unique hy
    rfl

theorem locate_eq_none_iff : m.locate t = none ↔ m.Absent t := by
  rw [locate, locateIn, Option.map_eq_none_iff, leftmost?_matchAt?_eq_none_iff]

theorem FirstMatch.locate (h : m.FirstMatch t front x rest) :
    m.locate t = some ⟨m.spanAt t (Text.size front) x, x.capture, x.matched⟩ := by
  rw [Marker.locate, locateIn, h.leftmost?, Option.map_some, Nat.zero_add]

theorem locateFrom_append (m : Marker) (a b : Text) :
    m.locateFrom (a ++ b) (Text.size a) = .ok (m.locateIn (a ++ b) (Text.size a) b) := by
  have hs := skipTo_append 0 a b
  have hl : ¬ Text.size (a ++ b) < Text.size a := by simp
  rw [Nat.zero_add] at hs
  rw [locateFrom, if_neg hl, hs]
  simp

theorem locateFrom_of_absent (h : m.Absent b) : m.locateFrom (a ++ b) (Text.size a) = .ok none := by
  rw [locateFrom_append, locateIn, leftmost?_matchAt?_eq_none_iff.mpr h, Option.map_none]

theorem FirstMatch.locateFrom (h : m.FirstMatch b front x rest) :
    m.locateFrom (a ++ b) (Text.size a) =
      .ok (some ⟨m.spanAt (a ++ b) (Text.size a + Text.size front) x, x.capture, x.matched⟩) := by
  rw [locateFrom_append, locateIn, h.leftmost?, Option.map_some]

end Marker

namespace Factory

variable {t tail : Text} {expected : String} {check : NameCheck} {file : Path} {fault : ShapeFault}
  {front sig name after : Text}

/-- The part of a parser that its first guard starts. -/
def HasTail (t tail : Text) : Prop :=
  ∃ head rest, Marker.guard.FirstMatch t head ⟨Marker.guardToken, none⟩ rest ∧
    tail = Marker.guardToken ++ rest

/-- The leftmost signature in the tail of a parser, with the name in it and what comes after it. -/
def HasSignature (t front sig name after : Text) : Prop :=
  ∃ tail, HasTail t tail ∧ Marker.signature.FirstMatch tail front ⟨sig, some name⟩ after

/-- The first assumption that a parser breaks, as the fault that it is reported by. -/
inductive FirstFault (t : Text) (expected : String) (check : NameCheck) (file : Path) :
    ShapeFault → Prop
  | noGuard : Marker.guard.Absent t →
      FirstFault t expected check file (.markerNotFound "`#ifdef __cplusplus`" file)
  | noSignature {tail : Text} : HasTail t tail → Marker.signature.Absent tail →
      FirstFault t expected check file (.factoryNotFound expected file)
  | noEnding {front sig name after : Text} : HasSignature t front sig name after →
      Marker.ending.Absent after →
      FirstFault t expected check file (.factoryEndNotFound expected file)
  | otherName {front sig name after : Text} : HasSignature t front sig name after →
      ¬ Marker.ending.Absent after → check = .strict → String.ofList name ≠ expected →
      FirstFault t expected check file (.factoryNameMismatch expected (String.ofList name) file)

/-- All that extraction relies on: a guard, a signature in the tail, an ending after the signature,
and the expected name in it if the check is strict. -/
def Extractable (t : Text) (expected : String) (check : NameCheck) : Prop :=
  ∃ front sig name after, HasSignature t front sig name after ∧ ¬ Marker.ending.Absent after ∧
    (check = .strict → String.ofList name = expected)

theorem extractDeclarations_of_noGuard (h : Marker.guard.Absent t) :
    extractDeclarations t expected check file =
      .error (.markerNotFound "`#ifdef __cplusplus`" file) := by
  have hq : Marker.guard.quoted = "`#ifdef __cplusplus`" := by decide
  rw [extractDeclarations, locateTail, Marker.locate_eq_none_iff.mpr h, hq]
  rfl

theorem exists_extractDeclarations_of_hasTail (h : HasTail t tail) (file : Path) :
    ∃ span, ∀ expected check, extractDeclarations t expected check file =
      (locate tail expected check file).map fun (factory, warnings) =>
        (forwardDeclarations (LineEnding.detect t) ++ (LineEnding.detect t).text ++
            (excise? tail (LineEnding.detect t) factory.span factory.signature).getD [],
          warnings ++ [foundLine factory.name (factory.span.shift span) file]) := by
  obtain ⟨head, rest, hg, rfl⟩ := h
  have hspan : locateTail t file = .ok ⟨Text.size head, Text.size t⟩ := by
    rw [locateTail, hg.locate]
    rfl
  obtain ⟨head', rest', hg', hslice⟩ := slice?_of_locateTail hspan
  obtain ⟨-, -, rfl⟩ := hg.unique hg'
  refine ⟨Text.size head, fun expected check => ?_⟩
  simp only [extractDeclarations, hspan, hslice, bind, Except.bind, Option.getD_some]
  cases locate (Marker.guardToken ++ rest) expected check file <;> rfl

theorem locate_of_noSignature (h : Marker.signature.Absent tail) :
    locate tail expected check file = .error (.factoryNotFound expected file) := by
  rw [locate, Marker.locate_eq_none_iff.mpr h]

theorem locate_of_signature (h : Marker.signature.FirstMatch tail front ⟨sig, some name⟩ after) :
    locate tail expected check file =
      match Marker.ending.locateFrom ((front ++ sig) ++ after) (Text.size (front ++ sig)) with
      | .ok (some stop) =>
        let factory : Factory := ⟨String.ofList name, sig, ⟨Text.size front, stop.span.stop⟩⟩
        if String.ofList name = expected then .ok (factory, [])
        else match check with
          | .strict => .error (.factoryNameMismatch expected (String.ofList name) file)
          | .warn => .ok (factory, [mismatchWarning expected file (String.ofList name)])
      | _ => .error (.factoryEndNotFound expected file) := by
  have hw : tail = (front ++ sig) ++ after := by rw [h.whole, List.append_assoc]
  rw [locate, h.locate, ← hw, Text.size_append]
  rfl

theorem locate_of_noEnding (h : Marker.signature.FirstMatch tail front ⟨sig, some name⟩ after)
    (he : Marker.ending.Absent after) :
    locate tail expected check file = .error (.factoryEndNotFound expected file) := by
  rw [locate_of_signature h, Marker.locateFrom_of_absent he]

theorem exists_locate_of_ending (h : Marker.signature.FirstMatch tail front ⟨sig, some name⟩ after)
    (he : ¬ Marker.ending.Absent after) : ∃ factory, ∀ expected check file,
      locate tail expected check file =
        if String.ofList name = expected then .ok (factory, [])
        else match check with
          | .strict => .error (.factoryNameMismatch expected (String.ofList name) file)
          | .warn => .ok (factory, [mismatchWarning expected file (String.ofList name)]) := by
  obtain ⟨gap, x, back, hx⟩ := Marker.exists_firstMatch he
  exact ⟨_, fun expected check file => by rw [locate_of_signature h, hx.locateFrom]⟩

theorem exists_firstFault_or_extractable (t : Text) (expected : String) (check : NameCheck)
    (file : Path) : (∃ fault, FirstFault t expected check file fault) ∨ Extractable t expected check := by
  -- the cases are in the order in which extraction searches, each behind the first match of the one before
  by_cases hg : Marker.guard.Absent t
  · exact .inl ⟨_, .noGuard hg⟩
  obtain ⟨head, x, rest, hx⟩ := Marker.exists_firstMatch hg
  obtain ⟨tail, htail⟩ : ∃ tail, HasTail t tail := by
    cases hx.shape
    exact ⟨_, head, rest, hx, rfl⟩
  by_cases hs : Marker.signature.Absent tail
  · exact .inl ⟨_, .noSignature htail hs⟩
  obtain ⟨front, y, after, hy⟩ := Marker.exists_firstMatch hs
  obtain ⟨sig, name, hsig⟩ : ∃ sig name, HasSignature t front sig name after := by
    cases hy.shape
    exact ⟨_, _, tail, htail, hy⟩
  by_cases he : Marker.ending.Absent after
  · exact .inl ⟨_, .noEnding hsig he⟩
  by_cases hn : check = .strict ∧ String.ofList name ≠ expected
  · exact .inl ⟨_, .otherName hsig he hn.1 hn.2⟩
  · refine .inr ⟨front, sig, name, after, hsig, he, fun hc => ?_⟩
    by_contra hne
    exact hn ⟨hc, hne⟩

theorem FirstFault.extractDeclarations (h : FirstFault t expected check file fault) :
    extractDeclarations t expected check file = .error fault := by
  cases h with
  | noGuard hg => exact extractDeclarations_of_noGuard hg
  | noSignature htail hs =>
    obtain ⟨span, hspan⟩ := exists_extractDeclarations_of_hasTail htail file
    rw [hspan, locate_of_noSignature hs]
    rfl
  | noEnding hsig he =>
    obtain ⟨tail, htail, hs⟩ := hsig
    obtain ⟨span, hspan⟩ := exists_extractDeclarations_of_hasTail htail file
    rw [hspan, locate_of_noEnding hs he]
    rfl
  | otherName hsig he hc hne =>
    obtain ⟨tail, htail, hs⟩ := hsig
    obtain ⟨span, hspan⟩ := exists_extractDeclarations_of_hasTail htail file
    obtain ⟨factory, hfactory⟩ := exists_locate_of_ending hs he
    rw [hspan, hfactory, if_neg hne, hc]
    rfl

theorem Extractable.exists_extractDeclarations (h : Extractable t expected check) (file : Path) :
    ∃ out log, extractDeclarations t expected check file = .ok (out, log) := by
  obtain ⟨front, sig, name, after, ⟨tail, htail, hs⟩, he, hn⟩ := h
  obtain ⟨span, hspan⟩ := exists_extractDeclarations_of_hasTail htail file
  obtain ⟨factory, hfactory⟩ := exists_locate_of_ending hs he
  rw [hspan, hfactory]
  by_cases hname : String.ofList name = expected
  · rw [if_pos hname]
    exact ⟨_, _, rfl⟩
  · rw [if_neg hname]
    cases check with
    | strict => exact absurd (hn rfl) hname
    | warn => exact ⟨_, _, rfl⟩

theorem extractDeclarations_warn_of_strict {out : Text} {log : List LogLine}
    (h : extractDeclarations t expected .strict file = .ok (out, log)) :
    extractDeclarations t expected .warn file = .ok (out, log) := by
  obtain ⟨fault, hfault⟩ | ⟨front, sig, name, after, ⟨tail, htail, hs⟩, he, hn⟩ :=
    exists_firstFault_or_extractable t expected .strict file
  · rw [hfault.extractDeclarations] at h
    cases h
  · obtain ⟨span, hspan⟩ := exists_extractDeclarations_of_hasTail htail file
    obtain ⟨factory, hfactory⟩ := exists_locate_of_ending hs he
    rw [hspan, hfactory, if_pos (hn rfl)] at h ⊢
    exact h

/-- Extraction fails just by the first fault of a parser, it succeeds just if the parser has all that
it relies on, and a lenient check of the name changes nothing where a strict one succeeds. -/
theorem extraction_reports_first_fault (t : Text) (expected : String) (file : Path) :
    (∀ check fault, extractDeclarations t expected check file = .error fault ↔
      FirstFault t expected check file fault) ∧
    (∀ check, (∃ out log, extractDeclarations t expected check file = .ok (out, log)) ↔
      Extractable t expected check) ∧
    ∀ out log, extractDeclarations t expected .strict file = .ok (out, log) →
      extractDeclarations t expected .warn file = .ok (out, log) := by
  refine ⟨fun check fault => ⟨fun h => ?_, FirstFault.extractDeclarations⟩,
    fun check => ⟨?_, fun h => h.exists_extractDeclarations file⟩,
    fun out log => extractDeclarations_warn_of_strict⟩
  · obtain ⟨fault', hfault⟩ | hok := exists_firstFault_or_extractable t expected check file
    · obtain rfl := Except.error.inj (h.symm.trans hfault.extractDeclarations)
      exact hfault
    · obtain ⟨out, log, hok⟩ := hok.exists_extractDeclarations file
      cases h.symm.trans hok
  · rintro ⟨out, log, h⟩
    obtain ⟨fault, hfault⟩ | hok := exists_firstFault_or_extractable t expected check file
    · cases h.symm.trans hfault.extractDeclarations
    · exact hok

end Factory

end GrammarHeaders
