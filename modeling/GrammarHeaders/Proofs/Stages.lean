import GrammarHeaders.Publishing

namespace GrammarHeaders

namespace Stage

variable {ε α β : Type}

theorem start_bind (x : Stage ε α) (f : α → Stage ε β) (s : Session) :
    start (x >>= f) s = match start x s with
      | (.ok a, u) => start (f a) u
      | (.error e, u) => (.error e, u) := by
  simp only [start, ExceptT.run, StateT.run, bind, ExceptT.bind, ExceptT.mk, StateT.bind]
  cases x s with
  | mk result u => cases result <;> rfl

theorem start_bind_of_ok {x : Stage ε α} {f : α → Stage ε β} {s u : Session} {a : α}
    (h : start x s = (.ok a, u)) : start (x >>= f) s = start (f a) u := by
  rw [start_bind, h]

theorem start_bind_of_error {x : Stage ε α} {f : α → Stage ε β} {s u : Session} {e : ε}
    (h : start x s = (.error e, u)) : start (x >>= f) s = (.error e, u) := by
  rw [start_bind, h]

theorem start_bind_eq_ok {x : Stage ε α} {f : α → Stage ε β} {s t : Session} {b : β} :
    start (x >>= f) s = (.ok b, t) ↔ ∃ a u, start x s = (.ok a, u) ∧ start (f a) u = (.ok b, t) := by
  rw [start_bind]
  cases start x s with
  | mk result u =>
    cases result with
    | error e => simp
    | ok a =>
      constructor
      · exact fun h => ⟨a, u, rfl, h⟩
      · rintro ⟨a', u', ha, h⟩
        cases ha
        exact h

theorem start_bind_eq_error {x : Stage ε α} {f : α → Stage ε β} {s t : Session} {e : ε} :
    start (x >>= f) s = (.error e, t) ↔
      start x s = (.error e, t) ∨ ∃ a u, start x s = (.ok a, u) ∧ start (f a) u = (.error e, t) := by
  rw [start_bind]
  cases start x s with
  | mk result u =>
    cases result with
    | error e' => simp
    | ok a =>
      constructor
      · exact fun h => .inr ⟨a, u, rfl, h⟩
      · rintro (h | ⟨a', u', ha, h⟩)
        · cases h
        · cases ha
          exact h

theorem start_bind_pure_eq_ok {x : Stage ε α} {f : α → β} {s t : Session} {b : β} :
    start (x >>= fun a => pure (f a)) s = (.ok b, t) ↔ ∃ a, start x s = (.ok a, t) ∧ f a = b := by
  rw [start_bind_eq_ok]
  constructor
  · rintro ⟨a, u, ha, h⟩
    obtain ⟨hb, rfl⟩ := Prod.mk.inj h
    exact ⟨a, ha, Except.ok.inj hb⟩
  · rintro ⟨a, ha, rfl⟩
    exact ⟨a, t, ha, rfl⟩

@[simp] theorem start_pure (a : α) (s : Session) : start (pure a : Stage ε α) s = (.ok a, s) := rfl

@[simp] theorem start_throw (e : ε) (s : Session) :
    start (throw e : Stage ε α) s = (.error e, s) := rfl

@[simp] theorem start_ofExcept (r : Except ε α) (s : Session) : start (ofExcept r) s = (r, s) := rfl

@[simp] theorem start_disk (s : Session) : start (disk : Stage ε Disk) s = (.ok s.disk, s) := rfl

end Stage

namespace Action

theorem start_readText (path : Path) (s : Session) :
    Stage.start (readText path) s = match s.disk.readText path with
      | .ok t => (.ok t, s)
      | .error cause => (.error (.file .read path cause), s) := by
  rw [readText, Stage.start_bind]
  cases h : s.disk.readText path <;> simp [h]

theorem start_readText_eq_ok {path : Path} {s u : Session} {t : Text} :
    Stage.start (readText path) s = (.ok t, u) ↔ s.disk.readText path = .ok t ∧ s = u := by
  rw [start_readText]
  cases s.disk.readText path <;> simp

end Action

theorem extractHeader_eq_ok {m : LanguageModule} {config : Config} {s u : Session} {header : Header}
    (h : Stage.start (extractHeader m config) s = (.ok header, u)) :
    ∃ parser source declarations lines, m.parserFile config.layout = .ok parser ∧
      s.disk.readText parser = .ok source ∧
      Factory.extractDeclarations source m.factoryName config.nameCheck parser =
        .ok (declarations, lines) ∧
      header = Header.synthesize m.name (m.provenance parser) declarations (LineEnding.detect source) := by
  unfold extractHeader at h
  obtain ⟨parser, s₁, hparser, h⟩ := Stage.start_bind_eq_ok.mp h
  rw [Stage.start_ofExcept] at hparser
  obtain ⟨hp, rfl⟩ := Prod.mk.inj hparser
  obtain ⟨source, s₂, hread, h⟩ := Stage.start_bind_eq_ok.mp h
  obtain ⟨hr, rfl⟩ := Action.start_readText_eq_ok.mp hread
  split at h
  · cases h
  · rename_i declarations lines he
    obtain ⟨-, s₃, -, h⟩ := Stage.start_bind_eq_ok.mp h
    rw [Stage.start_pure] at h
    obtain ⟨hh, -⟩ := Prod.mk.inj h
    exact ⟨parser, source, declarations, lines, hp, hr, he, (Except.ok.inj hh).symm⟩

theorem start_extractHeader_of_read {m : LanguageModule} {config : Config} {parser : Path}
    {source declarations : Text} {lines : List LogLine} {s : Session} (hparser : m.parserFile config.layout = .ok parser)
    (hread : s.disk.readText parser = .ok source)
    (hextract : Factory.extractDeclarations source m.factoryName config.nameCheck parser =
      .ok (declarations, lines)) :
    (Stage.start (extractHeader m config) s).1 = .ok
      (Header.synthesize m.name (m.provenance parser) declarations (LineEnding.detect source)) := by
  rw [extractHeader, Stage.start_bind, Stage.start_ofExcept, hparser]
  dsimp only
  rw [Stage.start_bind, Action.start_readText, hread]
  dsimp only
  rw [hextract]
  rfl

end GrammarHeaders
