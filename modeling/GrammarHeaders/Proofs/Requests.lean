import GrammarHeaders.Proofs.Turns

namespace GrammarHeaders

namespace Stage

variable {ε ε' α β : Type} {x : Stage ε α}

/-- The stage asks nothing, whatever it comes to. -/
def Silent (x : Stage ε α) : Prop := ∀ s, (start x s).2.asked = s.asked

theorem Silent.pure (a : α) : Silent (pure a : Stage ε α) := fun _ => rfl

theorem Silent.throw (e : ε) : Silent (throw e : Stage ε α) := fun _ => rfl

theorem Silent.ofExcept (r : Except ε α) : Silent (ofExcept r) := fun _ => rfl

theorem Silent.disk : Silent (disk : Stage ε Disk) := fun _ => rfl

theorem Silent.setDisk (d : Disk) : Silent (setDisk d : Stage ε Unit) := fun _ => rfl

theorem Silent.logAll (lines : List LogLine) : Silent (logAll lines : Stage ε Unit) := fun _ => rfl

theorem Silent.log (line : LogLine) : Silent (log line : Stage ε Unit) := fun _ => rfl

theorem Silent.within (h : Silent x) (wrap : ε → ε') : Silent (within wrap x) := h

theorem Silent.bind {k : α → Stage ε β} (h : Silent x) (hk : ∀ a, Silent (k a)) :
    Silent (x >>= k) := by
  intro s
  have hx := h s
  rw [start_bind]
  cases hs : start x s with
  | mk r s' =>
    rw [hs] at hx
    cases r with
    | error e => exact hx
    | ok a => exact (hk a s').trans hx

end Stage

open Stage (Silent)

variable {o : Options} {g : Generator} {s t u : Session}

namespace Action

theorem silent_change (failure : Cause → Failure) (operation : Disk → Except Cause Disk) :
    Silent (change failure operation) := by
  refine Silent.disk.bind fun d => ?_
  split
  · exact .setDisk _
  · exact .throw _

theorem silent_readText (path : Path) : Silent (readText path) := by
  refine Silent.disk.bind fun d => ?_
  split
  · exact .pure _
  · exact .throw _

theorem silent_updateInPlace {α : Type} (path : Path) (transform : Text → Text × α) :
    Silent (updateInPlace path transform) := by
  refine (silent_readText path).bind fun before => ?_
  dsimp only
  split
  · exact .pure _
  · exact (silent_change _ _).bind fun _ => .pure _

theorem silent_ensureDirOr (failure : Path → Cause → Failure) (path : Path) :
    Silent (ensureDirOr failure path) := by
  intro s
  rw [start_ensureDirOr]
  split <;> rfl

theorem silent_ensureModuleDir (root : Path) (module : String) : Silent (ensureModuleDir root module) :=
  (silent_ensureDirOr _ _).bind fun _ => .pure _

end Action

theorem silent_requireDir (dir : Path) : Silent (requireDir dir) := by
  intro s
  rw [start_requireDir]
  split <;> rfl

theorem silent_checkedModuleName (repo : Path) : Silent (checkedModuleName repo) := by
  intro s
  rw [start_checkedModuleName]
  split <;> rfl

theorem silent_findFiles {ε : Type} (dir : Path) (extensions : List String) (recursive : Bool) :
    Silent (findFiles dir extensions recursive : Stage ε (List Path)) := by
  refine Silent.disk.bind fun d => ?_
  dsimp only
  split
  · split
    · exact (Silent.logAll _).bind fun _ => .pure _
    · exact .pure _
  · exact (Silent.log _).bind fun _ => .pure _

theorem LanguageModule.silent_discover (repo : Path) : Silent (LanguageModule.discover repo) := by
  refine (silent_requireDir _).bind fun _ => (silent_checkedModuleName _).bind fun _ =>
    (silent_requireDir _).bind fun _ => (silent_findFiles _ _ _).bind fun files => ?_
  split
  · exact .throw _
  · exact .pure _

theorem RootLibrary.silent_discover (repo : Path) (layout : LayoutSettings) :
    Silent (RootLibrary.discover repo layout) := by
  refine (silent_requireDir _).bind fun _ => (silent_checkedModuleName _).bind fun _ =>
    (silent_requireDir _).bind fun _ => (silent_findFiles _ _ _).bind fun files => ?_
  split
  · exact .throw _
  · exact .pure _

theorem silent_extractHeader (m : LanguageModule) (config : Config) :
    Silent (extractHeader m config) := by
  refine (Silent.ofExcept _).bind fun parser => (Action.silent_readText _).bind fun source => ?_
  split
  · exact .throw _
  · exact (Silent.logAll _).bind fun _ => .pure _

theorem silent_writeLanguageHeader (m : LanguageModule) (out : Path) (config : Config) :
    Silent (writeLanguageHeader m out config) :=
  (silent_extractHeader m config).bind fun _ => (Action.silent_ensureModuleDir _ _).bind fun _ =>
    (Action.silent_change _ _).bind fun _ => .pure _

theorem silent_copyHeaders (dir : Path) (sources : List Path) : Silent (copyHeaders dir sources) := by
  induction sources with
  | nil => exact .pure _
  | cons source rest ih =>
    rw [copyHeaders]
    split
    · exact ih
    · exact (Action.silent_change _ _).bind fun _ => ih.bind fun _ => .pure _

theorem silent_annotateFiles (a : Annotator) (files : List Path) : Silent (annotateFiles a files) := by
  induction files with
  | nil => exact .pure _
  | cons file rest ih =>
    rw [annotateFiles]
    refine (Action.silent_updateInPlace _ _).bind fun result => ?_
    dsimp only
    split
    · exact (Silent.log _).bind fun _ => ih.bind fun _ => .pure _
    · exact ih.bind fun _ => .pure _

theorem silent_exportRootHeaders (root : RootLibrary) (out : Path) (config : Config) :
    Silent (exportRootHeaders root out config) :=
  (Action.silent_ensureModuleDir _ _).bind fun _ => (Silent.log _).bind fun _ =>
    (silent_copyHeaders _ _).bind fun _ => (silent_annotateFiles _ _).bind fun _ => .pure _

theorem silent_patchGenerated (module : String) (dir : Path) (generated : Bool) :
    Silent (patchGenerated module dir generated) := by
  have hfile : ∀ file, Silent (patchFile file) := fun file => by
    refine (Action.silent_updateInPlace _ _).bind fun (updated, lines) => ?_
    dsimp only
    split
    · exact (Silent.log _).bind fun _ => .pure _
    · exact .pure _
  have hfiles : ∀ files, Silent (patchFiles files) := fun files => by
    induction files with
    | nil => exact .pure _
    | cons file rest ih => exact (hfile file).bind fun _ => ih.bind fun _ => .pure _
  refine Silent.disk.bind fun d => ?_
  split
  · exact ((silent_findFiles _ _ _).bind hfiles).bind fun _ => (Silent.log _).bind fun _ => .pure _
  · split
    · exact .throw _
    · exact (Silent.log _).bind fun _ => .pure _

theorem silent_writeSmokeTestFor (o : Options) (root : String) (language : Option String) :
    Silent (writeSmokeTestFor o root language) := by
  unfold writeSmokeTestFor
  split
  · exact .pure _
  · exact Silent.bind ((Action.silent_ensureDirOr _ _).bind fun _ =>
      (Action.silent_change _ _).bind fun _ => (Silent.log _).bind fun _ => .pure _) fun _ => .pure _
  · exact (Silent.log _).bind fun _ => .pure _

theorem silent_collect (results : List (Path × ModuleResult)) : Silent (collect results) := by
  induction results with
  | nil => exact .pure _
  | cons entry rest ih =>
    obtain ⟨repo, failure | ⟨header, outcome⟩⟩ := entry
    · exact (Silent.log _).bind fun _ => ih.bind fun _ => .pure _
    · exact ih.bind fun _ => .pure _

theorem silent_conclude (o : Options) (root : RootLibrary) (outcome : Outcome) (headers : List Path)
    (results : List ModuleResult) : Silent (conclude o root outcome headers results) :=
  (silent_collect _).bind fun _ => (silent_patchGenerated _ _ _).bind fun _ =>
    (silent_writeSmokeTestFor _ _ _).bind fun _ => .pure _

/-- A question as it is kept: with the texts that the headers have on a disk. -/
def Request.asked (r : Request) (d : Disk) : Asked :=
  ⟨r, r.headers.map fun header => (d.readText header).toOption⟩

theorem Generator.start_ask (r : Request) (s : Session) :
    Stage.start (g.ask r) s =
      Stage.start (g.answer r) { s with asked := s.asked ++ [r.asked s.disk] } := rfl

/-- A generator that has no part in keeping the requests. -/
def Generator.Discreet (g : Generator) : Prop := ∀ r, Stage.Silent (g.answer r)

theorem Generator.discreet_none : Generator.none.Discreet := fun _ => (Silent.log _).bind fun _ => .pure _

theorem Generator.Discreet.ask_bind {β : Type} {k : Outcome → Action β} (hg : g.Discreet) (r : Request)
    (hk : ∀ outcome, Silent (k outcome)) (s : Session) :
    (Stage.start (g.ask r >>= k) s).2.asked = s.asked ++ [r.asked s.disk] := by
  have hanswer := (hg r).bind hk { s with asked := s.asked ++ [r.asked s.disk] }
  rw [Stage.start_bind] at hanswer ⊢
  rw [start_ask]
  exact hanswer

/-- The request for the root library. -/
def rootRequest (o : Options) (root : RootLibrary) : Request :=
  ⟨root.name, root.headerFiles, root.includeDir, o.bindingsOut⟩

/-- The request for a module whose header has been written. -/
def moduleRequest (o : Options) (m : LanguageModule) (header : Path) : Request :=
  ⟨m.name, [header], header.parent?.getD o.headersOut, o.bindingsOut⟩

namespace Run

/-- The turn of a grammar up to the question. -/
def prepare (o : Options) (repo : Path) : Action (LanguageModule × Path) := do
  let m ← Stage.within (.layout repo) (LanguageModule.discover repo)
  let header ← writeLanguageHeader m o.headersOut o.config
  return (m, header)

/-- The turn of a grammar from the question on. -/
def bindAndAnnotate (o : Options) (g : Generator) (m : LanguageModule) (header : Path) :
    Action (LanguageHeader × Outcome) := do
  let outcome ← g.ask (moduleRequest o m header)
  return (← annotateLanguageHeader m header o.config, outcome)

theorem runModule_eq (o : Options) (g : Generator) (repo : Path) :
    runModule o g repo = prepare o repo >>= fun (m, header) => bindAndAnnotate o g m header := by
  simp only [prepare, bind_assoc, pure_bind]
  rfl

theorem runModule_eq_discover (o : Options) (g : Generator) (repo : Path) :
    runModule o g repo = Stage.within (.layout repo) (LanguageModule.discover repo) >>= fun m =>
      writeLanguageHeader m o.headersOut o.config >>= bindAndAnnotate o g m := rfl

theorem start_prepare_eq_ok {m : LanguageModule} {header repo : Path}
    (h : Stage.start (prepare o repo) s = (.ok (m, header), t)) :
    ∃ u, Stage.start (LanguageModule.discover repo) s = (.ok m, u) ∧
      Stage.start (writeLanguageHeader m o.headersOut o.config) u = (.ok header, t) := by
  obtain ⟨m', u, hdiscover, h⟩ := Stage.start_bind_eq_ok.mp h
  obtain ⟨header', t', hwrite, h⟩ := Stage.start_bind_eq_ok.mp h
  obtain ⟨hresult, rfl⟩ := Prod.mk.inj h
  obtain ⟨rfl, rfl⟩ := Prod.mk.inj (Except.ok.inj hresult)
  exact ⟨u, Stage.start_within_eq_ok.mp hdiscover, hwrite⟩

theorem silent_prepare (o : Options) (repo : Path) : Silent (prepare o repo) :=
  ((LanguageModule.silent_discover repo).within _).bind fun _ =>
    (silent_writeLanguageHeader _ _ _).bind fun _ => .pure _

theorem asked_askAndExport (hg : g.Discreet) (root : RootLibrary) (s : Session) :
    (Stage.start (askAndExport o g root) s).2.asked =
      s.asked ++ [(rootRequest o root).asked s.disk] := by
  rw [askAndExport, Stage.start_bind, Stage.start_log]
  exact hg.ask_bind (rootRequest o root) (fun _ => (silent_exportRootHeaders _ _ _).bind fun _ =>
    .pure _) _

theorem asked_afterRoot (hg : g.Discreet) (s : Session) :
    (Refused o s ∧ (afterRoot o g s).asked = s.asked ∧
      ∃ failure, (Stage.start (rootStage o g) s).1 = .error failure) ∨
    ∃ root found, Stage.start (RootLibrary.discover o.rootRepo o.config.layout) s = (.ok root, found) ∧
      (afterRoot o g s).asked = s.asked ++ [(rootRequest o root).asked s.disk] := by
  have hsilent := RootLibrary.silent_discover o.rootRepo o.config.layout s
  obtain ⟨hrefused, failure, t, hrun, ht⟩ | ⟨root, t, hroot, hrun⟩ := rootStage_cases o g s
  · refine .inl ⟨hrefused, ?_, failure, congrArg Prod.fst hrun⟩
    rw [afterRoot, hrun]
    obtain rfl | ⟨fault, hfault⟩ := ht
    · rfl
    · rwa [hfault] at hsilent
  · refine .inr ⟨root, t, hroot, ?_⟩
    rw [hroot] at hsilent
    rw [afterRoot, hrun, asked_askAndExport hg, (RootLibrary.discover_eq_ok hroot).2]
    exact congrArg (· ++ _) hsilent

end Run

end GrammarHeaders
