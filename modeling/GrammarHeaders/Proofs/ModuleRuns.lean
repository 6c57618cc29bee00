import GrammarHeaders.Proofs.Agreement
import GrammarHeaders.Proofs.Checkouts
import GrammarHeaders.Pipeline

namespace GrammarHeaders

open Disk (Agree)

variable {here : Location} {A B : Location → Prop} {o : Options} {repo : Path} {s u : Session}
  {m : LanguageModule} {name : String}

theorem isName_of_isIdentifierFragment (h : ModuleName.isIdentifierFragment name = true) :
    IsName name := by
  simp only [ModuleName.isIdentifierFragment, Bool.and_eq_true, List.all_eq_true] at h
  obtain ⟨hne, hword⟩ := h
  refine ⟨?_, ?_, ?_, fun hc => ?_⟩
  · rintro rfl
    simp at hne
  · rintro rfl
    exact absurd (hword '.' (by simp)) (by decide)
  · rintro rfl
    exact absurd (hword '.' (by simp)) (by decide)
  · exact absurd (hword _ hc) (by decide)

theorem isName_fileName (h : IsName name) : IsName (Header.fileName name) := by
  have hsuffix : (Header.fileName name).toList = name.toList ++ ['.', 'h'] := by
    simp [Header.fileName]
  have hlast : (Header.fileName name).toList.getLast? = some 'h' := by simp [hsuffix]
  refine ⟨?_, ?_, ?_, fun hc => ?_⟩
  · intro he
    simp [he] at hlast
  · intro he
    rw [he] at hlast
    exact absurd hlast (by decide)
  · intro he
    rw [he] at hlast
    exact absurd hlast (by decide)
  · rw [hsuffix, List.mem_append] at hc
    rcases hc with hc | hc
    · exact h.no_separator hc
    · exact absurd hc (by decide)

theorem destination_outputPath (h : IsName name) (out : Path) (here : Location) :
    (Header.outputPath out name).destination here =
      out.destination here ++ [name, Header.fileName name] := by
  rw [Header.outputPath, Path.destination_div (isName_fileName h), Path.destination_div h,
    List.append_assoc, List.singleton_append]

theorem entered_outputPath (h : IsName name) (out : Path) (here : Location) :
    (Header.outputPath out name).entered here = out.entered here ++
      [out.destination here ++ [name], out.destination here ++ [name, Header.fileName name]] := by
  rw [Header.outputPath, Path.entered_div (isName_fileName h), Path.entered_div h,
    Path.destination_div h, List.append_assoc, List.append_assoc]
  rfl

theorem reads_extractHeader (m : LanguageModule) (config : Config) :
    Stage.Reads (extractHeader m config) := by
  refine (Stage.Reads.ofExcept _).bind fun parser => (Action.reads_readText _).bind fun source => ?_
  split
  · exact .throw _
  · exact (Stage.Reads.logAll _).bind fun _ => .pure _

theorem gives_extractHeader (m : LanguageModule) (config : Config) :
    Stage.Gives (fun header => header.moduleName = m.name) (extractHeader m config) := by
  intro s header t h
  obtain ⟨_, _, _, _, -, -, -, rfl⟩ := extractHeader_eq_ok h
  rfl

theorem Action.gives_ensureModuleDir (root : Path) (module : String) :
    Stage.Gives (· = root / module) (ensureModuleDir root module) := by
  intro s dir t h
  obtain ⟨_, _, -, h⟩ := Stage.start_bind_eq_ok.mp h
  rw [Stage.start_pure] at h
  exact (Except.ok.inj (Prod.mk.inj h).1).symm

theorem Action.grows_ensureModuleDir {files : Location → Prop} (root : Path) (module : String) :
    Stage.Grows here (· ∈ (root / module).entered here) files (ensureModuleDir root module) :=
  (grows_ensureDirOr _ _).bind fun _ => (Stage.Reads.pure _).grows

theorem gives_writeLanguageHeader (m : LanguageModule) (out : Path) (config : Config) :
    Stage.Gives (· = Header.outputPath out m.name) (writeLanguageHeader m out config) := by
  intro s path t h
  obtain ⟨header, s₁, hheader, h⟩ := Stage.start_bind_eq_ok.mp h
  obtain ⟨dir, s₂, hdir, h⟩ := Stage.start_bind_eq_ok.mp h
  obtain ⟨_, s₃, -, h⟩ := Stage.start_bind_eq_ok.mp h
  rw [Stage.start_pure] at h
  rw [← Except.ok.inj (Prod.mk.inj h).1, Action.gives_ensureModuleDir _ _ _ _ _ hdir,
    gives_extractHeader _ _ _ _ _ hheader]
  rfl

theorem grows_writeLanguageHeader (m : LanguageModule) (out : Path) (config : Config) :
    Stage.Grows here (· ∈ (out / m.name).entered here)
      (· = (Header.outputPath out m.name).destination here) (writeLanguageHeader m out config) := by
  refine (reads_extractHeader m config).grows.bind_of_gives (gives_extractHeader m config)
    fun header hname => ?_
  rw [hname]
  refine (Action.grows_ensureModuleDir _ _).bind_of_gives (Action.gives_ensureModuleDir _ _)
    fun dir hdir => ?_
  rw [hdir]
  exact (Action.grows_writeText _ _).bind fun _ => (Stage.Reads.pure _).grows

theorem grows_annotateLanguageHeader {dirs : Location → Prop} (m : LanguageModule) (path : Path)
    (config : Config) :
    Stage.Grows here dirs (· = path.destination here) (annotateLanguageHeader m path config) :=
  (Action.grows_updateInPlace path _).bind fun _ =>
    (Stage.Reads.log _).grows.bind fun _ => (Stage.Reads.pure _).grows

theorem Generator.quiet_none (r : Request) : Stage.Quiet (Generator.none.ask r) .skipped :=
  fun _ => ⟨_, rfl, rfl⟩

/-- What a run of one grammar does after the grammar has been discovered. -/
def publish (o : Options) (m : LanguageModule) : Action (LanguageHeader × Outcome) := do
  let header ← writeLanguageHeader m o.headersOut o.config
  let includeDir := header.parent?.getD o.headersOut
  let outcome ← Generator.none.ask ⟨m.name, [header], includeDir, o.bindingsOut⟩
  return (← annotateLanguageHeader m header o.config, outcome)

theorem runModule_none (o : Options) (repo : Path) :
    runModule o Generator.none repo =
      Stage.within (.layout repo) (LanguageModule.discover repo) >>= publish o := rfl

theorem grows_publish (o : Options) (m : LanguageModule) :
    Stage.Grows here (· ∈ (o.headersOut / m.name).entered here)
      (· = (Header.outputPath o.headersOut m.name).destination here) (publish o m) := by
  refine (grows_writeLanguageHeader m _ _).bind_of_gives (gives_writeLanguageHeader m _ _)
    fun path hpath => ?_
  have hask : Stage.Reads (Generator.none.ask
      ⟨m.name, [path], path.parent?.getD o.headersOut, o.bindingsOut⟩) := fun s => by
    obtain ⟨t, ht, hd⟩ := Generator.quiet_none ⟨m.name, [path], path.parent?.getD o.headersOut, o.bindingsOut⟩ s
    rw [ht]
    exact hd
  refine hask.grows.bind fun outcome => ?_
  rw [← hpath]
  exact (grows_annotateLanguageHeader m path o.config).bind fun _ => (Stage.Reads.pure _).grows

theorem start_runModule_of_error {fault : LayoutFault} {t : Session}
    (h : Stage.start (LanguageModule.discover repo) s = (.error fault, t)) :
    Stage.start (runModule o Generator.none repo) s = (.error (.layout repo fault), t) := by
  rw [runModule_none, Stage.start_bind, Stage.start_within, h]
  rfl

theorem start_runModule_of_ok {t : Session}
    (h : Stage.start (LanguageModule.discover repo) s = (.ok m, t)) :
    Stage.start (runModule o Generator.none repo) s = Stage.start (publish o m) t := by
  rw [runModule_none, Stage.start_bind, Stage.start_within, h]
  rfl

theorem start_runModules_error {g : Generator} {failure : Failure} {claims : List (Except Failure Path)}
    {results : List (Except Failure (LanguageHeader × Outcome))} {t : Session}
    (h : Stage.start (runModules o g claims) s = (.ok results, t)) :
    Stage.start (runModules o g (.error failure :: claims)) s = (.ok (.error failure :: results), t) := by
  rw [runModules, Stage.start_bind_of_ok (Stage.start_pure _ s), Stage.start_bind_of_ok h,
    Stage.start_pure]

theorem start_runModules_ok {g : Generator} {claims : List (Except Failure Path)}
    {result : Except Failure (LanguageHeader × Outcome)}
    {results : List (Except Failure (LanguageHeader × Outcome))} {t : Session}
    (hfirst : Stage.start (runModule o g repo) s = (result, u))
    (h : Stage.start (runModules o g claims) u = (.ok results, t)) :
    Stage.start (runModules o g (.ok repo :: claims)) s = (.ok (result :: results), t) := by
  have hattempt : Stage.start (attempt (runModule o g repo)) s =
      (.ok (Stage.start (runModule o g repo) s).1, (Stage.start (runModule o g repo) s).2) := rfl
  rw [hfirst] at hattempt
  rw [runModules, Stage.start_bind_of_ok hattempt, Stage.start_bind_of_ok h, Stage.start_pure]

/-- The directory that a run of the grammar may make: that of its module. -/
def MakesDir (o : Options) (d : Disk) (repo : Path) (l : Location) : Prop :=
  ModuleName.isIdentifierFragment (moduleNameOf d repo) = true ∧
    l = o.headersOut.destination d.cwd ++ [moduleNameOf d repo]

/-- The file that a run of the grammar may write: the header of its module. -/
def WritesFile (o : Options) (d : Disk) (repo : Path) (l : Location) : Prop :=
  ModuleName.isIdentifierFragment (moduleNameOf d repo) = true ∧
    l = o.headersOut.destination d.cwd ++ [moduleNameOf d repo, Header.fileName (moduleNameOf d repo)]

theorem grows_of_discovered {d : Disk} (hm : Discovered s.disk repo m) (hout : s.disk.Leads o.headersOut)
    (hg : Disk.Grows (· ∈ (o.headersOut / m.name).entered s.disk.cwd)
      (· = (Header.outputPath o.headersOut m.name).destination s.disk.cwd) s.disk d) :
    Disk.Grows (MakesDir o s.disk repo) (WritesFile o s.disk repo) s.disk d := by
  have hname := isName_of_isIdentifierFragment hm.isIdentifier
  have hfiles : ∀ l, l = (Header.outputPath o.headersOut m.name).destination s.disk.cwd →
      WritesFile o s.disk repo l := fun l hl => by
    rw [hl, destination_outputPath hname, hm.name]
    exact ⟨hm.name ▸ hm.isIdentifier, rfl⟩
  refine (hg.mono (fun _ => id) hfiles).restrict fun l hl => ?_
  rw [Path.entered_div hname] at hl
  rcases List.mem_append.mp hl with hl | hl
  · exact .inl (hout.entered l hl)
  · rw [List.mem_singleton.mp hl, hm.name]
    exact .inr ⟨hm.name ▸ hm.isIdentifier, rfl⟩

/-- A run of a grammar makes no directory but that of its module and writes no file but the
header in it. -/
theorem runModule_grows (repo : Path) (hs : s.disk.Regular) (hout : s.disk.Leads o.headersOut) :
    Disk.Grows (MakesDir o s.disk repo) (WritesFile o s.disk repo) s.disk
      (Stage.start (runModule o Generator.none repo) s).2.disk := by
  cases hd : Stage.start (LanguageModule.discover repo) s with
  | mk result t =>
    have ht := LanguageModule.reads_discover repo s
    rw [hd] at ht
    cases result with
    | error fault =>
      rw [start_runModule_of_error hd, ht]
      exact .refl _ _ _
    | ok m =>
      have hg := grows_publish o m t (ht ▸ hs) rfl
      rw [ht] at hg
      rw [start_runModule_of_ok hd]
      exact grows_of_discovered (LanguageModule.discover_eq_ok hs hd) hout hg

/-- What processing a grammar alone does after the grammar has been discovered. -/
def publishAlone (o : Options) (m : LanguageModule) : Action LanguageHeader := do
  Stage.log (.debug s!"{m.name}: {m.sourceFiles.length} source file(s) in {m.sourceDir}")
  let path ← writeLanguageHeader m o.headersOut o.config
  annotateLanguageHeader m path o.config

theorem matches_publish (hm : ∀ file ∈ m.sourceFiles, ∀ l ∈ file.entered here, A l)
    (hdir : ∀ l ∈ (o.headersOut / m.name).entered here, A l)
    (hpath : ∀ l ∈ (Header.outputPath o.headersOut m.name).entered here, A l) :
    Stage.Matches (Agree here A B) (fun a b => a = (b, .skipped)) (publish o m) (publishAlone o m) := by
  refine .quiet_right (.log _) ?_
  refine (matches_writeLanguageHeader hm hdir hpath o.config).bind fun path path' ⟨he, hp⟩ => ?_
  subst he
  refine .quiet_left (Generator.quiet_none _) ?_
  rw [← hp] at hpath
  exact (matches_annotateLanguageHeader hpath m o.config).map_left fun _ _ he => by rw [he]

theorem grows_publishAlone (o : Options) (m : LanguageModule) :
    Stage.Grows here (· ∈ (o.headersOut / m.name).entered here)
      (· = (Header.outputPath o.headersOut m.name).destination here) (publishAlone o m) := by
  refine (Stage.Reads.log _).grows.bind fun _ => ?_
  refine (grows_writeLanguageHeader m _ _).bind_of_gives (gives_writeLanguageHeader m _ _)
    fun path hpath => ?_
  rw [← hpath]
  exact grows_annotateLanguageHeader m path o.config

theorem start_processGrammar_of_error {fault : LayoutFault} {t : Session}
    (h : Stage.start (LanguageModule.discover repo) s = (.error fault, t)) :
    Stage.start (processGrammar repo o.headersOut o.config) s = (.error (.layout repo fault), t) := by
  rw [processGrammar, Stage.start_bind, Stage.start_within, h]
  rfl

theorem start_processGrammar_of_ok {t : Session}
    (h : Stage.start (LanguageModule.discover repo) s = (.ok m, t)) :
    Stage.start (processGrammar repo o.headersOut o.config) s = Stage.start (publishAlone o m) t := by
  rw [processGrammar, Stage.start_bind, Stage.start_within, h]
  rfl

theorem processGrammar_grows (repo : Path) (hs : s.disk.Regular) (hout : s.disk.Leads o.headersOut) :
    Disk.Grows (MakesDir o s.disk repo) (WritesFile o s.disk repo) s.disk
      (Stage.start (processGrammar repo o.headersOut o.config) s).2.disk := by
  cases hd : Stage.start (LanguageModule.discover repo) s with
  | mk result t =>
    have ht := LanguageModule.reads_discover repo s
    rw [hd] at ht
    cases result with
    | error fault =>
      rw [start_processGrammar_of_error hd, ht]
      exact .refl _ _ _
    | ok m =>
      have hg := grows_publishAlone o m t (ht ▸ hs) rfl
      rw [ht] at hg
      rw [start_processGrammar_of_ok hd]
      exact grows_of_discovered (LanguageModule.discover_eq_ok hs hd) hout hg

/-- What a run of a grammar looks at: its checkout, and where its header is published. -/
structure Covers (o : Options) (here : Location) (repo : Path) (name : String) (A B : Location → Prop) :
    Prop where
  entered : ∀ l ∈ repo.entered here, A l
  below : ∀ l, repo.destination here <+: l → A l
  sources : B (repo.destination here ++ ["src"])
  output : ModuleName.isIdentifierFragment name = true →
    ∀ l ∈ (Header.outputPath o.headersOut name).entered here, A l

theorem Discovered.entered_source {d : Disk} (hm : Discovered d repo m) {file : Path} {l : Location}
    (hf : file ∈ m.sourceFiles) (hl : l ∈ file.entered here) :
    l ∈ repo.entered here ∨ repo.destination here <+: l := by
  have hsrc : IsName "src" := by decide
  obtain ⟨n, hn, rfl⟩ := hm.sources file hf
  rw [Path.entered_div hn, Path.entered_div hsrc, Path.destination_div hsrc, List.append_assoc] at hl
  rcases List.mem_append.mp hl with hl | hl
  · exact .inl hl
  · simp only [List.mem_append, List.mem_singleton] at hl
    rcases hl with rfl | rfl
    · exact .inr (List.prefix_append _ _)
    · rw [List.append_assoc]
      exact .inr (List.prefix_append _ _)

theorem Covers.sourceFile (h : Covers o here repo name A B) {d : Disk} (hm : Discovered d repo m) :
    ∀ file ∈ m.sourceFiles, ∀ l ∈ file.entered here, A l :=
  fun _ hf l hl => (hm.entered_source hf hl).elim (h.entered l) (h.below l)

/-- On disks that agree on what it looks at, a run of a grammar in the pipeline comes to what
processing it alone comes to. -/
theorem runModule_agree (h : Agree here A B s.disk u.disk)
    (hA : Covers o here repo (moduleNameOf s.disk repo) A B) :
    SameOutcome (fun a b => a = (b, .skipped)) (Stage.start (runModule o Generator.none repo) s).1
        (Stage.start (processGrammar repo o.headersOut o.config) u).1 ∧
      Agree here A B (Stage.start (runModule o Generator.none repo) s).2.disk
        (Stage.start (processGrammar repo o.headersOut o.config) u).2.disk := by
  obtain ⟨hresult, hdisk⟩ := LanguageModule.matches_discover (A := A) hA.entered
    (hA.below _ (List.prefix_append _ _)) hA.sources s u h
  cases hs : Stage.start (LanguageModule.discover repo) s with
  | mk result s' =>
    cases hu : Stage.start (LanguageModule.discover repo) u with
    | mk result' u' =>
      rw [hs, hu] at hresult hdisk
      obtain rfl : result = result' := sameOutcome_eq_iff.mp hresult
      cases result with
      | error fault =>
        rw [start_runModule_of_error hs, start_processGrammar_of_error hu]
        exact ⟨rfl, hdisk⟩
      | ok m =>
        have hm := LanguageModule.discover_eq_ok h.regular hs
        have hname := isName_of_isIdentifierFragment hm.isIdentifier
        have hpath := hA.output (hm.name ▸ hm.isIdentifier)
        rw [← hm.name] at hpath
        have hdir : ∀ l ∈ (o.headersOut / m.name).entered here, A l := fun l hl => by
          refine hpath l ?_
          rw [entered_outputPath hname]
          rw [Path.entered_div hname] at hl
          rcases List.mem_append.mp hl with hl | hl
          · exact List.mem_append_left _ hl
          · exact List.mem_append_right _ (List.mem_singleton.mp hl ▸ List.mem_cons_self)
        rw [start_runModule_of_ok hs, start_processGrammar_of_ok hu]
        exact matches_publish (hA.sourceFile hm) hdir hpath s' u' hdisk

theorem start_discover_of_not_isDir (h : s.disk.isDir repo = false) :
    Stage.start (LanguageModule.discover repo) s = (.error (.directoryNotFound repo), s) := by
  rw [LanguageModule.discover, Stage.start_bind, start_requireDir, h]
  rfl

/-- What a run of a grammar looks at, as predicates. -/
def Seen (o : Options) (here : Location) (repo : Path) (name : String) (l : Location) : Prop :=
  l ∈ repo.entered here ∨ repo.destination here <+: l ∨
    ModuleName.isIdentifierFragment name = true ∧ l ∈ (Header.outputPath o.headersOut name).entered here

theorem covers_seen (o : Options) (here : Location) (repo : Path) (name : String) :
    Covers o here repo name (Seen o here repo name) (· = repo.destination here ++ ["src"]) :=
  ⟨fun _ => .inl, fun _ h => .inr (.inl h), rfl, fun hn _ hl => .inr (.inr ⟨hn, hl⟩)⟩

/-- Where a grammar is published. -/
def Publishes (o : Options) (d : Disk) (repo : Path) (l : Location) : Prop :=
  MakesDir o d repo l ∨ WritesFile o d repo l

/-- A disk has grown, but not in a checkout, and not at a directory that the path to the checkout
leaves again. -/
structure Spared (repo : Path) (d d' : Disk) : Prop where
  regular : d.Regular
  grows : ∃ dirs files, Disk.Grows dirs files d d' ∧
    ∀ l, dirs l ∨ files l → ¬ repo.destination d.cwd <+: l
  exits : ∀ l ∈ repo.exits d.cwd, d'.tree.HasDir l → d.tree.HasDir l

namespace Spared

variable {d d' : Disk}

theorem refl (repo : Path) (hd : d.Regular) : Spared repo d d :=
  ⟨hd, ⟨fun _ => False, fun _ => False, .refl _ _ _, fun _ hl => (hl.elim id id).elim⟩, fun _ _ => id⟩

theorem regular' (h : Spared repo d d') : d'.Regular := by
  obtain ⟨dirs, files, hg, -⟩ := h.grows
  exact hg.regular h.regular

theorem cwd (h : Spared repo d d') : d'.cwd = d.cwd := by
  obtain ⟨dirs, files, hg, -⟩ := h.grows
  exact hg.cwd

theorem hasDir {l : Location} (h : Spared repo d d') (hl : d.tree.HasDir l) :
    d'.tree.get? l = d.tree.get? l := by
  obtain ⟨dirs, files, hg, -⟩ := h.grows
  exact (hg.tree.hasDir hl).trans hl.symm

theorem isDir (h : Spared repo d d') : d'.isDir repo = d.isDir repo := by
  obtain ⟨dirs, files, hg, hbelow⟩ := h.grows
  refine Bool.eq_iff_iff.mpr ⟨fun hd' => ?_, hg.isDir h.regular⟩
  obtain ⟨hf, hleads⟩ := (Disk.isDir_iff h.regular').mp hd'
  have hdest := hleads.hasDir h.regular'
  rw [h.cwd, hg.tree.hasDir_iff fun hdir => hbelow _ (.inl hdir) (List.prefix_refl _)] at hdest
  refine (Disk.isDir_iff h.regular).mpr ⟨hf, hleads.short, fun l hl => ?_⟩
  rcases Path.prefix_destination_or_mem_exits hl with hp | hx
  · exact h.regular.tree.hasDir_of_prefix hdest hp
  · exact h.exits l hx (hleads.entered l (h.cwd ▸ hl))

theorem moduleNameOf (h : Spared repo d d') :
    GrammarHeaders.moduleNameOf d' repo = GrammarHeaders.moduleNameOf d repo :=
  moduleNameOf_congr h.regular h.regular' h.cwd h.isDir

theorem publishes_iff {l : Location} (h : Spared repo d d') :
    Publishes o d' repo l ↔ Publishes o d repo l := by
  rw [Publishes, Publishes, MakesDir, MakesDir, WritesFile, WritesFile, h.moduleNameOf, h.cwd]

theorem checkout (h : Spared repo d d') (hdir : d.isDir repo = true) :
    Agree d.cwd (fun l => l ∈ repo.entered d.cwd ∨ repo.destination d.cwd <+: l)
      (· = repo.destination d.cwd ++ ["src"]) d d' := by
  obtain ⟨dirs, files, hg, hbelow⟩ := h.grows
  refine ⟨h.regular, h.regular', rfl, h.cwd, fun l hl => ?_, fun l hl => ?_⟩
  · rcases hl with hl | hl
    · exact h.hasDir (((Disk.isDir_iff h.regular).mp hdir).2.entered l hl)
    · exact hg.tree.get?_eq (fun hd => hbelow l (.inl hd) hl) fun hf => hbelow l (.inr hf) hl
  · subst hl
    refine hg.tree.fileNames_eq fun k hk hp => absurd ?_ (hbelow k (.inr hk))
    exact (List.prefix_append _ _).trans hp

end Spared

/-- Disks that both have spared a grammar agree on what a run of it looks at, if they have the same
where it is published. -/
theorem agree_seen {d d₁ d₂ : Disk} (h₁ : Spared repo d d₁) (h₂ : Spared repo d d₂)
    (hdir : d.isDir repo = true) (hout : d.Leads o.headersOut)
    (harea : ∀ l, Publishes o d repo l → d₂.tree.get? l = d₁.tree.get? l) :
    Agree d.cwd (Seen o d.cwd repo (moduleNameOf d repo)) (· = repo.destination d.cwd ++ ["src"]) d₁ d₂ := by
  have hc₁ := h₁.checkout hdir
  have hc₂ := h₂.checkout hdir
  refine ⟨h₁.regular', h₂.regular', h₁.cwd, h₂.cwd, fun l hl => ?_, fun l hl => ?_⟩
  · rcases hl with hl | hl | ⟨hid, hl⟩
    · exact (hc₂.get? l (.inl hl)).trans (hc₁.get? l (.inl hl)).symm
    · exact (hc₂.get? l (.inr hl)).trans (hc₁.get? l (.inr hl)).symm
    · rw [entered_outputPath (isName_of_isIdentifierFragment hid)] at hl
      rcases List.mem_append.mp hl with hl | hl
      · have hl := hout.entered l hl
        exact (h₂.hasDir hl).trans (h₁.hasDir hl).symm
      · refine harea l ?_
        rcases List.mem_cons.mp hl with hl | hl
        · exact .inl ⟨hid, hl⟩
        · exact .inr ⟨hid, List.mem_singleton.mp hl⟩
  · exact (hc₂.fileNames l hl).trans (hc₁.fileNames l hl).symm

/-- On such disks, a run of the grammar in the pipeline comes to what processing it alone comes to,
and they have the same where it is published afterwards. -/
theorem runModule_spared {d : Disk} (h : Spared repo d s.disk) (h' : Spared repo d u.disk)
    (hout : d.Leads o.headersOut)
    (harea : ∀ l, Publishes o d repo l → u.disk.tree.get? l = s.disk.tree.get? l) :
    SameOutcome (fun a b => a = (b, .skipped)) (Stage.start (runModule o Generator.none repo) s).1
        (Stage.start (processGrammar repo o.headersOut o.config) u).1 ∧
      ∀ l, Publishes o d repo l →
        (Stage.start (runModule o Generator.none repo) s).2.disk.tree.get? l =
          (Stage.start (processGrammar repo o.headersOut o.config) u).2.disk.tree.get? l := by
  cases hdir : d.isDir repo with
  | false =>
    rw [start_runModule_of_error (start_discover_of_not_isDir (h.isDir.trans hdir)),
      start_processGrammar_of_error (start_discover_of_not_isDir (h'.isDir.trans hdir))]
    exact ⟨rfl, fun l hl => (harea l hl).symm⟩
  | true =>
    have hcovers := covers_seen o d.cwd repo (moduleNameOf d repo)
    have hagree := agree_seen h h' hdir hout harea
    rw [← h.moduleNameOf] at hcovers hagree
    obtain ⟨hresult, hagree⟩ := runModule_agree hagree hcovers
    rw [h.moduleNameOf] at hagree
    refine ⟨hresult, fun l hl => (hagree.get? l (.inr (.inr ?_))).symm⟩
    rcases hl with ⟨hid, rfl⟩ | ⟨hid, rfl⟩
    · rw [entered_outputPath (isName_of_isIdentifierFragment hid)]
      exact ⟨hid, List.mem_append_right _ List.mem_cons_self⟩
    · rw [entered_outputPath (isName_of_isIdentifierFragment hid)]
      exact ⟨hid, List.mem_append_right _ (List.mem_cons_of_mem _ List.mem_cons_self)⟩

end GrammarHeaders
