import GrammarHeaders.Proofs.ModuleRuns

namespace GrammarHeaders

variable {here : Location} {dirs files : Location → Prop} {o : Options} {s t u : Session}
  {root : RootLibrary} {outcome : Outcome} {headers : List Path}

/-- The pipeline up to the headers of the root library. -/
def rootStage (o : Options) (g : Generator) : Action (RootLibrary × Outcome × List Path) := do
  if !(← Stage.disk).isDir o.rootRepo then throw (.rootRepoNotFound o.rootRepo)
  if o.grammarRepos.isEmpty then throw .missingGrammars
  let root ← Stage.within (.layout o.rootRepo) (RootLibrary.discover o.rootRepo o.config.layout)
  Stage.log (.info s!"root library {root.name} with {root.headerFiles.length} header(s)")
  let outcome ← g.ask ⟨root.name, root.headerFiles, root.includeDir, o.bindingsOut⟩
  let headers ← exportRootHeaders root o.headersOut o.config
  return (root, outcome, headers)

/-- The end of a run, from what the grammars have come to. -/
def conclude (o : Options) (root : RootLibrary) (outcome : Outcome) (headers : List Path)
    (results : List ModuleResult) : Action Report := do
  let modules ← collect (o.grammarRepos.zip results)
  let patch ← patchGenerated root.name o.bindingsOut (outcome == .generated || modules.generated)
  let smokeTest ← writeSmokeTestFor o root.name (smokeModule? results)
  return ⟨root.name, headers, modules.headers, patch, smokeTest, modules.failures⟩

/-- The pipeline after the root stage, where `work` is the loop over the grammars. -/
def grammarStage (o : Options) (work : List (Except Failure Path) → Action (List ModuleResult))
    (root : RootLibrary) (outcome : Outcome) (headers : List Path) : Action Report := do
  let results ← work (assignNames (← Stage.disk) [(root.name, root.repo)] o.grammarRepos)
  conclude o root outcome headers results

theorem generateWith_eq (o : Options) (g : Generator)
    (work : List (Except Failure Path) → Action (List ModuleResult)) :
    generateWith o g work = rootStage o g >>= fun (root, outcome, headers) =>
      grammarStage o work root outcome headers := by
  simp only [generateWith, rootStage, bind_assoc]
  congr 1
  funext d
  split
  · simp
  · split
    · simp
    · simp [bind_assoc]
      rfl

theorem generate_eq (o : Options) (g : Generator) :
    generate o g = rootStage o g >>= fun (root, outcome, headers) =>
      grammarStage o (runModules o g) root outcome headers :=
  generateWith_eq o g (runModules o g)

/-- What a root library that was discovered has, as its checkout is. -/
structure RootDiscovered (d : Disk) (repo : Path) (layout : LayoutSettings) (root : RootLibrary) :
    Prop where
  name : root.name = moduleNameOf d repo
  isIdentifier : ModuleName.isIdentifierFragment root.name = true
  repo_eq : root.repo = repo
  includeDir : root.includeDir = repo.join layout.rootIncludeDir
  isDir : d.isDir repo = true
  isDir_includeDir : d.isDir root.includeDir = true
  headerFiles : root.headerFiles = foundFiles d root.includeDir headerExtensions true
  headerFiles_ne_nil : root.headerFiles ≠ []

theorem RootLibrary.exists_start_discover (repo : Path) (layout : LayoutSettings) (s : Session) :
    ∃ t, t.disk = s.disk ∧ Stage.start (RootLibrary.discover repo layout) s =
      if s.disk.isDir repo = true then
        if ModuleName.isIdentifierFragment (moduleNameOf s.disk repo) = true then
          if s.disk.isDir (repo.join layout.rootIncludeDir) = true then
            (if foundFiles s.disk (repo.join layout.rootIncludeDir) headerExtensions true = [] then
              .error (.headersNotFound (repo.join layout.rootIncludeDir))
            else .ok ⟨moduleNameOf s.disk repo, repo, repo.join layout.rootIncludeDir,
              foundFiles s.disk (repo.join layout.rootIncludeDir) headerExtensions true⟩, t)
          else (.error (.directoryNotFound (repo.join layout.rootIncludeDir)), s)
        else (.error (.invalidModuleName repo), s)
      else (.error (.directoryNotFound repo), s) := by
  obtain ⟨t, ht, hrest⟩ := exists_start_surveyed repo (repo.join layout.rootIncludeDir) headerExtensions true s
  refine ⟨t, ht, ?_⟩
  have hstart := hrest fun name files => do
    if files.isEmpty then throw (.headersNotFound (repo.join layout.rootIncludeDir))
    return (⟨name, repo, repo.join layout.rootIncludeDir, files⟩ : RootLibrary)
  change Stage.start (RootLibrary.discover repo layout) s = _ at hstart
  rw [hstart]
  cases foundFiles s.disk (repo.join layout.rootIncludeDir) headerExtensions true <;> rfl

theorem RootLibrary.discover_eq_ok {repo : Path} {layout : LayoutSettings}
    (h : Stage.start (RootLibrary.discover repo layout) s = (.ok root, t)) :
    RootDiscovered s.disk repo layout root ∧ t.disk = s.disk := by
  obtain ⟨u, hu, hstart⟩ := exists_start_discover repo layout s
  rw [hstart] at h
  split at h
  · rename_i hdir
    split at h
    · rename_i hid
      split at h
      · rename_i hinclude
        obtain ⟨hresult, rfl⟩ := Prod.mk.inj h
        split at hresult
        · cases hresult
        · rename_i hne
          obtain rfl := Except.ok.inj hresult
          exact ⟨⟨rfl, hid, rfl, rfl, hdir, hinclude, rfl, hne⟩, hu⟩
      · cases h
    · cases h
  · cases h

theorem RootDiscovered.start_discover {repo : Path} {layout : LayoutSettings}
    (h : RootDiscovered s.disk repo layout root) :
    ∃ t, Stage.start (RootLibrary.discover repo layout) s = (.ok root, t) ∧ t.disk = s.disk := by
  obtain ⟨hname, hid, hrepo, hinclude, hdir, hdir', hfiles, hne⟩ := h
  obtain ⟨name, repo', includeDir, headerFiles⟩ := root
  dsimp only at hname hid hrepo hinclude hdir' hfiles hne
  subst hname hrepo hinclude hfiles
  obtain ⟨t, ht, hstart⟩ := RootLibrary.exists_start_discover repo' layout s
  rw [if_pos hdir, if_pos hid, if_pos hdir', if_neg hne] at hstart
  exact ⟨t, hstart, ht⟩

theorem start_rootStage (hdir : s.disk.isDir o.rootRepo = true) (hgrammars : o.grammarRepos ≠ [])
    {t₀ : Session}
    (h : Stage.start (RootLibrary.discover o.rootRepo o.config.layout) s = (.ok root, t₀)) :
    ∃ t, t.disk = t₀.disk ∧ Stage.start (rootStage o Generator.none) s =
      Stage.start (exportRootHeaders root o.headersOut o.config >>= fun headers =>
        pure (root, .skipped, headers)) t := by
  have hempty : o.grammarRepos.isEmpty = false := by simpa using hgrammars
  rw [rootStage, Stage.start_bind, Stage.start_disk]
  simp only [hdir, hempty, Bool.not_true, Bool.false_eq_true, if_false]
  rw [Stage.start_bind, Stage.start_within, h]
  dsimp only [Except.mapError]
  rw [Stage.start_bind, Stage.start_log]
  dsimp only
  obtain ⟨t, ht, hd⟩ := Generator.quiet_none
    ⟨root.name, root.headerFiles, root.includeDir, o.bindingsOut⟩
    { t₀ with log := t₀.log ++ [.info s!"root library {root.name} with {root.headerFiles.length} header(s)"] }
  rw [Stage.start_bind, ht]
  exact ⟨t, hd, rfl⟩

theorem start_rootStage_eq_ok
    (h : Stage.start (rootStage o Generator.none) s = (.ok (root, outcome, headers), u)) :
    RootDiscovered s.disk o.rootRepo o.config.layout root ∧ o.grammarRepos ≠ [] ∧
      outcome = .skipped ∧ ∃ t, t.disk = s.disk ∧
        Stage.start (exportRootHeaders root o.headersOut o.config) t = (.ok headers, u) := by
  have hgrammars : o.grammarRepos ≠ [] := by
    intro hnil
    rw [rootStage, Stage.start_bind, Stage.start_disk] at h
    simp only [hnil, List.isEmpty_nil, if_true] at h
    split at h <;> simp at h
  have hdir : s.disk.isDir o.rootRepo = true := by
    by_contra hno
    rw [rootStage, Stage.start_bind, Stage.start_disk] at h
    simp [hno] at h
  cases hr : Stage.start (RootLibrary.discover o.rootRepo o.config.layout) s with
  | mk result t₀ =>
    cases result with
    | error fault =>
      have hempty : o.grammarRepos.isEmpty = false := by simpa using hgrammars
      rw [rootStage, Stage.start_bind, Stage.start_disk] at h
      simp [hdir, hempty, Stage.start_bind, Stage.start_within, hr, Except.mapError] at h
    | ok root' =>
      obtain ⟨hroot, hd₀⟩ := RootLibrary.discover_eq_ok hr
      obtain ⟨t, ht, hstart⟩ := start_rootStage hdir hgrammars hr
      rw [hstart] at h
      obtain ⟨headers', v, hexport, h⟩ := Stage.start_bind_eq_ok.mp h
      rw [Stage.start_pure] at h
      obtain ⟨hresult, rfl⟩ := Prod.mk.inj h
      obtain ⟨rfl, hrest⟩ := Prod.mk.inj (Except.ok.inj hresult)
      obtain ⟨rfl, rfl⟩ := Prod.mk.inj hrest
      exact ⟨hroot, hgrammars, rfl, t, ht.trans hd₀, hexport⟩

namespace Path

variable {p : Path} {n piece : String}

theorem isName_of_innerComponent (hp : piece ∈ p.pieces) (hempty : piece ≠ "") (hdot : piece ≠ ".")
    (h : innerComponent piece = .name n) : IsName n := by
  rw [innerComponent] at h
  split at h
  · cases h
  · rename_i hup
    obtain rfl := Component.name.inj h
    exact ⟨hempty, hdot, by simpa using hup, no_separator_of_mem_pieces hp⟩

theorem isName_of_mem_innerComponents {rest : List String} (hrest : rest ⊆ p.pieces)
    (h : Component.name n ∈ innerComponents rest) : IsName n := by
  obtain ⟨piece, hpiece, he⟩ := List.mem_map.mp h
  obtain ⟨hmem, hidle⟩ := List.mem_filter.mp hpiece
  simp only [isIdle, Bool.not_or, Bool.and_eq_true, Bool.not_eq_true', beq_eq_false_iff_ne] at hidle
  exact isName_of_innerComponent (hrest hmem) hidle.1 hidle.2 he

theorem isName_of_mem_components (h : Component.name n ∈ p.components) : IsName n := by
  rw [components] at h
  split at h
  · cases h
  · cases h
  · rename_i rest _ hp
    rcases List.mem_cons.mp h with he | h
    · cases he
    · exact isName_of_mem_innerComponents (hp ▸ List.subset_cons_self _ _) h
  · rename_i rest hp
    rcases List.mem_cons.mp h with he | h
    · cases he
    · exact isName_of_mem_innerComponents (hp ▸ List.subset_cons_self _ _) h
  · rename_i first rest _ hroot hhere hp
    rcases List.mem_cons.mp h with he | h
    · exact isName_of_innerComponent (hp ▸ List.mem_cons_self) hroot hhere he.symm
    · exact isName_of_mem_innerComponents (hp ▸ List.subset_cons_self _ _) h

theorem isName_of_fileName? (h : p.fileName? = some n) : IsName n := by
  rw [fileName?] at h
  split at h
  · rename_i m he
    obtain rfl := Option.some.inj h
    exact isName_of_mem_components (List.mem_of_getLast? he)
  · cases h

end Path

/-- What is right in a directory. -/
def RightIn (dir : Location) (l : Location) : Prop := ∃ n, IsName n ∧ l = dir ++ [n]

theorem Action.start_ensureDirOr_eq_ok {failure : Path → Cause → Failure} {p : Path}
    (hs : s.disk.Regular) (h : Stage.start (Action.ensureDirOr failure p) s = (.ok (), t)) :
    (p.text = "" ∨ p.parent? = none) ∧ t.disk = s.disk ∨ t.disk.Made p := by
  rw [start_ensureDirOr] at h
  split at h
  · rename_i hdir
    obtain ⟨-, rfl⟩ := Prod.mk.inj h
    exact .inr (Disk.made_of_isDir hs hdir)
  · rcases hm : s.disk.makeDirAll p with ⟨result, d⟩
    rw [hm] at h
    obtain ⟨hresult, rfl⟩ := Prod.mk.inj h
    cases result with
    | error cause => cases hresult
    | ok _ => exact (Disk.makeDirAll_spec hs hm).2 rfl

theorem Path.div_not_trivial {n : String} (hn : IsName n) (p : Path) :
    ¬ ((p / n).text = "" ∨ (p / n).parent? = none) := by
  rintro (h | h)
  · obtain ⟨front, hs, -⟩ := steps_div hn p
    have hnil : Disk.steps "" = [] := by decide
    rw [h, hnil] at hs
    simp at hs
  · exact parent?_div hn p h

theorem Action.start_ensureModuleDir_eq_ok {out dir : Path} {module : String} (hn : IsName module)
    (hs : s.disk.Regular) (h : Stage.start (Action.ensureModuleDir out module) s = (.ok dir, t)) :
    dir = out / module ∧ t.disk.isDir (out / module) = true := by
  refine ⟨gives_ensureModuleDir _ _ _ _ _ h, ?_⟩
  obtain ⟨_, s₁, h₁, h⟩ := Stage.start_bind_eq_ok.mp h
  rw [Stage.start_pure] at h
  obtain ⟨-, rfl⟩ := Prod.mk.inj h
  refine ((start_ensureDirOr_eq_ok hs h₁).resolve_left fun hl => ?_).isDir (Path.dropEndSlashes_div hn out)
  exact Path.div_not_trivial hn out hl.1

/-- The path of a copy: a name in the directory that one of the sources has. -/
def CopyIn (dir : Path) (sources : List Path) (p : Path) : Prop :=
  ∃ source ∈ sources, ∃ n, source.fileName? = some n ∧ p = dir / n

theorem CopyIn.of_tail {dir p source : Path} {rest : List Path} (h : CopyIn dir rest p) :
    CopyIn dir (source :: rest) p := by
  obtain ⟨file, hf, hp⟩ := h
  exact ⟨file, List.mem_cons_of_mem _ hf, hp⟩

theorem CopyIn.exists_name {dir p : Path} {sources : List Path} (h : CopyIn dir sources p) :
    ∃ n, IsName n ∧ p = dir / n := by
  obtain ⟨source, -, n, hn, rfl⟩ := h
  exact ⟨n, Path.isName_of_fileName? hn, rfl⟩

theorem CopyIn.rightIn {dir p : Path} {sources : List Path} (h : CopyIn dir sources p) :
    RightIn (dir.destination here) (p.destination here) := by
  obtain ⟨n, hn, rfl⟩ := h.exists_name
  exact ⟨n, hn, Path.destination_div hn dir here⟩

theorem gives_copies_copyHeaders (dir : Path) (sources : List Path) :
    Stage.Gives (fun copies => ∀ copy ∈ copies, CopyIn dir sources copy)
      (copyHeaders dir sources) := by
  induction sources with
  | nil =>
    intro s copies t h
    obtain ⟨h, -⟩ := Prod.mk.inj h
    obtain rfl := Except.ok.inj h
    exact nofun
  | cons source rest ih =>
    intro s copies t h
    rw [copyHeaders] at h
    split at h
    · exact fun copy hc => (ih _ _ _ h copy hc).of_tail
    · rename_i n hn
      obtain ⟨_, s₁, -, h⟩ := Stage.start_bind_eq_ok.mp h
      obtain ⟨others, s₂, h₂, h⟩ := Stage.start_bind_eq_ok.mp h
      rw [Stage.start_pure] at h
      obtain rfl := Except.ok.inj (Prod.mk.inj h).1
      exact List.forall_mem_cons.mpr ⟨⟨source, List.mem_cons_self, n, hn, rfl⟩,
        fun copy hc => (ih _ _ _ h₂ copy hc).of_tail⟩

theorem gives_copyHeaders (dir : Path) (sources : List Path) :
    Stage.Gives (fun copies => ∀ copy ∈ copies, ∃ n, IsName n ∧ copy = dir / n)
      (copyHeaders dir sources) :=
  fun s copies t h copy hc => (gives_copies_copyHeaders dir sources s copies t h copy hc).exists_name

theorem grows_copies_copyHeaders (dir : Path) (sources : List Path) :
    Stage.Grows here dirs (fun l => ∃ p, CopyIn dir sources p ∧ l = p.destination here)
      (copyHeaders dir sources) := by
  induction sources with
  | nil => exact (Stage.Reads.pure _).grows
  | cons source rest ih =>
    have hrest : Stage.Grows here dirs
        (fun l => ∃ p, CopyIn dir (source :: rest) p ∧ l = p.destination here)
        (copyHeaders dir rest) :=
      ih.mono (fun _ => id) fun l ⟨p, hp, hl⟩ => ⟨p, hp.of_tail, hl⟩
    rw [copyHeaders]
    split
    · exact hrest
    · rename_i n hn
      refine ((Action.grows_copyFile source (dir / n)).mono (fun _ => id) ?_).bind fun _ =>
        hrest.bind fun _ => (Stage.Reads.pure _).grows
      exact fun l hl => ⟨dir / n, ⟨source, List.mem_cons_self, n, hn, rfl⟩, hl⟩

theorem grows_copyHeaders (dir : Path) (sources : List Path) :
    Stage.Grows here dirs (RightIn (dir.destination here)) (copyHeaders dir sources) := by
  refine (grows_copies_copyHeaders dir sources).mono (fun _ => id) ?_
  rintro l ⟨p, hp, rfl⟩
  exact hp.rightIn

theorem grows_annotateFiles (a : Annotator) (paths : List Path) :
    Stage.Grows here dirs (fun l => ∃ p ∈ paths, l = p.destination here) (annotateFiles a paths) := by
  induction paths with
  | nil => exact (Stage.Reads.pure _).grows
  | cons p rest ih =>
    have hrest : Stage.Grows here dirs (fun l => ∃ q ∈ p :: rest, l = q.destination here)
        (annotateFiles a rest) :=
      ih.mono (fun _ => id) fun l ⟨q, hq, hl⟩ => ⟨q, List.mem_cons_of_mem _ hq, hl⟩
    rw [annotateFiles]
    refine ((Action.grows_updateInPlace p _).mono (fun _ => id) ?_).bind fun result => ?_
    · exact fun l hl => ⟨p, List.mem_cons_self, hl⟩
    obtain ⟨updated, prefixed⟩ := result
    dsimp only
    split
    · exact (Stage.Reads.log _).grows.bind fun _ => hrest.bind fun _ => (Stage.Reads.pure _).grows
    · exact hrest.bind fun _ => (Stage.Reads.pure _).grows

/-- The export of the root headers makes directories on the way to the module directory and writes
copies of the headers in it. -/
theorem grows_copies_exportRootHeaders (root : RootLibrary) (out : Path) (config : Config) :
    Stage.Grows here (· ∈ (out / root.name).entered here)
      (fun l => ∃ p, CopyIn (out / root.name) root.headerFiles p ∧ l = p.destination here)
      (exportRootHeaders root out config) := by
  refine (Action.grows_ensureModuleDir _ _).bind_of_gives (Action.gives_ensureModuleDir _ _)
    fun dir hdir => ?_
  rw [hdir]
  refine (Stage.Reads.log _).grows.bind fun _ => ?_
  refine (grows_copies_copyHeaders _ _).bind_of_gives (gives_copies_copyHeaders _ _)
    fun copies hcopies => ?_
  refine ((grows_annotateFiles _ _).mono (fun _ => id) ?_).bind fun _ => (Stage.Reads.pure _).grows
  exact fun l ⟨p, hp, hl⟩ => ⟨p, hcopies p hp, hl⟩

theorem grows_exportRootHeaders (hn : IsName root.name) :
    Stage.Grows here (fun _ => True) (RightIn (o.headersOut.destination here ++ [root.name]))
      (exportRootHeaders root o.headersOut o.config) := by
  refine (grows_copies_exportRootHeaders root _ _).mono (fun _ _ => trivial) ?_
  rintro l ⟨p, hp, rfl⟩
  exact Path.destination_div hn o.headersOut here ▸ hp.rightIn

theorem start_exportRootHeaders_eq_ok {out : Path} {config : Config}
    (h : Stage.start (exportRootHeaders root out config) t = (.ok headers, u)) :
    ∃ e e' c changed, Stage.start (Action.ensureModuleDir out root.name) t =
        (.ok (out / root.name), e) ∧ e'.disk = e.disk ∧
      Stage.start (copyHeaders (out / root.name) root.headerFiles) e' = (.ok headers, c) ∧
      Stage.start (annotateFiles config.rootAnnotator headers) c = (.ok changed, u) := by
  unfold exportRootHeaders at h
  obtain ⟨dir, e, h₁, h⟩ := Stage.start_bind_eq_ok.mp h
  obtain rfl := Action.gives_ensureModuleDir _ _ _ _ _ h₁
  obtain ⟨_, e', h₂, h⟩ := Stage.start_bind_eq_ok.mp h
  rw [Stage.start_log] at h₂
  obtain ⟨-, rfl⟩ := Prod.mk.inj h₂
  obtain ⟨copies, c, h₃, h⟩ := Stage.start_bind_eq_ok.mp h
  obtain ⟨changed, v, h₄, h⟩ := Stage.start_bind_eq_ok.mp h
  rw [Stage.start_pure] at h
  obtain ⟨hc, rfl⟩ := Prod.mk.inj h
  obtain rfl := Except.ok.inj hc
  refine ⟨e, _, c, changed, h₁, ?_, h₃, h₄⟩
  rfl

/-- After the root stage the output directory of the headers is there, and nothing has been written
but headers in the directory of the root module. -/
theorem rootStage_grows (hs : s.disk.Regular)
    (h : Stage.start (rootStage o Generator.none) s = (.ok (root, outcome, headers), u)) :
    Disk.Grows (fun _ => True) (RightIn (o.headersOut.destination s.disk.cwd ++ [root.name]))
        s.disk u.disk ∧ u.disk.isDir (o.headersOut / root.name) = true := by
  obtain ⟨hroot, -, -, t, ht, hexport⟩ := start_rootStage_eq_ok h
  have hn := isName_of_isIdentifierFragment hroot.isIdentifier
  have hst : t.disk.Regular := ht ▸ hs
  have hg := grows_exportRootHeaders (o := o) hn t hst rfl
  rw [hexport, ht] at hg
  obtain ⟨e, e', c, changed, hensure, he, hcopy, hannotate⟩ := start_exportRootHeaders_eq_ok hexport
  obtain ⟨-, hdir⟩ := Action.start_ensureModuleDir_eq_ok hn hst hensure
  have hge := @Action.grows_ensureModuleDir t.disk.cwd (fun _ => False) o.headersOut root.name t hst rfl
  rw [hensure] at hge
  have hse : e'.disk.Regular := he ▸ hge.regular hst
  have hgc := @grows_copyHeaders e'.disk.cwd (fun _ => False) (o.headersOut / root.name) root.headerFiles e' hse rfl
  rw [hcopy] at hgc
  have hga := @grows_annotateFiles c.disk.cwd (fun _ => False) o.config.rootAnnotator headers c
    (hgc.regular hse) rfl
  rw [hannotate] at hga
  exact ⟨hg, hga.isDir (hgc.regular hse) (hgc.isDir hse (he ▸ hdir))⟩

end GrammarHeaders
