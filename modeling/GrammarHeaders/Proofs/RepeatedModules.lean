import GrammarHeaders.Proofs.Repetition
import GrammarHeaders.Proofs.Schedules

namespace GrammarHeaders

variable {o : Options} {repo : Path} {m : LanguageModule} {s t u v : Session} {d : Disk}
  {here : Location} {A B : Location → Prop}

theorem annotateLanguageHeader_eq (m : LanguageModule) (path : Path) (config : Config) :
    annotateLanguageHeader m path config =
      Action.updateInPlace path (fun t =>
        ((config.languageAnnotator.annotate t).text, (config.languageAnnotator.annotate t).prefixed)) >>=
      fun result => Stage.log (.info s!"generated {path} ({result.2} exported declaration(s))") >>=
      fun _ => pure ⟨m.name, path, result.2⟩ := rfl

theorem publishAlone_eq (o : Options) (m : LanguageModule) :
    publishAlone o m =
      Stage.log (.debug s!"{m.name}: {m.sourceFiles.length} source file(s) in {m.sourceDir}") >>=
      fun _ => extractHeader m o.config >>=
      fun header => Action.ensureModuleDir o.headersOut header.moduleName >>=
      fun dir => Action.writeText (dir / Header.fileName header.moduleName) header.text >>=
      fun _ => annotateLanguageHeader m (dir / Header.fileName header.moduleName) o.config := by
  simp only [publishAlone, writeLanguageHeader, bind_assoc, pure_bind]

/-- To write and annotate the header of a grammar repeats, if nothing of it can be where the sources
are. -/
theorem publishAlone_repeats (hu : u.disk.Regular) (hout : u.disk.Leads o.headersOut)
    (hn : IsName m.name)
    (hsources : ∀ file ∈ m.sourceFiles, ∀ l ∈ file.entered u.disk.cwd, A l)
    (hagree : ∀ d, Disk.Grows (· ∈ (o.headersOut / m.name).entered u.disk.cwd)
      (· = (Header.outputPath o.headersOut m.name).destination u.disk.cwd) u.disk d →
        Disk.Agree u.disk.cwd A B u.disk d) :
    Stage.Repeats (publishAlone o m) u := by
  have hextract : ∀ {A B : Location → Prop}, (∀ file ∈ m.sourceFiles, ∀ l ∈ file.entered u.disk.cwd, A l) →
      Stage.Matches (Disk.Agree u.disk.cwd A B) Eq (extractHeader m o.config) (extractHeader m o.config) :=
    fun hsources s u h =>
      ⟨(matches_extractHeader hsources o.config s u h).1.mono fun _ _ he => he.1,
        (matches_extractHeader hsources o.config s u h).2⟩
  -- up to the directory every part is idle on what is left; writing and annotating repeat as one
  rw [publishAlone_eq]
  refine Stage.Repeats.bind nofun fun _ t₀ h₀ => ⟨fun v hv => ⟨_, rfl, hv⟩, ?_⟩
  have ht₀ : t₀.disk = u.disk := (congrArg Session.disk (Prod.mk.inj h₀).2).symm
  clear h₀
  refine Stage.Repeats.bind (fun _ _ _ => ?_) fun header t₁ h₁ => ?_
  · refine (reads_extractHeader m o.config).repeats (ht₀ ▸ hu) ?_
    rw [ht₀]
    exact hextract fun _ _ _ _ => trivial
  have ht₁ : t₁.disk = u.disk := by
    have hr := reads_extractHeader m o.config t₀
    rw [h₁] at hr
    exact hr.trans ht₀
  have hname := gives_extractHeader _ _ _ _ _ h₁
  rw [hname]
  have hafter : ∀ dir, dir = o.headersOut / m.name →
      Stage.Grows u.disk.cwd (· ∈ (o.headersOut / m.name).entered u.disk.cwd)
        (· = (Header.outputPath o.headersOut m.name).destination u.disk.cwd)
        (Action.writeText (dir / Header.fileName m.name) header.text >>= fun _ =>
          annotateLanguageHeader m (dir / Header.fileName m.name) o.config) := by
    rintro dir rfl
    exact (Action.grows_writeText _ _).bind fun _ => grows_annotateLanguageHeader m _ _
  have hr₁ : t₁.disk.Regular := ht₁ ▸ hu
  have hg₁ := (Action.grows_ensureModuleDir o.headersOut m.name).bind_of_gives
    (Action.gives_ensureModuleDir _ _) hafter t₁ hr₁ (congrArg Disk.cwd ht₁)
  rw [ht₁] at hg₁
  have hagree₁ := hagree _ hg₁
  rw [← ht₀] at hagree₁ hextract hsources
  refine ⟨Stage.Reads.idle (reads_extractHeader m o.config) (hextract hsources) hagree₁ h₁, ?_⟩
  refine Stage.Repeats.bind (fun failure t₂ h₂ => ?_) fun dir t₂ h₂ => ?_
  · refine (Action.onDisk_ensureModuleDir _ _).repeats ?_
    rw [h₂]
    exact Action.start_ensureModuleDir_eq_error hn hr₁ (ht₁ ▸ hout) h₂
  obtain ⟨rfl, hdir⟩ := Action.start_ensureModuleDir_eq_ok hn hr₁ h₂
  have hg₂ := @Action.grows_ensureModuleDir t₁.disk.cwd (fun _ => False) o.headersOut m.name t₁ hr₁ rfl
  rw [h₂] at hg₂
  have hr₂ := hg₂.regular hr₁
  have hg := hafter _ rfl t₂ hr₂ (hg₂.cwd.trans (congrArg Disk.cwd ht₁))
  refine ⟨fun v hv => ⟨v, Action.start_ensureModuleDir_of_isDir (hv ▸ hg.isDir hr₂ hdir), hv⟩, ?_⟩
  rw [annotateLanguageHeader_eq]
  refine Action.repeats_writeText_updateInPlace hr₂ (fun _ => ?_) fun _ => ?_
  · exact (Stage.Reads.log _).bind fun _ => .pure _
  · exact (Stage.Matches.log _ _).bind fun _ _ _ => .pure rfl

theorem spared_of_publishes (hu : u.disk.Regular)
    (hapart : (repo.destination u.disk.cwd).Apart (o.headersOut.destination u.disk.cwd))
    (hdir : u.disk.isDir repo = true)
    (hg : Disk.Grows (MakesDir o u.disk repo) (WritesFile o u.disk repo) u.disk d) :
    Spared repo u.disk d where
  regular := hu
  grows := ⟨_, _, hg, fun _ hl hbelow => hapart.not_prefix_both hbelow (publishes_below hl)⟩
  exits _ hl _ := ((Disk.isDir_iff hu).mp hdir).2.hasDir_of_mem_exits hu hl

theorem spared_diskAlone (hu : u.disk.Regular) (hout : u.disk.Leads o.headersOut)
    (hapart : (repo.destination u.disk.cwd).Apart (o.headersOut.destination u.disk.cwd)) :
    Spared repo u.disk (diskAlone o u repo) := by
  by_cases hdir : u.disk.isDir repo = true
  · exact spared_of_publishes hu hapart hdir (processGrammar_grows repo hu hout)
  · rw [diskAlone, start_processGrammar_of_error (start_discover_of_not_isDir (by simpa using hdir))]
    exact .refl repo hu

theorem processGrammar_repeats (hu : u.disk.Regular) (hout : u.disk.Leads o.headersOut)
    (hapart : (repo.destination u.disk.cwd).Apart (o.headersOut.destination u.disk.cwd)) :
    Stage.Repeats (processGrammar repo o.headersOut o.config) u := by
  have heq : processGrammar repo o.headersOut o.config =
      Stage.within (.layout repo) (LanguageModule.discover repo) >>= publishAlone o := rfl
  have hreads : Stage.Reads (Stage.within (Failure.layout repo) (LanguageModule.discover repo)) :=
    (LanguageModule.reads_discover repo).within _
  rw [heq]
  refine Stage.Repeats.bind (fun _ _ _ => ?_) fun m t hd => ?_
  · refine hreads.repeats hu ((LanguageModule.matches_discover (fun _ _ => trivial) ?_ ?_).within _)
    · exact trivial
    · exact trivial
  have ht := hreads u
  rw [hd] at ht
  have hm := LanguageModule.discover_eq_ok hu (Stage.start_within_eq_ok.mp hd)
  have hname := isName_of_isIdentifierFragment hm.isIdentifier
  have hcheckout : ∀ d, Disk.Grows (· ∈ (o.headersOut / m.name).entered u.disk.cwd)
      (· = (Header.outputPath o.headersOut m.name).destination u.disk.cwd) u.disk d →
        Disk.Agree u.disk.cwd (fun l => l ∈ repo.entered u.disk.cwd ∨ repo.destination u.disk.cwd <+: l)
          (· = repo.destination u.disk.cwd ++ ["src"]) u.disk d := fun d hg =>
    (spared_of_publishes hu hapart hm.isDir (grows_of_discovered hm hout hg)).checkout hm.isDir
  have hg := grows_publishAlone o m t (ht ▸ hu) (congrArg Disk.cwd ht)
  rw [ht] at hg
  have hmatches : Stage.Matches (Disk.Agree u.disk.cwd
      (fun l => l ∈ repo.entered u.disk.cwd ∨ repo.destination u.disk.cwd <+: l)
      (· = repo.destination u.disk.cwd ++ ["src"])) Eq
      (LanguageModule.discover repo) (LanguageModule.discover repo) :=
    LanguageModule.matches_discover (fun _ => .inl) (.inr (List.prefix_append _ _)) rfl
  refine ⟨hreads.idle (hmatches.within _) (hcheckout _ hg) hd, ?_⟩
  rw [← ht] at hu hout hcheckout
  exact publishAlone_repeats hu hout hname (fun _ hf _ hl => hm.entered_source hf hl) hcheckout

theorem assignNames_congr {d d' : Disk} {repos : List Path}
    (h : ∀ repo ∈ repos, moduleNameOf d' repo = moduleNameOf d repo) (taken : List (String × Path)) :
    assignNames d' taken repos = assignNames d taken repos := by
  induction repos generalizing taken with
  | nil => rfl
  | cons repo rest ih =>
    obtain ⟨hrepo, hrest⟩ := List.forall_mem_cons.mp h
    rw [assignNames, assignNames, hrepo]
    split
    · rw [ih hrest]
    · rw [ih hrest]

/-- On a disk that has spared all grammars, and has what each of them publishes alone, all grammars once
more change nothing. -/
theorem runModules_again {claims : List (Except Failure Path)} (hu : u.disk.Regular)
    (hout : u.disk.Leads o.headersOut)
    (hapart : ∀ repo ∈ accepted claims,
      (repo.destination u.disk.cwd).Apart (o.headersOut.destination u.disk.cwd))
    (hspared : ∀ repo ∈ accepted claims, Spared repo u.disk v.disk)
    (hpublished : ∀ repo ∈ accepted claims, ∀ l, Publishes o u.disk repo l →
      v.disk.tree.get? l = (diskAlone o u repo).tree.get? l) (hleads : v.disk.Leads o.headersOut) :
    ∃ w, Stage.start (runModules o Generator.none claims) v =
      (.ok (claims.map fun claim => claim.bind (alone o u)), w) ∧ w.disk = v.disk := by
  induction claims generalizing v with
  | nil => exact ⟨v, rfl, rfl⟩
  | cons claim rest ih =>
    cases claim with
    | error failure =>
      obtain ⟨w, hw, hd⟩ := ih hapart hspared hpublished hleads
      exact ⟨w, start_runModules_error hw, hd⟩
    | ok repo =>
      have haccepted : accepted (.ok repo :: rest) = repo :: accepted rest := rfl
      rw [haccepted] at hapart hspared hpublished
      obtain ⟨hapart₁, hapart⟩ := List.forall_mem_cons.mp hapart
      obtain ⟨hspared₁, hspared⟩ := List.forall_mem_cons.mp hspared
      obtain ⟨hpublished₁, hpublished⟩ := List.forall_mem_cons.mp hpublished
      -- processed once more, the grammar comes to the same
      obtain ⟨a, ha, had⟩ := processGrammar_repeats hu hout hapart₁ ⟨diskAlone o u repo, [], []⟩ rfl
      have hspared₂ := spared_diskAlone hu hout hapart₁
      obtain ⟨hresult, hdisk⟩ := runModule_spared (u := ⟨diskAlone o u repo, [], []⟩) hspared₁ hspared₂ hout
        fun l hl => (hpublished₁ l hl).symm
      rw [ha] at hresult hdisk
      have hrun := runModule_grows repo hspared₁.regular' hleads
      have hsame : (Stage.start (runModule o Generator.none repo) v).2.disk = v.disk := by
        refine hrun.eq_of_get?_eq hspared₁.regular' fun l => ?_
        by_cases hl : Publishes o u.disk repo l
        · rw [hdisk l hl, had, hpublished₁ l hl]
        · rw [← hspared₁.publishes_iff] at hl
          exact hrun.tree.get?_eq (fun hm => hl (.inl hm)) fun hw => hl (.inr hw)
      rw [← hsame] at hspared hpublished hleads
      obtain ⟨w, hw, hd⟩ := ih hapart hspared hpublished hleads
      exact ⟨w, start_runModules_ok (Prod.ext (alone_eq_of_sameOutcome hresult) rfl) hw, hd.trans hsame⟩

end GrammarHeaders
