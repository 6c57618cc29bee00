import GrammarHeaders.Proofs.DefinitionBlock
import GrammarHeaders.Proofs.RepeatedExport
import GrammarHeaders.Proofs.RepeatedModules
import GrammarHeaders.Proofs.RepeatedPatching
import GrammarHeaders.Proofs.RepeatedSmokeTest
import GrammarHeaders.Proofs.Turns

namespace GrammarHeaders

variable {o : Options} {s t u v : Session}

open Run (afterRoot claims afterGrammars claims_spec)

/-- A run of the pipeline that comes to a report, stage by stage. -/
structure Stages (o : Options) (s : Session) (r : Report) (t : Session) where
  root : RootLibrary
  outcome : Outcome
  headers : List Path
  rootStage : Stage.start (rootStage o Generator.none) s = (.ok (root, outcome, headers), afterRoot o .none s)
  results : List (Except Failure (LanguageHeader × Outcome))
  runModules : Stage.start (runModules o Generator.none (claims o .none s)) (afterRoot o .none s) =
    (.ok results, afterGrammars o .none s)
  modules : ModuleResults
  collect : Stage.Quiet (collect (o.grammarRepos.zip results)) modules
  beforePatch : Session
  beforePatch_disk : beforePatch.disk = (afterGrammars o .none s).disk
  patch : PatchSummary
  afterPatch : Session
  patchGenerated : Stage.start (patchGenerated root.name o.bindingsOut
    (outcome == .generated || modules.generated)) beforePatch = (.ok patch, afterPatch)
  smokeTest : Option Path
  writeSmokeTest : Stage.start (writeSmokeTestFor o root.name (smokeModule? results)) afterPatch =
    (.ok smokeTest, t)
  report : r = ⟨root.name, headers, modules.headers, patch, smokeTest, modules.failures⟩

theorem stages_of_generate {r : Report} (h : Stage.start (generate o Generator.none) s = (.ok r, t)) :
    Nonempty (Stages o s r t) := by
  obtain ⟨failure, -, herror⟩ | ⟨root, outcome, headers, results, -, hroot, hmodules, hconclude⟩ :=
    Run.start_generate o .none s
  · cases herror.symm.trans h
  · rw [hconclude] at h
    obtain ⟨modules, c, hcollect, h⟩ := Stage.start_bind_eq_ok.mp h
    obtain ⟨patch, p, hpatch, h⟩ := Stage.start_bind_eq_ok.mp h
    obtain ⟨smoke, t', hsmoke, h⟩ := Stage.start_bind_eq_ok.mp h
    obtain ⟨hr, rfl⟩ := Prod.mk.inj h
    have hquiet := quiet_collect (o.grammarRepos.zip results)
    obtain ⟨c', hc', hd⟩ := hquiet (afterGrammars o .none s)
    rw [hcollect] at hc'
    obtain ⟨hm, rfl⟩ := Prod.mk.inj hc'
    obtain rfl := Except.ok.inj hm
    exact ⟨root, outcome, headers, hroot, results, hmodules, _, hquiet, c, hd, patch, p, hpatch,
      smoke, hsmoke, (Except.ok.inj hr).symm⟩

def Options.outputs (o : Options) : List Path := o.headersOut :: o.bindingsOut :: o.smokeTestOut.toList

def Options.inputs (o : Options) : List Path :=
  o.rootRepo.join o.config.layout.rootIncludeDir :: o.grammarRepos

/-- A run does not write where it reads, and no path leaves by `..` a directory that is there only
because of what is done in the run. -/
structure Steady (o : Options) (s t : Session) : Prop where
  outputs : o.outputs.Pairwise fun p q => (p.destination s.disk.cwd).Apart (q.destination s.disk.cwd)
  inputs : ∀ p ∈ o.inputs, ∀ q ∈ o.outputs, (p.destination s.disk.cwd).Apart (q.destination s.disk.cwd)
  /-- Processing a grammar makes no directory that the path to a grammar leaves. -/
  grammars : ∀ repo ∈ o.grammarRepos, ∀ l ∈ repo.exits s.disk.cwd, ∀ other ∈ accepted (claims o .none s),
    (diskAlone o (afterRoot o .none s) other).tree.HasDir l → (afterRoot o .none s).disk.tree.HasDir l
  /-- Neither does writing the smoke test, for these paths. -/
  smokeTest : ∀ p ∈ o.bindingsOut :: (o.smokeTestOut.toList ++ o.grammarRepos), ∀ l ∈ p.exits s.disk.cwd,
    t.disk.tree.HasDir l → (afterGrammars o .none s).disk.tree.HasDir l

/-- What is at, above or below the bindings or the smoke test. -/
def Around (o : Options) (here l : Location) : Prop :=
  ∃ out ∈ o.bindingsOut :: o.smokeTestOut.toList, ¬ (out.destination here).Apart l

/-- What may change after the root stage: where grammars are published, and what is around the bindings
and the smoke test. -/
def Touches (o : Options) (d : Disk) (repos : List Path) (l : Location) : Prop :=
  (∃ repo ∈ repos, Publishes o d repo l) ∨ Around o d.cwd l

theorem Location.Apart.of_below {k l m : Location} (h : k.Apart l) (hk : k <+: m) : l.Apart m :=
  ⟨h.not_prefix_both hk, fun hm => h.1 (hk.trans hm)⟩

theorem Touches.not_below_apart {d : Disk} {repos : List Path} {p : Path} {l : Location}
    (hl : Touches o d repos l)
    (hp : ∀ out ∈ o.outputs, (p.destination d.cwd).Apart (out.destination d.cwd)) :
    ¬ p.destination d.cwd <+: l := by
  intro hpl
  rcases hl with ⟨repo, -, hl⟩ | ⟨out, ho, hl⟩
  · exact (hp _ List.mem_cons_self).not_prefix_both hpl (publishes_below hl)
  · exact hl ((hp out (List.mem_cons_of_mem _ ho)).of_below hpl)

theorem Steady.not_around {l : Location} (h : Steady o s t)
    (hl : o.headersOut.destination s.disk.cwd <+: l) : ¬ Around o s.disk.cwd l :=
  fun ⟨out, ho, hnear⟩ => hnear (((List.pairwise_cons.mp h.outputs).1 out ho).of_below hl)

namespace Stages

variable {r : Report}

theorem discovered (x : Stages o s r t) : RootDiscovered s.disk o.rootRepo o.config.layout x.root :=
  (start_rootStage_eq_ok x.rootStage).1

theorem isName (x : Stages o s r t) : IsName x.root.name :=
  isName_of_isIdentifierFragment x.discovered.isIdentifier

theorem grows_root (x : Stages o s r t) (hs : s.disk.Regular) :
    Disk.Grows (fun _ => True) (RightIn (o.headersOut.destination s.disk.cwd ++ [x.root.name]))
      s.disk (afterRoot o .none s).disk :=
  (rootStage_grows hs x.rootStage).1

theorem leads (x : Stages o s r t) (hs : s.disk.Regular) : (afterRoot o .none s).disk.Leads o.headersOut :=
  ((Disk.isDir_iff ((x.grows_root hs).regular hs)).mp (rootStage_grows hs x.rootStage).2).2.of_div x.isName

theorem separate (x : Stages o s r t) (hs : s.disk.Regular) (h : Steady o s t) {repo : Path}
    (hr : repo ∈ o.grammarRepos) : Separate o (afterRoot o .none s) (accepted (claims o .none s)) repo := by
  have hcwd := (x.grows_root hs).cwd
  refine ⟨?_, ?_⟩
  · rw [hcwd]
    exact h.inputs repo (List.mem_cons_of_mem _ hr) _ List.mem_cons_self
  · rw [hcwd]
    exact h.grammars repo hr

theorem progress (x : Stages o s r t) (hs : s.disk.Regular) (h : Steady o s t) :
    x.results = (claims o .none s).map (fun claim => claim.bind (alone o (afterRoot o .none s))) ∧
      Progress o (afterRoot o .none s) (accepted (claims o .none s)) (afterGrammars o .none s).disk := by
  obtain ⟨hpair, hmem⟩ := claims_spec o .none s
  obtain ⟨m, hm, hprogress⟩ := runModules_progress ((x.grows_root hs).regular hs) (x.leads hs)
    (List.nil_subset _) (List.Subset.refl _) (fun repo hr => x.separate hs h (hmem repo hr).1) hpair nofun
    ⟨.refl _ _ _, nofun⟩
  rw [x.runModules] at hm
  obtain ⟨hresults, rfl⟩ := Prod.mk.inj hm
  exact ⟨Except.ok.inj hresults, hprogress⟩

theorem grows_patch (x : Stages o s r t) (hm : (afterGrammars o .none s).disk.Regular) :
    Disk.Grows (fun _ => False) (o.bindingsOut.destination (afterGrammars o .none s).disk.cwd <+: ·)
      (afterGrammars o .none s).disk x.afterPatch.disk := by
  have hg := patchGenerated_grows x.root.name o.bindingsOut (x.outcome == .generated || x.modules.generated)
    (x.beforePatch_disk.symm ▸ hm)
  rw [x.patchGenerated, x.beforePatch_disk] at hg
  exact hg.mono (fun _ => id) fun _ => And.left

theorem grows_smokeTest (x : Stages o s r t) (hp : x.afterPatch.disk.Regular)
    (hexits : ∀ dir ∈ o.smokeTestOut, ∀ l ∈ dir.exits x.afterPatch.disk.cwd,
      t.disk.tree.HasDir l → x.afterPatch.disk.tree.HasDir l) :
    Disk.Grows (fun l => ∃ dir ∈ o.smokeTestOut, l <+: dir.destination x.afterPatch.disk.cwd)
      (fun l => ∃ dir ∈ o.smokeTestOut, dir.destination x.afterPatch.disk.cwd <+: l)
      x.afterPatch.disk t.disk := by
  have hg := grows_writeSmokeTestFor o x.root.name (smokeModule? x.results) x.afterPatch hp rfl
  rw [x.writeSmokeTest] at hg
  refine (hg.made.mono (fun _ => id) ?_).restrict ?_
  · rintro l ⟨dir, hdir, rfl⟩
    exact ⟨dir, hdir, List.prefix_append _ _⟩
  · rintro l ⟨⟨dir, hdir, hl⟩, hmade⟩
    rcases Path.prefix_destination_or_mem_exits hl with habove | hexit
    · exact .inr ⟨dir, hdir, habove⟩
    · exact .inl (hexits dir hdir l hexit hmade)

/-- What happens after the grammars, step by step and with all directories named from the start. -/
structure Closing (x : Stages o s r t) : Prop where
  patch : Disk.Grows (fun _ => False) (o.bindingsOut.destination s.disk.cwd <+: ·)
    (afterGrammars o .none s).disk x.afterPatch.disk
  smokeTest : Disk.Grows (fun l => ∃ dir ∈ o.smokeTestOut, l <+: dir.destination s.disk.cwd)
    (fun l => ∃ dir ∈ o.smokeTestOut, dir.destination s.disk.cwd <+: l) x.afterPatch.disk t.disk
  regular : (afterGrammars o .none s).disk.Regular
  cwd : (afterGrammars o .none s).disk.cwd = s.disk.cwd

theorem closing (x : Stages o s r t) (hs : s.disk.Regular) (h : Steady o s t) : x.Closing := by
  have hgrown := (x.progress hs h).2.grows
  have hm := hgrown.regular ((x.grows_root hs).regular hs)
  have hcwd : (afterGrammars o .none s).disk.cwd = s.disk.cwd := hgrown.cwd.trans (x.grows_root hs).cwd
  have hpatch := x.grows_patch hm
  have hcwd' : x.afterPatch.disk.cwd = s.disk.cwd := hpatch.cwd.trans hcwd
  have hsmoke := x.grows_smokeTest (hpatch.regular hm) fun dir hdir l hl hmade => by
    rw [hpatch.tree.hasDir_iff id]
    refine h.smokeTest dir ?_ l (hcwd' ▸ hl) hmade
    exact List.mem_cons_of_mem _ (List.mem_append_left _ (Option.mem_toList.mpr hdir))
  rw [hcwd] at hpatch
  rw [hcwd'] at hsmoke
  exact ⟨hpatch, hsmoke, hm, hcwd⟩

theorem Closing.grows {x : Stages o s r t} (h : x.Closing) :
    Disk.Grows (Around o s.disk.cwd) (Around o s.disk.cwd) (afterGrammars o .none s).disk t.disk := by
  refine (h.patch.mono (fun _ => False.elim) fun l hl => ?_).trans (h.smokeTest.mono ?_ ?_)
  · exact ⟨_, List.mem_cons_self, fun hapart => hapart.1 hl⟩
  · exact fun l ⟨dir, hdir, hl⟩ =>
      ⟨dir, List.mem_cons_of_mem _ (Option.mem_toList.mpr hdir), fun hapart => hapart.2 hl⟩
  · exact fun l ⟨dir, hdir, hl⟩ =>
      ⟨dir, List.mem_cons_of_mem _ (Option.mem_toList.mpr hdir), fun hapart => hapart.1 hl⟩

theorem grows_later (x : Stages o s r t) (hs : s.disk.Regular) (h : Steady o s t) :
    Disk.Grows (Touches o (afterRoot o .none s).disk (accepted (claims o .none s)))
      (Touches o (afterRoot o .none s).disk (accepted (claims o .none s)))
      (afterRoot o .none s).disk t.disk := by
  refine ((x.progress hs h).2.grows.mono ?_ ?_).trans ((x.closing hs h).grows.mono ?_ ?_)
  · exact fun l ⟨repo, hr, hl⟩ => .inl ⟨repo, hr, .inl hl⟩
  · exact fun l ⟨repo, hr, hl⟩ => .inl ⟨repo, hr, .inr hl⟩
  · exact fun l hl => .inr ((x.grows_root hs).cwd.symm ▸ hl)
  · exact fun l hl => .inr ((x.grows_root hs).cwd.symm ▸ hl)

theorem not_touches (x : Stages o s r t) (hs : s.disk.Regular) (h : Steady o s t) {l : Location}
    (hl : RightIn (o.headersOut.destination s.disk.cwd ++ [x.root.name]) l) :
    ¬ Touches o (afterRoot o .none s).disk (accepted (claims o .none s)) l := by
  obtain ⟨n, -, rfl⟩ := hl
  rw [List.append_assoc]
  rintro (⟨repo, hr, hpublish⟩ | haround)
  · rw [Publishes, MakesDir, WritesFile, (x.grows_root hs).cwd] at hpublish
    rcases hpublish with ⟨-, he⟩ | ⟨-, he⟩
    · simpa using List.append_cancel_left he
    · have hname := (List.cons.inj (List.append_cancel_left he)).1
      exact ((claims_spec o .none s).2 repo hr).2 (hname.symm.trans x.discovered.name)
  · rw [(x.grows_root hs).cwd] at haround
    exact h.not_around (List.prefix_append _ _) haround

theorem spared (x : Stages o s r t) (hs : s.disk.Regular) (h : Steady o s t) {repo : Path}
    (hr : repo ∈ o.grammarRepos) : Spared repo (afterRoot o .none s).disk t.disk where
  regular := (x.grows_root hs).regular hs
  grows := by
    refine ⟨_, _, x.grows_later hs h, fun l hl => (hl.elim id id).not_below_apart fun out ho => ?_⟩
    rw [(x.grows_root hs).cwd]
    exact h.inputs repo (List.mem_cons_of_mem _ hr) out ho
  exits l hl hmade := by
    have hgrammars := (x.progress hs h).2.spared ((x.grows_root hs).regular hs) (x.separate hs h hr)
    refine hgrammars.exits l hl (h.smokeTest repo ?_ l ((x.grows_root hs).cwd ▸ hl) hmade)
    exact List.mem_cons_of_mem _ (List.mem_append_right _ hr)

theorem isDir_bindingsOut (x : Stages o s r t) (hs : s.disk.Regular) (h : Steady o s t) :
    t.disk.isDir o.bindingsOut = (afterGrammars o .none s).disk.isDir o.bindingsOut := by
  obtain ⟨hpatch, hsmoke, hm, hcwd⟩ := x.closing hs h
  have hcwd' : x.afterPatch.disk.cwd = s.disk.cwd := hpatch.cwd.trans hcwd
  have hspared : Spared o.bindingsOut x.afterPatch.disk t.disk := by
    refine ⟨hpatch.regular hm, ⟨_, _, hsmoke, fun l hl hbelow => ?_⟩, fun l hl hmade => ?_⟩
    · rw [hcwd'] at hbelow
      have hapart := (List.pairwise_cons.mp (List.pairwise_cons.mp h.outputs).2).1
      rcases hl with ⟨dir, hdir, hl⟩ | ⟨dir, hdir, hl⟩
      · exact ((hapart dir (Option.mem_toList.mpr hdir)).of_below hbelow).2 hl
      · exact ((hapart dir (Option.mem_toList.mpr hdir)).of_below hbelow).1 hl
    · rw [hpatch.tree.hasDir_iff id]
      exact h.smokeTest _ List.mem_cons_self l (hcwd' ▸ hl) hmade
  exact hspared.isDir.trans (hpatch.isDir_eq hm)

theorem rootStage_again (x : Stages o s r t) (hs : s.disk.Regular) (h : Steady o s t)
    (hv : v.disk = t.disk) :
    ∃ w, Stage.start (GrammarHeaders.rootStage o Generator.none) v = (.ok (x.root, x.outcome, x.headers), w) ∧
      w.disk = v.disk := by
  have hinclude : ∀ out ∈ o.outputs,
      (x.root.includeDir.destination s.disk.cwd).Apart (out.destination s.disk.cwd) := by
    rw [x.discovered.includeDir]
    exact h.inputs _ List.mem_cons_self
  refine GrammarHeaders.rootStage_again hs x.rootStage (hv.symm ▸ x.grows_later hs h) (fun l hl => ?_) ?_
  · exact ⟨x.not_touches hs h hl, x.not_touches hs h hl⟩
  · rintro l (⟨n, -, rfl⟩ | hl)
    · exact fun hp => (hinclude _ List.mem_cons_self).not_prefix_both hp
        ((List.prefix_append _ _).trans (List.prefix_append _ _))
    · rw [← (x.grows_root hs).cwd] at hinclude ⊢
      exact hl.not_below_apart hinclude

theorem runModules_again (x : Stages o s r t) (hs : s.disk.Regular) (h : Steady o s t)
    (hv : v.disk = t.disk) :
    ∃ w, Stage.start (GrammarHeaders.runModules o Generator.none (claims o .none s)) v = (.ok x.results, w) ∧
      w.disk = v.disk := by
  obtain ⟨hresults, hprogress⟩ := x.progress hs h
  have hrepo : ∀ repo ∈ accepted (claims o .none s), repo ∈ o.grammarRepos := fun repo hr =>
    ((claims_spec o .none s).2 repo hr).1
  rw [hresults]
  refine GrammarHeaders.runModules_again ((x.grows_root hs).regular hs) (x.leads hs)
    (fun repo hr => (x.separate hs h (hrepo repo hr)).apart)
    (fun repo hr => hv.symm ▸ x.spared hs h (hrepo repo hr)) (fun repo hr l hl => ?_)
    (hv.symm ▸ (x.grows_later hs h).leads (x.leads hs))
  have hbelow := publishes_below hl
  rw [(x.grows_root hs).cwd] at hbelow
  rw [hv, (x.closing hs h).grows.tree.get?_eq (h.not_around hbelow) (h.not_around hbelow)]
  exact hprogress.published repo hr l hl

theorem patchGenerated_again (x : Stages o s r t) (hs : s.disk.Regular) (h : Steady o s t)
    (hv : v.disk = t.disk) :
    ∃ w, Stage.start (GrammarHeaders.patchGenerated x.root.name o.bindingsOut
        (x.outcome == .generated || x.modules.generated)) v = (.ok ⟨x.patch.filesScanned, 0, 0⟩, w) ∧
      w.disk = v.disk := by
  obtain ⟨-, hsmoke, hm, hcwd⟩ := x.closing hs h
  have hapart := (List.pairwise_cons.mp (List.pairwise_cons.mp h.outputs).2).1
  rw [← x.beforePatch_disk] at hm hcwd
  refine GrammarHeaders.patchGenerated_again hm x.patchGenerated (hv.symm ▸ hsmoke) ?_ ?_ ?_
  · rw [hv, x.beforePatch_disk, x.isDir_bindingsOut hs h]
    exact id
  · rw [hcwd]
    exact fun l ⟨dir, hdir, hl⟩ hb => ((hapart dir (Option.mem_toList.mpr hdir)).of_below hb).2 hl
  · rw [hcwd]
    exact fun l ⟨dir, hdir, hl⟩ hb => ((hapart dir (Option.mem_toList.mpr hdir)).of_below hb).1 hl

end Stages

/-- The same report, with bindings that were scanned and did not need a patch. -/
def Report.withoutPatches (r : Report) : Report := { r with patch := ⟨r.patch.filesScanned, 0, 0⟩ }

/-- Running the pipeline again on the disk that it has left comes to the same report, but for bindings
that need a patch, and leaves the disk as it is. -/
theorem generate_again {r : Report} (hs : s.disk.Regular)
    (hrun : Stage.start (generate o Generator.none) s = (.ok r, t)) (h : Steady o s t)
    (hv : v.disk = t.disk) :
    ∃ w, Stage.start (generate o Generator.none) v = (.ok r.withoutPatches, w) ∧ w.disk = t.disk := by
  obtain ⟨x⟩ := stages_of_generate hrun
  obtain ⟨v₁, hroot, hd₁⟩ := x.rootStage_again hs h hv
  have hv₁ := hd₁.trans hv
  have hclaims : assignNames v₁.disk [(x.root.name, x.root.repo)] o.grammarRepos = claims o .none s := by
    rw [Run.claims_eq x.discovered, hv₁]
    exact assignNames_congr (fun repo hr => (x.spared hs h hr).moduleNameOf) _
  obtain ⟨v₂, hmodules, hd₂⟩ := x.runModules_again hs h hv₁
  obtain ⟨v₃, hcollect, hd₃⟩ := x.collect v₂
  have hv₃ := hd₃.trans (hd₂.trans hv₁)
  obtain ⟨v₄, hpatch, hd₄⟩ := x.patchGenerated_again hs h hv₃
  have hv₄ := hd₄.trans hv₃
  have hclosing := x.closing hs h
  obtain ⟨w, hsmoke, hw⟩ := writeSmokeTestFor_again (hclosing.patch.regular hclosing.regular)
    x.writeSmokeTest hv₄
  have hreport : r.withoutPatches = _ := congrArg Report.withoutPatches x.report
  refine ⟨w, ?_, hw.trans hv₄⟩
  rw [hreport, generate_eq, Stage.start_bind, hroot]
  dsimp only
  rw [grammarStage, Stage.start_bind, Stage.start_disk]
  dsimp only
  rw [hclaims, Stage.start_bind, hmodules]
  dsimp only
  rw [conclude, Stage.start_bind, hcollect]
  dsimp only
  rw [Stage.start_bind, hpatch]
  dsimp only
  rw [Stage.start_bind, hsmoke]
  rfl

def busyDisk : Disk where
  tree.entries := toyDisk.tree.entries ++ [(["b"], .directory),
    (["b", "a.cs"], .file (.text (Accessor.opening ++ "field_names;".toList)) false), (["x"], .directory),
    (["h"], .directory), (["h", "j"], .directory), (["h", "j", "j.h"], .file (.text []) false)]

theorem regular_busyDisk : busyDisk.Regular :=
  ⟨.of_entries (by decide +kernel) (by decide +kernel), rfl⟩

def busyOptions (grammars : List Path) : Options :=
  { toyOptions grammars with smokeTestOut := some ⟨"t"⟩ }

def busy : Options := busyOptions [⟨"j"⟩, ⟨"x"⟩, ⟨"j/../k"⟩]

def busyReport : Report where
  rootModule := "core"
  rootHeaders := [⟨"h/core/a.h"⟩]
  languageHeaders := [⟨"j", ⟨"h/j/j.h"⟩, 1⟩, ⟨"k", ⟨"h/k/k.h"⟩, 1⟩]
  patch := ⟨1, 1, 1⟩
  smokeTest := some ⟨"t/Program.cs"⟩
  failures := [⟨⟨"x"⟩, .layout ⟨"x"⟩ (.directoryNotFound ⟨"x/src"⟩)⟩]

theorem generate_again_busy :
    ∃ t w, Stage.start (generate busy Generator.none) ⟨busyDisk, [], []⟩ = (.ok busyReport, t) ∧
      Stage.start (generate busy Generator.none) t = (.ok busyReport.withoutPatches, w) ∧
      w.disk = t.disk := by
  have hrun : (Stage.start (generate busy Generator.none) ⟨busyDisk, [], []⟩).1 = .ok busyReport := by
    decide +kernel
  have hroot : ∀ repo ∈ busy.grammarRepos, ∀ l ∈ repo.exits busyDisk.cwd,
      (afterRoot busy .none ⟨busyDisk, [], []⟩).disk.tree.HasDir l := by decide +kernel
  have hgrammars : ∀ p ∈ busy.bindingsOut :: (busy.smokeTestOut.toList ++ busy.grammarRepos),
      ∀ l ∈ p.exits busyDisk.cwd, (afterGrammars busy .none ⟨busyDisk, [], []⟩).disk.tree.HasDir l := by
    decide +kernel
  have hsteady : Steady busy ⟨busyDisk, [], []⟩
      (Stage.start (generate busy Generator.none) ⟨busyDisk, [], []⟩).2 := by
    refine ⟨?_, ?_, fun repo hr l hl _ _ _ => hroot repo hr l hl, fun p hp l hl _ => hgrammars p hp l hl⟩
    · decide +kernel
    · decide +kernel
  obtain ⟨w, hw, hd⟩ := generate_again regular_busyDisk (Prod.ext hrun rfl) hsteady rfl
  exact ⟨_, w, Prod.ext hrun rfl, hw, hd⟩

/-- The outputs are apart from each other, from the checkout of the root library and from those of the
grammars. -/
structure Options.Disjoint (o : Options) (here : Location) : Prop where
  outputs : o.outputs.Pairwise fun p q => (p.destination here).Apart (q.destination here)
  checkouts : ∀ p ∈ o.rootRepo :: o.grammarRepos, ∀ q ∈ o.outputs,
    (p.destination here).Apart (q.destination here)

instance (o : Options) (here : Location) : Decidable (o.Disjoint here) :=
  decidable_of_iff (_ ∧ _) ⟨fun h => ⟨h.1, h.2⟩, fun h => ⟨h.outputs, h.checkouts⟩⟩

/-- The run comes to a report, and once more it comes to another one or changes the disk. -/
def changesAgain (o : Options) (s : Session) : Bool :=
  match Stage.start (generate o Generator.none) s with
  | (.ok r, t) =>
    match Stage.start (generate o Generator.none) t with
    | (r', w) => (r', w.disk) != (.ok r.withoutPatches, t.disk)
  | (.error _, _) => false

theorem of_changesAgain (h : changesAgain o s = true) :
    ∃ r t, Stage.start (generate o Generator.none) s = (.ok r, t) ∧
      ¬ ∃ w, Stage.start (generate o Generator.none) t = (.ok r.withoutPatches, w) ∧ w.disk = t.disk := by
  unfold changesAgain at h
  split at h
  · rename_i r t hrun
    refine ⟨r, t, hrun, fun ⟨w, hw, hd⟩ => ?_⟩
    rw [hw] at h
    simp [hd] at h
  · cases h

/-- Runs with disjoint directories that come to something else when they are run again. -/
def unsteady : List Options :=
  [ -- the include directory of the root library is where a grammar is published
    { busyOptions [⟨"j"⟩] with config.layout.rootIncludeDir := ⟨"../h/j"⟩ },
    -- the path to a grammar leaves the module directory of another one, which comes after it
    busyOptions [⟨"h/k/../../j"⟩, ⟨"k"⟩],
    -- the path to a grammar leaves the directory of the smoke test
    busyOptions [⟨"j"⟩, ⟨"t/../k"⟩],
    -- so does the path to the bindings
    { busyOptions [⟨"j"⟩] with bindingsOut := ⟨"t/../b"⟩ },
    -- the path to the smoke test leaves a directory in the checkout of a grammar
    { busyOptions [⟨"j"⟩, ⟨"x"⟩] with smokeTestOut := some ⟨"x/src/../../t"⟩ } ]

/-- It is not enough that the directories are disjoint. -/
theorem not_generate_again :
    busyDisk.Regular ∧ ∀ o ∈ unsteady, o.Disjoint busyDisk.cwd ∧
      Text.isIdentifier o.config.exportMacro.name.toList = true ∧ o.config.exportMacro.OnOneLine ∧
      ∃ r t, Stage.start (generate o Generator.none) ⟨busyDisk, [], []⟩ = (.ok r, t) ∧
        ¬ ∃ w, Stage.start (generate o Generator.none) t = (.ok r.withoutPatches, w) ∧
          w.disk = t.disk := by
  have hdisjoint : ∀ o ∈ unsteady, o.Disjoint busyDisk.cwd ∧
      Text.isIdentifier o.config.exportMacro.name.toList = true ∧ o.config.exportMacro.OnOneLine := by
    decide +kernel
  have hchanges : ∀ o ∈ unsteady, changesAgain o ⟨busyDisk, [], []⟩ = true := by decide +kernel
  refine ⟨regular_busyDisk, fun o ho => ?_⟩
  obtain ⟨hapart, hname, hfields⟩ := hdisjoint o ho
  exact ⟨hapart, hname, hfields, of_changesAgain (hchanges o ho)⟩

end GrammarHeaders
