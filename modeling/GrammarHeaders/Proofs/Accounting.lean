import GrammarHeaders.Proofs.Schedules
import Mathlib.Data.List.Forall2

namespace GrammarHeaders

variable {o : Options} {g : Generator} {s t u : Session} {report : Report} {repo : Path}

/-- A failure of one thing, which is not the sum of other failures. -/
def Failure.IsSingle : Failure → Prop
  | .modulesFailed .. => False
  | _ => True

theorem Failure.IsSingle.exitCode_ne_zero {failure : Failure} (h : failure.IsSingle) :
    failure.exitCode ≠ 0 := by
  cases failure with
  | modulesFailed => exact h.elim
  | shape fault => cases fault <;> simp [exitCode]
  | _ => simp [exitCode]

namespace Stage

variable {ε ε' α β : Type} {P : ε → Prop} {x : Stage ε α}

/-- Every failure of the stage is one of those. -/
def Fails (P : ε → Prop) (x : Stage ε α) : Prop := ∀ s e t, start x s = (.error e, t) → P e

theorem Fails.pure (a : α) : Fails P (pure a : Stage ε α) := nofun

theorem Fails.throw {e : ε} (h : P e) : Fails P (throw e : Stage ε α) := by
  rintro s e' t he
  obtain ⟨he, -⟩ := Prod.mk.inj he
  exact Except.error.inj he ▸ h

theorem Fails.disk : Fails P (disk : Stage ε Disk) := nofun

theorem Fails.setDisk (d : Disk) : Fails P (setDisk d : Stage ε Unit) := nofun

theorem Fails.logAll (lines : List LogLine) : Fails P (logAll lines : Stage ε Unit) := nofun

theorem Fails.log (line : LogLine) : Fails P (log line : Stage ε Unit) := .logAll _

theorem Fails.ofExcept {r : Except ε α} (h : ∀ e, r = .error e → P e) : Fails P (ofExcept r) := by
  rintro s e t he
  exact h e (Prod.mk.inj he).1

theorem Fails.bind {k : α → Stage ε β} (h : Fails P x) (hk : ∀ a, Fails P (k a)) : Fails P (x >>= k) := by
  intro s e t he
  rw [start_bind] at he
  cases hx : start x s with
  | mk result u =>
    rw [hx] at he
    cases result with
    | error e' =>
      obtain ⟨hee, -⟩ := Prod.mk.inj he
      exact Except.error.inj hee ▸ h s e' u hx
    | ok a => exact hk a u e t he

theorem Fails.mono {Q : ε → Prop} (h : Fails P x) (hPQ : ∀ e, P e → Q e) : Fails Q x :=
  fun s e t he => hPQ e (h s e t he)

theorem Fails.within {wrap : ε → ε'} {Q : ε' → Prop} (h : ∀ e, Q (wrap e)) (x : Stage ε α) :
    Fails Q (within wrap x) := by
  intro s e t he
  rw [start_within] at he
  cases hx : start x s with
  | mk result u =>
    rw [hx] at he
    cases result with
    | error e' =>
      obtain ⟨hee, -⟩ := Prod.mk.inj he
      exact Except.error.inj hee ▸ h e'
    | ok a => cases he

end Stage

open Failure Stage

/-- A header cannot be put in its place, or be worked on there. -/
def Failure.OfHeader (header : Path) : Failure → Prop
  | .createDirectory .. => True
  | .file .read path _ | .file .write path _ => path = header
  | _ => False

theorem Failure.OfHeader.isSingle {failure : Failure} {header : Path} (h : failure.OfHeader header) :
    failure.IsSingle := by
  cases failure with
  | modulesFailed => exact h
  | _ => exact trivial

theorem fails_readText (path : Path) : Fails (OfHeader path) (Action.readText path) := by
  refine Fails.disk.bind fun d => ?_
  split
  · exact .pure _
  · exact .throw rfl

theorem fails_writeText (path : Path) (text : Text) : Fails (OfHeader path) (Action.writeText path text) := by
  refine Fails.disk.bind fun d => ?_
  split
  · exact .setDisk _
  · exact .throw rfl

theorem fails_updateInPlace {α : Type} (path : Path) (transform : Text → Text × α) :
    Fails (OfHeader path) (Action.updateInPlace path transform) := by
  refine (fails_readText path).bind fun before => ?_
  dsimp only
  split
  · exact .pure _
  · exact (fails_writeText path _).bind fun _ => .pure _

theorem fails_ensureModuleDir (header root : Path) (module : String) :
    Fails (OfHeader header) (Action.ensureModuleDir root module) := by
  refine Fails.bind (Fails.disk.bind fun d => ?_) fun _ => .pure _
  split
  · refine (Fails.setDisk _).bind fun _ => ?_
    split
    · exact .pure _
    · exact .throw trivial
  · exact .pure _

theorem LanguageModule.isSingle_parserFile {m : LanguageModule} {layout : LayoutSettings} {failure : Failure}
    (h : m.parserFile layout = .error failure) : failure.IsSingle := by
  unfold parserFile at h
  split at h
  · cases h
  · exact Except.error.inj h ▸ trivial

theorem fails_extractHeader (m : LanguageModule) (config : Config) :
    Fails IsSingle (extractHeader m config) := by
  refine (Fails.ofExcept fun _ => LanguageModule.isSingle_parserFile).bind fun parser =>
    ((fails_readText parser).mono fun _ => OfHeader.isSingle).bind fun source => ?_
  split
  · exact .throw trivial
  · exact (Fails.logAll _).bind fun _ => .pure _

theorem fails_writeLanguageHeader (m : LanguageModule) (out : Path) (config : Config) :
    Fails IsSingle (writeLanguageHeader m out config) := by
  refine (fails_extractHeader m config).bind fun header => ?_
  refine ((fails_ensureModuleDir out out _).mono fun _ => OfHeader.isSingle).bind fun dir => ?_
  exact ((fails_writeText _ _).mono fun _ => OfHeader.isSingle).bind fun _ => .pure _

theorem fails_annotateLanguageHeader (m : LanguageModule) (path : Path) (config : Config) :
    Fails (OfHeader path) (annotateLanguageHeader m path config) :=
  (fails_updateInPlace path _).bind fun _ => (Fails.log _).bind fun _ => .pure _

/-- A generator fails as the generator of one module. -/
def Generator.Ordinary (g : Generator) : Prop := ∀ r, Fails IsSingle (g.answer r)

/-- A failure to generate bindings. -/
def Failure.OfBindings : Failure → Prop
  | .bindingGeneration .. => True
  | _ => False

theorem Failure.OfBindings.isSingle {failure : Failure} (h : failure.OfBindings) : failure.IsSingle := by
  cases failure with
  | modulesFailed => exact h
  | _ => exact trivial

theorem Generator.fails_none (r : Request) : Fails OfBindings (Generator.none.answer r) :=
  (Fails.log _).bind fun _ => .pure _

theorem Generator.fails_external (m : Machine) (p : ExternalProgram) (r : Request) :
    Fails OfBindings ((external m p).answer r) := by
  refine Fails.disk.bind fun d => ?_
  split
  · exact .throw trivial
  · refine (Fails.log _).bind fun _ => Fails.disk.bind fun d => (Fails.setDisk _).bind fun _ => ?_
    split
    · exact .throw trivial
    · split
      · exact (Fails.logAll _).bind fun _ => .pure _
      · exact .throw trivial

theorem Generator.fails_ofSettings (m : Machine) (settings : BindingSettings) (r : Request) :
    Fails OfBindings ((ofSettings m settings).answer r) := by
  unfold ofSettings
  split
  · exact fails_external m _ r
  · exact fails_none r

theorem Generator.ordinary_ofSettings (m : Machine) (settings : BindingSettings) :
    (ofSettings m settings).Ordinary :=
  fun r => (fails_ofSettings m settings r).mono fun _ => OfBindings.isSingle

theorem fails_runModule (hg : g.Ordinary) (o : Options) (repo : Path) :
    Fails IsSingle (runModule o g repo) := by
  refine (Fails.within (fun _ => trivial) _).bind fun m =>
    (fails_writeLanguageHeader m _ _).bind fun header => Fails.bind ?_ fun outcome =>
      ((fails_annotateLanguageHeader m _ _).mono fun _ => OfHeader.isSingle).bind fun _ => .pure _
  exact Fails.disk.bind fun d => Fails.bind nofun fun _ => hg _

theorem isSingle_assignNames {d : Disk} {taken : List (String × Path)} {repos : List Path} {failure : Failure}
    (h : .error failure ∈ assignNames d taken repos) : failure.IsSingle := by
  induction repos generalizing taken with
  | nil => cases h
  | cons repo rest ih =>
    rw [assignNames] at h
    split at h
    · rcases List.mem_cons.mp h with he | h
      · exact Except.error.inj he ▸ trivial
      · exact ih h
    · rcases List.mem_cons.mp h with he | h
      · cases he
      · exact ih h

theorem length_assignNames (d : Disk) (taken : List (String × Path)) (repos : List Path) :
    (assignNames d taken repos).length = repos.length := by
  induction repos generalizing taken with
  | nil => rfl
  | cons repo rest ih =>
    rw [assignNames]
    split
    · rw [List.length_cons, ih, List.length_cons]
    · rw [List.length_cons, ih, List.length_cons]

/-- What a grammar comes to: the failure that it comes with, or the end of the work on it, whatever the
session that it was worked on. -/
inductive ComesTo (o : Options) (g : Generator) : Except Failure Path → ModuleResult → Prop where
  | refused (failure : Failure) : ComesTo o g (.error failure) (.error failure)
  | worked {grammar : Path} {before after : Session} {result : ModuleResult}
      (run : Stage.start (runModule o g grammar) before = (result, after)) : ComesTo o g (.ok grammar) result

theorem runModules_comesTo (o : Options) (g : Generator) (claims : List (Except Failure Path)) (s : Session) :
    ∃ results t, Stage.start (runModules o g claims) s = (.ok results, t) ∧
      List.Forall₂ (ComesTo o g) claims results := by
  induction claims generalizing s with
  | nil => exact ⟨[], s, rfl, .nil⟩
  | cons claim rest ih =>
    -- one claim, whatever comes of it, is one result more and no failure of the run
    have hstep : ∃ result u, ComesTo o g claim result ∧ ∀ results t,
        Stage.start (runModules o g rest) u = (.ok results, t) →
          Stage.start (runModules o g (claim :: rest)) s = (.ok (result :: results), t) := by
      cases claim with
      | error failure =>
        exact ⟨.error failure, s, .refused failure, fun _ _ => start_runModules_error⟩
      | ok repo =>
        obtain ⟨result, u, hrun⟩ : ∃ result u, Stage.start (runModule o g repo) s = (result, u) := ⟨_, _, rfl⟩
        exact ⟨result, u, .worked hrun, fun _ _ => start_runModules_ok hrun⟩
    obtain ⟨result, u, hresult, hcons⟩ := hstep
    obtain ⟨results, t, hrest, hresults⟩ := ih u
    exact ⟨result :: results, t, hcons results t hrest, .cons hresult hresults⟩

theorem ComesTo.isSingle {claim : Except Failure Path} {failure : Failure}
    (h : ComesTo o g claim (.error failure)) (hg : g.Ordinary)
    (hclaim : ∀ f, claim = .error f → f.IsSingle) : failure.IsSingle := by
  cases h with
  | refused => exact hclaim failure rfl
  | worked run => exact fails_runModule hg o _ _ _ _ run

def header? : Path × ModuleResult → Option LanguageHeader
  | (_, .ok (header, _)) => some header
  | _ => none

def failed? : Path × ModuleResult → Option ModuleFailure
  | (repo, .error failure) => some ⟨repo, failure⟩
  | _ => none

/-- The results of grammars, sorted. -/
def collected (entries : List (Path × ModuleResult)) : ModuleResults where
  headers := entries.filterMap header?
  failures := entries.filterMap failed?
  generated := entries.any fun
    | (_, .ok (_, outcome)) => outcome == .generated
    | _ => false

theorem quiet_collect (entries : List (Path × ModuleResult)) :
    Stage.Quiet (collect entries) (collected entries) := by
  induction entries with
  | nil => exact fun s => ⟨s, rfl, rfl⟩
  | cons entry rest ih =>
    obtain ⟨repo, result⟩ := entry
    intro s
    cases result with
    | ok value =>
      obtain ⟨s', hs', hd⟩ := ih s
      refine ⟨s', ?_, hd⟩
      rw [collect, Stage.start_bind_of_ok hs']
      rfl
    | error failure =>
      obtain ⟨s', hs', hd⟩ := ih { s with log := s.log ++ [.debug s!"{repo} failed: {failure.message}"] }
      refine ⟨s', ?_, hd⟩
      rw [collect, Stage.start_bind_of_ok (Stage.start_log _ s), Stage.start_bind_of_ok hs']
      rfl

theorem length_filterMap_header?_add (entries : List (Path × ModuleResult)) :
    (entries.filterMap header?).length + (entries.filterMap failed?).length = entries.length := by
  induction entries with
  | nil => rfl
  | cons entry rest ih =>
    obtain ⟨repo, result⟩ := entry
    cases result with
    | ok value =>
      simp only [List.filterMap_cons, header?, failed?, List.length_cons]
      omega
    | error failure =>
      simp only [List.filterMap_cons, header?, failed?, List.length_cons]
      omega

theorem head?_filterMap_failed? {entries : List (Path × ModuleResult)} {i : Nat} {failure : Failure}
    (h : entries[i]? = some (repo, .error failure))
    (hbefore : ∀ j < i, ∃ repo value, entries[j]? = some (repo, .ok value)) :
    (entries.filterMap failed?).head? = some ⟨repo, failure⟩ := by
  induction entries generalizing i with
  | nil => simp at h
  | cons entry rest ih =>
    cases i with
    | zero =>
      obtain rfl := Option.some.inj h
      simp [failed?]
    | succ i =>
      obtain ⟨repo', value, hfirst⟩ := hbefore 0 (Nat.succ_pos i)
      obtain rfl := Option.some.inj hfirst
      simp only [List.filterMap_cons, failed?]
      exact ih h fun j hj => hbefore (j + 1) (Nat.succ_lt_succ hj)

/-- The report accounts for every grammar, each at its place: what has succeeded is among the headers and
what has failed among the failures, in the order in which the grammars were given. -/
structure Report.Accounts (report : Report) (o : Options) (g : Generator) (claims : List (Except Failure Path))
    (results : List ModuleResult) : Prop where
  comesTo : List.Forall₂ (ComesTo o g) claims results
  length : results.length = o.grammarRepos.length
  headers : report.languageHeaders = (o.grammarRepos.zip results).filterMap header?
  failures : report.failures = (o.grammarRepos.zip results).filterMap failed?
  total : report.totalModules = o.grammarRepos.length
  succeeds : report.failure? = none ↔ ∀ result ∈ results, result.isOk = true
  /-- The first grammar that has failed decides the exit status. -/
  fails : ∀ (i : Nat) (failure : Failure), results[i]? = some (.error failure) →
    (∀ j < i, ∃ value : LanguageHeader × Outcome, results[j]? = some (.ok value)) →
      report.failure? = some (.modulesFailed report.failures.length o.grammarRepos.length failure.exitCode) ∧
        (g.Ordinary → failure.exitCode ≠ 0)
  smokeTest : report.smokeTest.isSome = true ↔
    o.smokeTestOut.isSome = true ∧ ∃ value : LanguageHeader × Outcome, results[0]? = some (.ok value)

theorem Report.failure?_eq_none_iff : report.failure? = none ↔ report.failures = [] := by
  unfold failure?
  cases report.failures <;> simp

theorem Report.failure?_of_head? {first : ModuleFailure} (h : report.failures.head? = some first) :
    report.failure? =
      some (.modulesFailed report.failures.length report.totalModules first.failure.exitCode) := by
  obtain ⟨rest, hfailures⟩ := List.head?_eq_some_iff.mp h
  rw [failure?]
  simp [hfailures]

theorem filterMap_failed?_eq_nil_iff (entries : List (Path × ModuleResult)) :
    entries.filterMap failed? = [] ↔ ∀ result ∈ entries.map Prod.snd, result.isOk = true := by
  rw [List.filterMap_eq_nil_iff, List.forall_mem_map]
  refine forall₂_congr fun entry _ => ?_
  obtain ⟨repo, result⟩ := entry
  cases result with
  | ok value => simp [failed?, Except.isOk, Except.toBool]
  | error failure => simp [failed?, Except.isOk, Except.toBool]

theorem writeSmokeTestFor_isSome {root : String} {language : Option String} {smokeTest : Option Path}
    (h : Stage.start (writeSmokeTestFor o root language) s = (.ok smokeTest, t)) :
    smokeTest.isSome = true ↔ o.smokeTestOut.isSome = true ∧ language.isSome = true := by
  unfold writeSmokeTestFor at h
  split at h
  · rename_i hout
    obtain ⟨hresult, -⟩ := Prod.mk.inj h
    obtain rfl := Except.ok.inj hresult
    simp [hout]
  · rename_i dir language hout
    rw [map_eq_pure_bind] at h
    obtain ⟨path, u, -, h⟩ := Stage.start_bind_eq_ok.mp h
    obtain ⟨hresult, -⟩ := Prod.mk.inj h
    obtain rfl := Except.ok.inj hresult
    simp [hout]
  · obtain ⟨_, u, -, h⟩ := Stage.start_bind_eq_ok.mp h
    obtain ⟨hresult, -⟩ := Prod.mk.inj h
    obtain rfl := Except.ok.inj hresult
    simp

theorem isSome_smokeModule?_iff (results : List ModuleResult) :
    (smokeModule? results).isSome = true ↔
      ∃ value : LanguageHeader × Outcome, results[0]? = some (.ok value) := by
  cases results with
  | nil => simp [smokeModule?]
  | cons result rest =>
    cases result with
    | ok value => simp [smokeModule?]
    | error failure => simp [smokeModule?]

theorem accounts_of_conclude {root : RootLibrary} {outcome : Outcome} {headers : List Path}
    {claims : List (Except Failure Path)} {results : List ModuleResult}
    (hresults : List.Forall₂ (ComesTo o g) claims results)
    (hlength : claims.length = o.grammarRepos.length)
    (hclaims : ∀ failure, .error failure ∈ claims → failure.IsSingle)
    (h : Stage.start (conclude o root outcome headers results) s = (.ok report, t)) :
    report.Accounts o g claims results := by
  obtain ⟨modules, u, hcollect, h⟩ := Stage.start_bind_eq_ok.mp h
  obtain ⟨u', hu', -⟩ := quiet_collect (o.grammarRepos.zip results) s
  rw [hu'] at hcollect
  obtain ⟨hmodules, rfl⟩ := Prod.mk.inj hcollect
  obtain rfl := Except.ok.inj hmodules
  obtain ⟨patch, v, -, h⟩ := Stage.start_bind_eq_ok.mp h
  obtain ⟨smokeTest, w, hsmoke, h⟩ := Stage.start_bind_eq_ok.mp h
  obtain ⟨hreport, -⟩ := Prod.mk.inj h
  obtain rfl := Except.ok.inj hreport
  have hlength : results.length = o.grammarRepos.length := hresults.length_eq.symm.trans hlength
  have hentry : ∀ {i : Nat} {result : ModuleResult}, results[i]? = some result →
      ∃ repo, (o.grammarRepos.zip results)[i]? = some (repo, result) := by
    intro i result h
    obtain ⟨hi, -⟩ := List.getElem?_eq_some_iff.mp h
    exact ⟨_, List.getElem?_zip_eq_some.mpr ⟨List.getElem?_eq_getElem (hlength ▸ hi), h⟩⟩
  have htotal : (collected (o.grammarRepos.zip results)).headers.length +
      (collected (o.grammarRepos.zip results)).failures.length = o.grammarRepos.length := by
    rw [collected, length_filterMap_header?_add, List.length_zip, hlength, Nat.min_self]
  refine ⟨hresults, hlength, rfl, rfl, htotal, ?_, fun i failure hi hbefore => ⟨?_, fun hg => ?_⟩, ?_⟩
  · rw [Report.failure?_eq_none_iff]
    show (o.grammarRepos.zip results).filterMap failed? = [] ↔ _
    rw [filterMap_failed?_eq_nil_iff, List.map_snd_zip (Nat.le_of_eq hlength)]
  · obtain ⟨repo, hrepo⟩ := hentry hi
    have hhead := head?_filterMap_failed? hrepo fun j hj => by
      obtain ⟨value, hvalue⟩ := hbefore j hj
      obtain ⟨repo, hrepo⟩ := hentry hvalue
      exact ⟨repo, value, hrepo⟩
    rw [Report.failure?_of_head? hhead, Report.totalModules, htotal]
  · have hlt := (List.getElem?_eq_some_iff.mp hi).1
    have hclaim := List.getElem?_eq_getElem (hresults.length_eq.symm ▸ hlt : i < claims.length)
    have hzip := List.mem_of_getElem? (List.getElem?_zip_eq_some (z := (_, _)) |>.mpr ⟨hclaim, hi⟩)
    have hcomes := (List.forall₂_iff_zip.mp hresults).2 hzip
    exact (hcomes.isSingle hg fun f hf => hclaims f (hf ▸ List.getElem_mem _)).exitCode_ne_zero
  · rw [writeSmokeTestFor_isSome hsmoke, isSome_smokeModule?_iff]

def Options.withJobs (o : Options) (jobs : Option Nat) : Options :=
  { o with config := { o.config with generate := { o.config.generate with jobs := jobs } } }

theorem runModule_withJobs (o : Options) (g : Generator) (jobs : Option Nat) (repo : Path) :
    runModule (o.withJobs jobs) g repo = runModule o g repo := rfl

theorem runModules_withJobs (o : Options) (g : Generator) (jobs : Option Nat)
    (claims : List (Except Failure Path)) : runModules (o.withJobs jobs) g claims = runModules o g claims := by
  induction claims with
  | nil => rfl
  | cons claim rest ih =>
    cases claim with
    | error failure => simp only [runModules, ih]
    | ok repo => simp only [runModules, runModule_withJobs, ih]

theorem rootStage_withJobs (o : Options) (g : Generator) (jobs : Option Nat) :
    rootStage (o.withJobs jobs) g = rootStage o g := rfl

theorem conclude_withJobs (o : Options) (jobs : Option Nat) (root : RootLibrary) (outcome : Outcome) (headers : List Path) :
    conclude (o.withJobs jobs) root outcome headers = conclude o root outcome headers := rfl

theorem generate_withJobs (o : Options) (g : Generator) (jobs : Option Nat) :
    generate (o.withJobs jobs) g = generate o g := by
  have hgrammars : (o.withJobs jobs).grammarRepos = o.grammarRepos := rfl
  simp only [generate_eq, grammarStage, rootStage_withJobs, runModules_withJobs, conclude_withJobs, hgrammars]

/-- A run accounts for every grammar, and neither that nor anything else about it depends on the number of
jobs. However the grammars have been worked on, for what they have come to the report accounts likewise. -/
theorem generate_accounts (h : Stage.start (generate o g) s = (.ok report, t)) :
    ∃ root outcome headers u, Stage.start (rootStage o g) s = (.ok (root, outcome, headers), u) ∧
      (∃ results, report.Accounts o g (assignNames u.disk [(root.name, root.repo)] o.grammarRepos) results) ∧
      (∀ jobs, Stage.start (generate (o.withJobs jobs) g) s = (.ok report, t)) ∧
      (∀ results before after other,
        List.Forall₂ (ComesTo o g) (assignNames u.disk [(root.name, root.repo)] o.grammarRepos) results →
        Stage.start (conclude o root outcome headers results) before = (.ok other, after) →
        other.Accounts o g (assignNames u.disk [(root.name, root.repo)] o.grammarRepos) results) ∧
      ∀ machine, (Generator.ofSettings machine o.config.bindings).Ordinary := by
  have hjobs : ∀ jobs, Stage.start (generate (o.withJobs jobs) g) s = (.ok report, t) := fun jobs => by
    rw [generate_withJobs, h]
  rw [generate_eq] at h
  obtain ⟨⟨root, outcome, headers⟩, u, hroot, h⟩ := Stage.start_bind_eq_ok.mp h
  dsimp only at h
  rw [grammarStage] at h
  obtain ⟨d, u', hdisk, h⟩ := Stage.start_bind_eq_ok.mp h
  obtain ⟨hd, rfl⟩ := Prod.mk.inj hdisk
  obtain rfl := Except.ok.inj hd
  obtain ⟨results, v, hmodules, h⟩ := Stage.start_bind_eq_ok.mp h
  obtain ⟨results', v', hmodules', hcomes⟩ :=
    runModules_comesTo o g (assignNames u.disk [(root.name, root.repo)] o.grammarRepos) u
  rw [hmodules] at hmodules'
  obtain ⟨hresults, rfl⟩ := Prod.mk.inj hmodules'
  obtain rfl := Except.ok.inj hresults
  have hlength := length_assignNames u.disk [(root.name, root.repo)] o.grammarRepos
  refine ⟨root, outcome, headers, u, hroot, ⟨results, ?_⟩, hjobs, ?_, ?_⟩
  · exact accounts_of_conclude hcomes hlength (fun _ => isSingle_assignNames) h
  · exact fun results before after other hcomes h =>
      accounts_of_conclude hcomes hlength (fun _ => isSingle_assignNames) h
  · exact fun machine => Generator.ordinary_ofSettings machine o.config.bindings

def halfFailing : Options := { toyOptions [⟨"x"⟩, ⟨"j"⟩] with smokeTestOut := some ⟨"t"⟩ }

def halfFailed : Report where
  rootModule := "core"
  rootHeaders := [⟨"h/core/a.h"⟩]
  languageHeaders := [⟨"j", ⟨"h/j/j.h"⟩, 1⟩]
  patch := {}
  smokeTest := none
  failures := [⟨⟨"x"⟩, .layout ⟨"x"⟩ (.directoryNotFound ⟨"x"⟩)⟩]

theorem generate_accounts_half :
    ∃ t claims results, Stage.start (generate halfFailing Generator.none) ⟨toyDisk, [], []⟩ = (.ok halfFailed, t) ∧
      halfFailed.Accounts halfFailing Generator.none claims results ∧
      halfFailed.failure? = some (.modulesFailed 1 2 2) := by
  have hresult : (Stage.start (generate halfFailing Generator.none) ⟨toyDisk, [], []⟩).1 = .ok halfFailed := by
    decide +kernel
  have hrun : Stage.start (generate halfFailing Generator.none) ⟨toyDisk, [], []⟩ = (.ok halfFailed, _) :=
    Prod.ext hresult rfl
  obtain ⟨root, outcome, headers, u, -, ⟨results, haccounts⟩, -⟩ := generate_accounts hrun
  exact ⟨_, _, results, hrun, haccounts, rfl⟩

end GrammarHeaders
