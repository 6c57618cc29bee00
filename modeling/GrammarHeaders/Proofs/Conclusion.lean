import GrammarHeaders.Proofs.Turns

namespace GrammarHeaders

variable {o : Options} {g : Generator} {s t : Session} {root : RootLibrary} {outcome : Outcome}
  {headers : List Path} {results : List ModuleResult} {failure : Failure}

/-- What is done between the grammars and the report. -/
def finish (o : Options) (root : RootLibrary) (outcome : Outcome) (results : List ModuleResult) :
    Action (PatchSummary × Option Path) := do
  let patch ← patchGenerated root.name o.bindingsOut
    (outcome == .generated || (collected (o.grammarRepos.zip results)).generated)
  let smokeTest ← writeSmokeTestFor o root.name (smokeModule? results)
  return (patch, smokeTest)

def noted (o : Options) (results : List ModuleResult) (s : Session) : Session :=
  (Stage.start (collect (o.grammarRepos.zip results)) s).2

/-- The report on what the grammars have come to. -/
def reportOn (o : Options) (root : RootLibrary) (headers : List Path) (results : List ModuleResult) :
    PatchSummary × Option Path → Report
  | (patch, smokeTest) =>
    let modules := collected (o.grammarRepos.zip results)
    ⟨root.name, headers, modules.headers, patch, smokeTest, modules.failures⟩

theorem start_conclude : Stage.start (conclude o root outcome headers results) s =
    ((Stage.start (finish o root outcome results) (noted o results s)).1.map
        (reportOn o root headers results),
      (Stage.start (finish o root outcome results) (noted o results s)).2) := by
  obtain ⟨s', hcollect, -⟩ := quiet_collect (o.grammarRepos.zip results) s
  have hnoted : noted o results s = s' := congrArg Prod.snd hcollect
  rw [conclude, Stage.start_bind, hcollect, hnoted]
  have hfinish : (do
      let patch ← patchGenerated root.name o.bindingsOut
        (outcome == .generated || (collected (o.grammarRepos.zip results)).generated)
      let smokeTest ← writeSmokeTestFor o root.name (smokeModule? results)
      return (⟨root.name, headers, (collected (o.grammarRepos.zip results)).headers, patch, smokeTest,
        (collected (o.grammarRepos.zip results)).failures⟩ : Report) : Action Report) =
      finish o root outcome results >>= fun done => pure (reportOn o root headers results done) := by
    simp only [finish, bind_assoc, pure_bind, reportOn]
  dsimp only
  rw [hfinish, Stage.start_bind]
  cases hdone : Stage.start (finish o root outcome results) s' with
  | mk result t => cases result <;> rfl

theorem Run.generate_eq_ok {report : Report} (h : Stage.start (generate o g) s = (.ok report, t)) :
    ∃ root outcome headers results done,
      Stage.start (runModules o g (claims o g s)) (afterRoot o g s) =
        (.ok results, afterGrammars o g s) ∧
      Stage.start (finish o root outcome results) (noted o results (afterGrammars o g s)) =
        (.ok done, t) ∧
      report = reportOn o root headers results done := by
  obtain ⟨failure, -, herror⟩ | ⟨root, outcome, headers, results, -, -, hmodules, hrun⟩ :=
    start_generate o g s
  · rw [herror] at h
    cases h
  · rw [hrun, start_conclude] at h
    obtain ⟨result, t', hfinish⟩ : ∃ result t', Stage.start (finish o root outcome results)
        (noted o results (afterGrammars o g s)) = (result, t') := ⟨_, _, rfl⟩
    rw [hfinish] at h
    obtain ⟨hreport, rfl⟩ := Prod.mk.inj h
    cases result with
    | error failure => cases hreport
    | ok done =>
      exact ⟨root, outcome, headers, results, done, hmodules, hfinish, (Except.ok.inj hreport).symm⟩

theorem isOk_finish (hdir : s.disk.isDir o.bindingsOut = false)
    (hgenerated : (outcome == .generated || (collected (o.grammarRepos.zip results)).generated) = false)
    (hsmoke : o.smokeTestOut = none ∨ smokeModule? results = none) :
    (Stage.start (finish o root outcome results) s).1.isOk = true := by
  have hpatch : ∃ u, Stage.start (patchGenerated root.name o.bindingsOut false) s = (.ok {}, u) := by
    rw [patchGenerated, Stage.start_bind, Stage.start_disk]
    dsimp only
    rw [hdir]
    exact ⟨_, rfl⟩
  have hsmokeTest : ∀ u, ∃ v,
      Stage.start (writeSmokeTestFor o root.name (smokeModule? results)) u = (.ok none, v) := by
    intro u
    unfold writeSmokeTestFor
    rcases hsmoke with hsmoke | hsmoke
    · rw [hsmoke]
      exact ⟨u, rfl⟩
    · rw [hsmoke]
      cases o.smokeTestOut with
      | none => exact ⟨u, rfl⟩
      | some dir => exact ⟨_, rfl⟩
  obtain ⟨u, hu⟩ := hpatch
  obtain ⟨v, hv⟩ := hsmokeTest u
  rw [finish, hgenerated, Stage.start_bind_of_ok hu, Stage.start_bind_of_ok hv]
  rfl

/-- Once the root library is done, the report on every grammar is made just if the bindings are patched
and the smoke test is written. Otherwise the run ends with their failure, whatever the grammars have
come to. -/
theorem failures_reported_iff
    (hroot : (Stage.start (rootStage o g) s).1 = .ok (root, outcome, headers)) :
    ∃ results,
      Stage.start (runModules o g (Run.claims o g s)) (Run.afterRoot o g s) =
        (.ok results, Run.afterGrammars o g s) ∧
      ((∃ report t, Stage.start (generate o g) s = (.ok report, t) ∧
          report.Accounts o g (Run.claims o g s) results) ↔
        (Stage.start (finish o root outcome results)
          (noted o results (Run.afterGrammars o g s))).1.isOk = true) ∧
      ∀ failure t, Stage.start (finish o root outcome results)
          (noted o results (Run.afterGrammars o g s)) = (.error failure, t) →
        Stage.start (generate o g) s = (.error failure, t) := by
  obtain ⟨failure, herror, -⟩ | ⟨root', outcome', headers', results, -, hroot', hmodules, hrun⟩ :=
    Run.start_generate o g s
  · rw [herror] at hroot
    cases hroot
  · rw [hroot'] at hroot
    obtain ⟨rfl, hrest⟩ := Prod.mk.inj (Except.ok.inj hroot)
    obtain ⟨rfl, rfl⟩ := Prod.mk.inj hrest
    obtain ⟨results', _, hmodules', hcomes⟩ :=
      runModules_comesTo o g (Run.claims o g s) (Run.afterRoot o g s)
    obtain rfl : results' = results := Except.ok.inj (congrArg Prod.fst (hmodules'.symm.trans hmodules))
    obtain ⟨result, t, hfinish⟩ : ∃ result t, Stage.start (finish o root' outcome' results')
        (noted o results' (Run.afterGrammars o g s)) = (result, t) := ⟨_, _, rfl⟩
    have hconclude := hrun
    rw [start_conclude, hfinish] at hconclude
    refine ⟨results', hmodules, ?_, fun failure t' herror => ?_⟩
    · rw [hfinish]
      cases result with
      | error failure =>
        constructor
        · rintro ⟨report, t', hok, -⟩
          rw [hconclude] at hok
          cases hok
        · intro hok
          cases hok
      | ok done =>
        refine ⟨fun _ => rfl, fun _ => ⟨_, t, hconclude, ?_⟩⟩
        exact accounts_of_conclude hcomes (length_assignNames _ _ _) (fun _ => isSingle_assignNames)
          (hrun.symm.trans hconclude)
    · rw [hfinish] at herror
      obtain ⟨rfl, rfl⟩ := Prod.mk.inj herror
      exact hconclude

/-- What has become of two grammars of which the first is not there. -/
def halfResults : List ModuleResult :=
  [.error (.layout ⟨"x"⟩ (.directoryNotFound ⟨"x"⟩)), .ok (⟨"j", ⟨"h/j/j.h"⟩, 1⟩, .skipped)]

theorem failures_reported_iff_half :
    (Stage.start (rootStage halfFailing Generator.none) ⟨toyDisk, [], []⟩).1 =
      .ok (toyRoot, .skipped, [⟨"h/core/a.h"⟩]) ∧
    ∃ report t, Stage.start (generate halfFailing Generator.none) ⟨toyDisk, [], []⟩ = (.ok report, t) ∧
      report.Accounts halfFailing Generator.none
        (Run.claims halfFailing Generator.none ⟨toyDisk, [], []⟩) halfResults := by
  have hroot : (Stage.start (rootStage halfFailing Generator.none) ⟨toyDisk, [], []⟩).1 =
      .ok (toyRoot, .skipped, [⟨"h/core/a.h"⟩]) := by decide +kernel
  obtain ⟨results, hmodules, hiff, -⟩ := failures_reported_iff hroot
  have hresults : (Stage.start (runModules halfFailing Generator.none
      (Run.claims halfFailing Generator.none ⟨toyDisk, [], []⟩))
      (Run.afterRoot halfFailing Generator.none ⟨toyDisk, [], []⟩)).1 = .ok halfResults := by
    decide +kernel
  rw [hmodules] at hresults
  obtain rfl := Except.ok.inj hresults
  have hdir : (noted halfFailing halfResults
      (Run.afterGrammars halfFailing Generator.none ⟨toyDisk, [], []⟩)).disk.isDir ⟨"b"⟩ = false := by
    decide +kernel
  exact ⟨hroot, hiff.mpr (isOk_finish hdir rfl (.inr rfl))⟩

def brokenDisk : Disk where
  tree.entries := toyDisk.tree.entries ++
    [(["b"], .directory), (["b", "bad.cs"], .file (.binary [255]) false)]

/-- The grammar that is not there is not reported, because that file cannot be patched. -/
theorem loses_failures : ¬ ∀ (o : Options) (g : Generator) (s : Session) (results : List ModuleResult),
    (Stage.start (rootStage o g) s).1.isOk = true →
    (Stage.start (runModules o g (Run.claims o g s)) (Run.afterRoot o g s)).1 = .ok results →
    (∃ failure, .error failure ∈ results) →
    ∃ report t, Stage.start (generate o g) s = (.ok report, t) ∧
      report.Accounts o g (Run.claims o g s) results := by
  intro hall
  have hrun : (Stage.start (generate halfFailing Generator.none) ⟨brokenDisk, [], []⟩).1 =
      .error (.file .read ⟨"b/bad.cs"⟩ .notText) := by decide +kernel
  obtain ⟨report, t, hok, -⟩ := hall halfFailing Generator.none ⟨brokenDisk, [], []⟩ halfResults
    (by decide +kernel) (by decide +kernel) ⟨_, List.mem_cons_self⟩
  rw [hok] at hrun
  cases hrun

end GrammarHeaders
