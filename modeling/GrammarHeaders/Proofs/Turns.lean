import GrammarHeaders.Proofs.Accounting

namespace GrammarHeaders.Run

variable {o : Options} {g : Generator} {s u : Session} {all : List (Except Failure Path)}

/-- The session before the turn of each claim. -/
def before (o : Options) (g : Generator) (all : List (Except Failure Path)) (u : Session)
    (i : Nat) : Session :=
  (Stage.start (runModules o g (all.take i)) u).2

/-- The session after one turn. Nothing is done for a grammar that has not got its name. -/
def worked (o : Options) (g : Generator) (u : Session) : Except Failure Path → Session
  | .error _ => u
  | .ok repo => (Stage.start (runModule o g repo) u).2

@[simp] theorem before_zero : before o g all u 0 = u := rfl

def afterRoot (o : Options) (g : Generator) (s : Session) : Session := (Stage.start (rootStage o g) s).2

/-- The names that the grammars get, or the failures of those that get none. -/
def claims (o : Options) (g : Generator) (s : Session) : List (Except Failure Path) :=
  assignNames (afterRoot o g s).disk [(moduleNameOf s.disk o.rootRepo, o.rootRepo)] o.grammarRepos

/-- The paths that get a name are paths to grammars, with names that differ from each other and from
that of the root library. -/
theorem claims_spec (o : Options) (g : Generator) (s : Session) :
    (accepted (claims o g s)).Pairwise
        (fun a b => moduleNameOf (afterRoot o g s).disk a ≠ moduleNameOf (afterRoot o g s).disk b) ∧
      ∀ repo ∈ accepted (claims o g s), repo ∈ o.grammarRepos ∧
        moduleNameOf (afterRoot o g s).disk repo ≠ moduleNameOf s.disk o.rootRepo := by
  obtain ⟨hpair, hmem⟩ := assignNames_spec (afterRoot o g s).disk
    [(moduleNameOf s.disk o.rootRepo, o.rootRepo)] o.grammarRepos
  refine ⟨hpair, fun repo hr => ⟨(hmem repo hr).1, fun he => ?_⟩⟩
  have hfree := (hmem repo hr).2
  rw [he] at hfree
  simp at hfree

theorem claims_eq {root : RootLibrary}
    (h : RootDiscovered s.disk o.rootRepo o.config.layout root) :
    claims o g s = assignNames (afterRoot o g s).disk [(root.name, root.repo)] o.grammarRepos := by
  rw [claims, h.name, h.repo_eq]

def turn (o : Options) (g : Generator) (s : Session) (i : Nat) : Session :=
  before o g (claims o g s) (afterRoot o g s) i

def afterGrammars (o : Options) (g : Generator) (s : Session) : Session :=
  (Stage.start (runModules o g (claims o g s)) (afterRoot o g s)).2

/-- What the root stage does with a root library that was discovered. -/
def askAndExport (o : Options) (g : Generator) (root : RootLibrary) :
    Action (RootLibrary × Outcome × List Path) := do
  Stage.log (.info s!"root library {root.name} with {root.headerFiles.length} header(s)")
  let outcome ← g.ask ⟨root.name, root.headerFiles, root.includeDir, o.bindingsOut⟩
  let headers ← exportRootHeaders root o.headersOut o.config
  return (root, outcome, headers)

/-- The run ends before anything is done for the root library. -/
def Refused (o : Options) (s : Session) : Prop :=
  s.disk.isDir o.rootRepo = false ∨ o.grammarRepos = [] ∨
    ∃ fault t, Stage.start (RootLibrary.discover o.rootRepo o.config.layout) s = (.error fault, t)

theorem rootStage_cases (o : Options) (g : Generator) (s : Session) :
    (Refused o s ∧ ∃ failure t, Stage.start (rootStage o g) s = (.error failure, t) ∧
      (t = s ∨ ∃ fault,
        Stage.start (RootLibrary.discover o.rootRepo o.config.layout) s = (.error fault, t))) ∨
    ∃ root t, Stage.start (RootLibrary.discover o.rootRepo o.config.layout) s = (.ok root, t) ∧
      Stage.start (rootStage o g) s = Stage.start (askAndExport o g root) t := by
  rw [rootStage, Stage.start_bind, Stage.start_disk]
  dsimp only
  cases hdir : s.disk.isDir o.rootRepo with
  | false => exact .inl ⟨.inl hdir, _, s, rfl, .inl rfl⟩
  | true =>
    cases hgrammars : o.grammarRepos.isEmpty with
    | true => exact .inl ⟨.inr (.inl (List.isEmpty_iff.1 hgrammars)), _, s, rfl, .inl rfl⟩
    | false =>
      cases hd : Stage.start (RootLibrary.discover o.rootRepo o.config.layout) s with
      | mk result t =>
        cases result with
        | error fault =>
          refine .inl ⟨.inr (.inr ⟨fault, t, hd⟩), .layout o.rootRepo fault, t, ?_, .inr ⟨fault, rfl⟩⟩
          simp [Stage.start_bind, Stage.start_within, hd, Except.mapError]
        | ok root =>
          refine .inr ⟨root, t, rfl, ?_⟩
          simp [Stage.start_bind, Stage.start_within, hd, Except.mapError, askAndExport]

theorem askAndExport_eq_ok {root root' : RootLibrary} {outcome : Outcome} {headers : List Path}
    {t : Session} (h : Stage.start (askAndExport o g root) s = (.ok (root', outcome, headers), t)) :
    root' = root ∧ ∃ logged asked, logged.disk = s.disk ∧ logged.asked = s.asked ∧
      Stage.start (g.ask ⟨root.name, root.headerFiles, root.includeDir, o.bindingsOut⟩) logged =
        (.ok outcome, asked) ∧
      Stage.start (exportRootHeaders root o.headersOut o.config) asked = (.ok headers, t) := by
  rw [askAndExport] at h
  obtain ⟨_, logged, hlog, h⟩ := Stage.start_bind_eq_ok.mp h
  obtain ⟨outcome', asked, hask, h⟩ := Stage.start_bind_eq_ok.mp h
  obtain ⟨headers', t', hexport, h⟩ := Stage.start_bind_eq_ok.mp h
  obtain ⟨hresult, rfl⟩ := Prod.mk.inj h
  obtain ⟨rfl, hrest⟩ := Prod.mk.inj (Except.ok.inj hresult)
  obtain ⟨rfl, rfl⟩ := Prod.mk.inj hrest
  rw [Stage.start_log] at hlog
  obtain ⟨-, rfl⟩ := Prod.mk.inj hlog
  refine ⟨rfl, _, asked, ?_, ?_, hask, hexport⟩ <;> rfl

/-- A run is the root stage, the loop over the grammars and the conclusion, of which only the first may
end it early. -/
theorem start_generateWith (g : Generator) {work : List (Except Failure Path) → Action (List ModuleResult)}
    (hwork : ∀ claims u, ∃ results t, Stage.start (work claims) u = (.ok results, t)) (s : Session) :
    (∃ failure, Stage.start (rootStage o g) s = (.error failure, afterRoot o g s) ∧
      Stage.start (generateWith o g work) s = (.error failure, afterRoot o g s)) ∨
    ∃ root outcome headers results u,
      (∃ t, Stage.start (RootLibrary.discover o.rootRepo o.config.layout) s = (.ok root, t)) ∧
      Stage.start (rootStage o g) s = (.ok (root, outcome, headers), afterRoot o g s) ∧
      Stage.start (work (claims o g s)) (afterRoot o g s) = (.ok results, u) ∧
      Stage.start (generateWith o g work) s =
        Stage.start (conclude o root outcome headers results) u := by
  have hafter : Stage.start (rootStage o g) s =
      ((Stage.start (rootStage o g) s).1, afterRoot o g s) := rfl
  rw [generateWith_eq, Stage.start_bind]
  cases hresult : (Stage.start (rootStage o g) s).1 with
  | error failure =>
    rw [hresult] at hafter
    exact .inl ⟨failure, hafter, by rw [hafter]⟩
  | ok value =>
    obtain ⟨root, outcome, headers⟩ := value
    rw [hresult] at hafter
    obtain ⟨-, failure, t, herror, -⟩ | ⟨root', t, hroot, hrun⟩ := rootStage_cases o g s
    · rw [herror] at hafter
      cases hafter
    · obtain ⟨rfl, -⟩ := askAndExport_eq_ok (hrun ▸ hafter)
      have hdiscovered := (RootLibrary.discover_eq_ok hroot).1
      obtain ⟨results, u, hloop⟩ := hwork (claims o g s) (afterRoot o g s)
      refine .inr ⟨root, outcome, headers, results, u, ⟨t, hroot⟩, hafter, hloop, ?_⟩
      rw [hafter]
      dsimp only
      rw [grammarStage, Stage.start_bind, Stage.start_disk]
      dsimp only
      rw [hdiscovered.name, hdiscovered.repo_eq, Stage.start_bind]
      rw [show assignNames _ _ _ = claims o g s from rfl, hloop]

theorem start_generate (o : Options) (g : Generator) (s : Session) :
    (∃ failure, Stage.start (rootStage o g) s = (.error failure, afterRoot o g s) ∧
      Stage.start (generate o g) s = (.error failure, afterRoot o g s)) ∨
    ∃ root outcome headers results,
      (∃ t, Stage.start (RootLibrary.discover o.rootRepo o.config.layout) s = (.ok root, t)) ∧
      Stage.start (rootStage o g) s = (.ok (root, outcome, headers), afterRoot o g s) ∧
      Stage.start (runModules o g (claims o g s)) (afterRoot o g s) =
        (.ok results, afterGrammars o g s) ∧
      Stage.start (generate o g) s =
        Stage.start (conclude o root outcome headers results) (afterGrammars o g s) := by
  have hwork : ∀ claims u, ∃ results t,
      Stage.start (runModules o g claims) u = (.ok results, t) := fun claims u => by
    obtain ⟨results, t, hrun, -⟩ := runModules_comesTo o g claims u
    exact ⟨results, t, hrun⟩
  obtain hfailed | ⟨root, outcome, headers, results, u, hroot, hstage, hloop, hrun⟩ :=
    start_generateWith g hwork s
  · exact .inl hfailed
  · obtain rfl : afterGrammars o g s = u := congrArg Prod.snd hloop
    exact .inr ⟨root, outcome, headers, results, hroot, hstage, hloop, hrun⟩

end GrammarHeaders.Run
