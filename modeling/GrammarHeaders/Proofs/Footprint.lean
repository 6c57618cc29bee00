import GrammarHeaders.Proofs.ModuleNames
import GrammarHeaders.Proofs.PatchedTrees
import GrammarHeaders.Proofs.RepeatedSmokeTest
import GrammarHeaders.Proofs.Turns

namespace GrammarHeaders

namespace Path

variable {p q : Path} {here l : Location}

end Path

variable {o : Options} {s t u : Session} {repo : Path} {l : Location}

/-- A header that a run publishes, by its directory and its name there. -/
inductive Published (o : Options) (s : Session) : Path → String → Prop
  | root {root : RootLibrary} {t : Session} {file : Path} {n : String}
      (found : Stage.start (RootLibrary.discover o.rootRepo o.config.layout) s = (.ok root, t))
      (header : file ∈ root.headerFiles) (name : file.fileName? = some n) :
      Published o s (o.headersOut / root.name) n
  | language {i : Nat} {repo : Path} {m : LanguageModule} {t : Session}
      (accepted : (Run.claims o Generator.none s)[i]? = some (.ok repo))
      (found : Stage.start (LanguageModule.discover repo) (Run.turn o Generator.none s i) =
        (.ok m, t)) :
      Published o s (o.headersOut / m.name) (Header.fileName m.name)

/-- A binding below a directory, at any depth. -/
def IsBinding (here : Location) (dir : Path) (l : Location) : Prop :=
  ∃ folders name, l = dir.destination here ++ (folders ++ [name]) ∧ IsBindingName name

theorem patchGenerated_footprint (module : String) (dir : Path) (generated : Bool)
    (hs : s.disk.Regular) :
    Disk.Grows (fun _ => False)
      (fun l => IsBinding s.disk.cwd dir l ∧ s.disk.tree.HasFile l) s.disk
      (Stage.start (patchGenerated module dir generated) s).2.disk := by
  obtain hp | hp := disk_patchGenerated module dir generated s
  · rw [hp]
    obtain ⟨s', hd, hstart⟩ := start_patchDir dir s
    have hg := @grows_patchFiles s.disk.cwd (fun _ => False)
      (foundFiles s.disk dir bindingExtensions true) s' (hd ▸ hs) (congrArg Disk.cwd hd)
    rw [hstart]
    rw [hd] at hg
    refine hg.mono (fun _ => id) ?_
    rintro l ⟨p, hp, rfl⟩
    have hdir := ((mem_foundFiles hs).mp hp).1
    obtain ⟨folders, name, hl, hfile, hname, -⟩ :=
      (mem_destinations_foundFiles hs hdir).mp (List.mem_map_of_mem hp)
    exact ⟨⟨folders, name, hl, hname⟩, hfile⟩
  · exact hp ▸ .refl _ _ _

theorem conclude_footprint (o : Options) (root : RootLibrary) (outcome : Outcome)
    (headers : List Path) (results : List ModuleResult) (hs : s.disk.Regular) :
    Disk.Grows (fun l => ∃ dir ∈ o.smokeTestOut, l ∈ dir.entered s.disk.cwd)
      (fun l => IsBinding s.disk.cwd o.bindingsOut l ∧ s.disk.tree.HasFile l ∨
        ∃ dir ∈ o.smokeTestOut, l = dir.destination s.disk.cwd ++ [SmokeTest.fileName]) s.disk
      (Stage.start (conclude o root outcome headers results) s).2.disk := by
  obtain ⟨c, hcollect, hc⟩ := quiet_collect (o.grammarRepos.zip results) s
  rw [conclude, Stage.start_bind, hcollect]
  dsimp only
  generalize collected (o.grammarRepos.zip results) = modules
  have hpatch := patchGenerated_footprint root.name o.bindingsOut
    (outcome == .generated || modules.generated) (hc ▸ hs)
  rw [hc] at hpatch
  rw [Stage.start_bind]
  cases hrun : Stage.start (patchGenerated root.name o.bindingsOut
      (outcome == .generated || modules.generated)) c with
  | mk result p =>
    rw [hrun] at hpatch
    cases result with
    | error failure => exact hpatch.mono (fun _ => False.elim) fun l hl => .inl hl
    | ok summary =>
      have hsmoke := (grows_writeSmokeTestFor o root.name (smokeModule? results)).bind
        (k := fun smokeTest => pure (⟨root.name, headers, modules.headers, summary, smokeTest,
          modules.failures⟩ : Report)) (fun _ => (Stage.Reads.pure _).grows) p (hpatch.regular hs)
        hpatch.cwd
      exact (hpatch.mono (fun _ => False.elim) fun l hl => .inl hl).trans
        (hsmoke.mono (fun _ => id) fun l hl => .inr hl)

theorem not_header_and_binding (p : Path) (hheader : hasExtension p headerExtensions = true)
    (hbinding : hasExtension p bindingExtensions = true) : False := by
  rw [hasExtension] at hheader hbinding
  cases he : p.extension? with
  | none => simp [he] at hheader
  | some ext =>
    simp only [he, headerExtensions, bindingExtensions, List.contains_iff_mem, List.mem_cons,
      List.not_mem_nil, or_false] at hheader hbinding
    rw [hbinding] at hheader
    revert hheader
    decide

theorem Published.isName {dir : Path} {n : String} (hs : s.disk.Regular)
    (h : Published o s dir n) : IsName n ∧ ¬ IsBindingName n := by
  cases h with
  | root found header name =>
    refine ⟨Path.isName_of_fileName? name, fun hbinding => ?_⟩
    have hext := (RootLibrary.discover_eq_ok found).1.headerFiles ▸ header
    obtain ⟨-, _, -, -, -, -, hext⟩ := (mem_foundFiles hs).mp hext
    rw [← hasExtension_bindingExtensions_iff name] at hbinding
    exact not_header_and_binding _ hext hbinding
  | @language i repo m t accepted found =>
    have hname := isName_of_isIdentifierFragment (LanguageModule.name_of_discover found).2
    refine ⟨isName_fileName hname, ?_⟩
    rintro ⟨stem, c, e, hname, -, -, he⟩
    have hlast : (Header.fileName m.name).toList.getLast? = some 'h' := by simp [Header.fileName]
    rw [hname] at hlast
    obtain rfl : e = 'h' := by simpa using hlast
    exact absurd he (by decide)

end GrammarHeaders
