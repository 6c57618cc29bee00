import GrammarHeaders.Proofs.RootStage

namespace GrammarHeaders

variable {o : Options} {s t v : Session} {here : Location}

theorem grows_writeSmokeTestFor (o : Options) (root : String) (language : Option String) :
    Stage.Grows here (fun l => ∃ dir ∈ o.smokeTestOut, l ∈ dir.entered here)
      (fun l => ∃ dir ∈ o.smokeTestOut, l = dir.destination here ++ [SmokeTest.fileName])
      (writeSmokeTestFor o root language) := by
  have hname : IsName SmokeTest.fileName := by decide
  unfold writeSmokeTestFor
  split
  · exact (Stage.Reads.pure _).grows
  · rename_i dir language ho
    have hwrite : Stage.Grows here (fun l => ∃ dir ∈ o.smokeTestOut, l ∈ dir.entered here)
        (fun l => ∃ dir ∈ o.smokeTestOut, l = dir.destination here ++ [SmokeTest.fileName])
        (writeSmokeTest dir root language) := by
      refine ((Action.grows_ensureDirOr _ dir).mono ?_ fun _ => id).bind fun _ => ?_
      · exact fun l hl => ⟨dir, ho, hl⟩
      refine ((Action.grows_writeText _ _).mono (fun _ => id) ?_).bind fun _ => ?_
      · exact fun l hl => ⟨dir, ho, hl.trans (Path.destination_div hname dir here)⟩
      · exact (Stage.Reads.log _).grows.bind fun _ => (Stage.Reads.pure _).grows
    exact hwrite.bind fun _ => (Stage.Reads.pure _).grows
  · exact (Stage.Reads.log _).grows.bind fun _ => (Stage.Reads.pure _).grows

theorem Disk.makeDirAll_of_trivial {d : Disk} {p : Path} (h : p.text = "" ∨ p.parent? = none) :
    d.makeDirAll p = (.ok (), d) := by
  obtain ⟨parents, hall⟩ := exists_ancestors_eq p
  rw [makeDirAll, hall, makeDirs, if_pos h]

theorem Action.start_ensureDirOr_again {failure : Path → Cause → Failure} {dir : Path} {n : String}
    {content : Content} {d : Disk} (hs : s.disk.Regular) (hn : IsName n)
    (hensure : Stage.start (Action.ensureDirOr failure dir) s = (.ok (), t))
    (hw : t.disk.write (dir / n) content = .ok d) (hv : v.disk = d) :
    Stage.start (Action.ensureDirOr failure dir) v = (.ok (), v) := by
  have hg := @Action.grows_ensureDirOr s.disk.cwd (fun _ => False) failure dir s hs rfl
  rw [hensure] at hg
  have hr := hg.regular hs
  have hgw := Disk.write_grows hr hw
  rw [Action.start_ensureDirOr]
  by_cases htrivial : dir.text = "" ∨ dir.parent? = none
  · rw [Disk.makeDirAll_of_trivial htrivial]
    split <;> rfl
  · have hmade := (Action.start_ensureDirOr_eq_ok hs hensure).resolve_left fun hl => htrivial hl.1
    obtain ⟨target, htarget⟩ : ∃ target, t.disk.writable (dir / n) = .ok target := by
      rcases Disk.write_eq_ok hw with ⟨l, executable, hw, -⟩ | ⟨device, hw, -⟩
      · exact ⟨_, hw⟩
      · exact ⟨_, hw⟩
    obtain ⟨place, hplace⟩ := Disk.exists_of_writable htarget
    have hfault := Disk.pathFault?_of_div hn (fun he => htrivial (.inl he))
      ((Disk.resolve_eq_ok hr).mp hplace).1
    have hdir : v.disk.isDir dir = true := by
      rw [hv]
      exact (Disk.isDir_iff (hgw.regular hr)).mpr ⟨hfault, hgw.leads hmade.leads⟩
    rw [if_pos hdir]

theorem writeSmokeTest_again {dir path : Path} {root language : String} (hs : s.disk.Regular)
    (h : Stage.start (writeSmokeTest dir root language) s = (.ok path, t)) (hv : v.disk = t.disk) :
    ∃ w, Stage.start (writeSmokeTest dir root language) v = (.ok path, w) ∧ w.disk = v.disk := by
  obtain ⟨_, s₁, hensure, h⟩ := Stage.start_bind_eq_ok.mp h
  obtain ⟨_, s₂, hwrite, h⟩ := Stage.start_bind_eq_ok.mp h
  obtain ⟨_, s₃, hlog, h⟩ := Stage.start_bind_eq_ok.mp h
  have hs₃ : s₃.disk = s₂.disk := (congrArg Session.disk (Prod.mk.inj hlog).2).symm
  obtain ⟨hpath, rfl⟩ := Prod.mk.inj h
  obtain rfl := Except.ok.inj hpath
  rw [hs₃] at hv
  have hg := @Action.grows_ensureDirOr s.disk.cwd (fun _ => False) .createSmokeTestDirectory dir s hs rfl
  rw [hensure] at hg
  have hr₁ := hg.regular hs
  have hw := Action.start_writeText_eq_ok hwrite
  have hensure' := Action.start_ensureDirOr_again hs (by decide) hensure hw hv
  obtain ⟨w, hstart, hwd⟩ : ∃ w, Stage.start (Action.writeText (dir / SmokeTest.fileName)
      (SmokeTest.program root language).toList) v = (.ok (), w) ∧ w.disk = v.disk := by
    rw [Action.writeText, Action.start_change, hv, Disk.write_again hr₁ hw]
    exact ⟨_, rfl, rfl⟩
  refine ⟨{ w with log := w.log ++ [.info s!"wrote smoke test {dir / SmokeTest.fileName}"] }, ?_, hwd⟩
  rw [writeSmokeTest, Stage.start_bind_of_ok hensure', Stage.start_bind_of_ok hstart]
  rfl

theorem writeSmokeTestFor_again {smoke : Option Path} {root : String} {language : Option String}
    (hs : s.disk.Regular)
    (h : Stage.start (writeSmokeTestFor o root language) s = (.ok smoke, t)) (hv : v.disk = t.disk) :
    ∃ w, Stage.start (writeSmokeTestFor o root language) v = (.ok smoke, w) ∧ w.disk = v.disk := by
  unfold writeSmokeTestFor at h ⊢
  split at h
  · obtain ⟨hsmoke, -⟩ := Prod.mk.inj h
    obtain rfl := Except.ok.inj hsmoke
    exact ⟨v, rfl, rfl⟩
  · obtain ⟨path, s₁, hwrite, h⟩ := Stage.start_bind_eq_ok.mp h
    obtain ⟨hsmoke, rfl⟩ := Prod.mk.inj h
    obtain rfl := Except.ok.inj hsmoke
    obtain ⟨w, hw, hwd⟩ := writeSmokeTest_again hs hwrite hv
    refine ⟨w, ?_, hwd⟩
    rw [map_eq_pure_bind, Stage.start_bind_of_ok hw]
    rfl
  · obtain ⟨_, s₁, hlog, h⟩ := Stage.start_bind_eq_ok.mp h
    obtain ⟨hsmoke, -⟩ := Prod.mk.inj h
    obtain rfl := Except.ok.inj hsmoke
    exact ⟨_, rfl, rfl⟩

end GrammarHeaders
