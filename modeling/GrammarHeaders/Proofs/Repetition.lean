import GrammarHeaders.Proofs.Agreement

namespace GrammarHeaders

namespace Stage

variable {ε α β : Type} {x : Stage ε α} {s t v : Session} {r : Except ε α}

/-- Started again on the disk that it has left, the stage comes to the same and leaves that disk. -/
def Repeats (x : Stage ε α) (s : Session) : Prop :=
  ∀ v, v.disk = (start x s).2.disk → ∃ w, start x v = ((start x s).1, w) ∧ w.disk = v.disk

/-- What the stage does depends only on the disk that it starts on. -/
abbrev OnDisk (x : Stage ε α) : Prop := Matches Eq Eq x x

theorem OnDisk.start (hx : OnDisk x) (h : start x s = (r, t)) (hv : v.disk = s.disk) :
    ∃ w, Stage.start x v = (r, w) ∧ w.disk = t.disk := by
  obtain ⟨hresult, hdisk⟩ := hx v s hv
  rw [h] at hresult hdisk
  exact ⟨(Stage.start x v).2, Prod.ext (sameOutcome_eq_iff.mp hresult) rfl, hdisk⟩

theorem OnDisk.repeats (hx : OnDisk x) (h : (Stage.start x s).2.disk = s.disk) : Repeats x s := by
  intro v hv
  obtain ⟨w, hw, hd⟩ := hx.start (Prod.eta (Stage.start x s)).symm (hv.trans h)
  exact ⟨w, hw, hd.trans hv.symm⟩

/-- On the disk `d` the stage gives `a` and leaves the disk alone. -/
def Idle (x : Stage ε α) (a : α) (d : Disk) : Prop :=
  ∀ v, v.disk = d → ∃ w, start x v = (.ok a, w) ∧ w.disk = d

/-- What repeats a sequence: its first part repeats if it fails, and otherwise is idle on the disk that
the second part leaves, which repeats. -/
theorem Repeats.bind {k : α → Stage ε β} (herror : ∀ e t, Stage.start x s = (.error e, t) → Repeats x s)
    (hok : ∀ a t, Stage.start x s = (.ok a, t) →
      Idle x a (Stage.start (k a) t).2.disk ∧ Repeats (k a) t) : Repeats (x >>= k) s := by
  intro v hv
  rw [start_bind] at hv ⊢
  rw [start_bind]
  cases hx : Stage.start x s with
  | mk result t =>
    rw [hx] at hv
    cases result with
    | error e =>
      have hrepeats := herror e t hx v
      rw [hx] at hrepeats
      obtain ⟨w, hw, hd⟩ := hrepeats hv
      exact ⟨w, by rw [hw], hd⟩
    | ok a =>
      obtain ⟨hidle, hrepeats⟩ := hok a t hx
      obtain ⟨v', hv', hd'⟩ := hidle v hv
      obtain ⟨w, hw, hd⟩ := hrepeats v' hd'
      exact ⟨w, by rw [hv']; exact hw, hd.trans (hd'.trans hv.symm)⟩

theorem Reads.repeats (hx : Reads x) (hs : s.disk.Regular)
    (hm : Matches (Disk.Agree s.disk.cwd (fun _ => True) fun _ => True) Eq x x) : Repeats x s := by
  intro v hv
  rw [hx s] at hv
  have hagree : Disk.Agree s.disk.cwd (fun _ => True) (fun _ => True) s.disk v.disk := by
    rw [hv]
    exact .refl hs rfl
  exact ⟨(Stage.start x v).2, Prod.ext (sameOutcome_eq_iff.mp (hm s v hagree).1).symm rfl, hx v⟩

theorem Reads.idle {here : Location} {A B : Location → Prop} {d : Disk} {a : α} (hx : Reads x)
    (hm : Matches (Disk.Agree here A B) Eq x x) (hd : Disk.Agree here A B s.disk d)
    (h : Stage.start x s = (.ok a, t)) : Idle x a d := by
  rintro v rfl
  have hresult := (hm s v hd).1
  rw [h] at hresult
  exact ⟨(Stage.start x v).2, Prod.ext (sameOutcome_eq_iff.mp hresult).symm rfl, hx v⟩

end Stage

namespace Action

variable {s t v : Session} {path out : Path}

theorem onDisk_readText (path : Path) : Stage.OnDisk (readText path) := by
  intro s u h
  rw [start_readText, start_readText, h]
  cases u.disk.readText path with
  | error cause => exact ⟨rfl, h⟩
  | ok t => exact ⟨rfl, h⟩

theorem onDisk_writeText (path : Path) (t : Text) : Stage.OnDisk (writeText path t) := by
  intro s u h
  rw [writeText, start_change, start_change, h]
  cases u.disk.write path (.text t) with
  | error cause => exact ⟨rfl, h⟩
  | ok d => exact ⟨rfl, rfl⟩

theorem onDisk_updateInPlace {α : Type} (path : Path) (transform : Text → Text × α) :
    Stage.OnDisk (updateInPlace path transform) := by
  refine (onDisk_readText path).bind fun before before' he => ?_
  subst he
  dsimp only
  split
  · exact .pure rfl
  · exact (onDisk_writeText path _).bind fun _ _ _ => .pure rfl

theorem onDisk_ensureDirOr (failure : Path → Cause → Failure) (path : Path) :
    Stage.OnDisk (ensureDirOr failure path) := by
  intro s u h
  rw [start_ensureDirOr, start_ensureDirOr, h]
  split
  · exact ⟨rfl, h⟩
  · exact ⟨sameOutcome_eq_iff.mpr rfl, rfl⟩

theorem onDisk_ensureModuleDir (out : Path) (module : String) :
    Stage.OnDisk (ensureModuleDir out module) :=
  (onDisk_ensureDirOr _ _).bind fun _ _ _ => .pure rfl

theorem disk_of_updateInPlace {α : Type} {transform : Text → Text × α} {r : Except Failure (Bool × α)}
    (h : Stage.start (updateInPlace path transform) s = (r, t)) :
    t.disk = s.disk ∨ ∃ t', s.disk.write path (.text t') = .ok t.disk := by
  rw [updateInPlace, Stage.start_bind, start_readText] at h
  cases hr : s.disk.readText path with
  | error cause =>
    rw [hr] at h
    exact .inl (congrArg Session.disk (Prod.mk.inj h).2.symm)
  | ok before =>
    rw [hr] at h
    dsimp only at h
    split at h
    · exact .inl (congrArg Session.disk (Prod.mk.inj h).2.symm)
    · rw [Stage.start_bind] at h
      cases hw : Stage.start (writeText path (transform before).1) s with
      | mk result s' =>
        rw [hw] at h
        cases result with
        | error failure =>
          obtain ⟨-, rfl⟩ := Prod.mk.inj h
          exact .inl (start_writeText_eq_error hw)
        | ok _ =>
          obtain ⟨-, rfl⟩ := Prod.mk.inj h
          exact .inr ⟨_, start_writeText_eq_ok hw⟩

theorem repeats_writeText_updateInPlace {α β : Type} {text : Text} {transform : Text → Text × α}
    {k : Bool × α → Action β} (hs : s.disk.Regular) (hk : ∀ a, Stage.Reads (k a))
    (hk' : ∀ a, Stage.OnDisk (k a)) :
    Stage.Repeats (writeText path text >>= fun _ => updateInPlace path transform >>= k) s := by
  have hupdate : Stage.OnDisk (updateInPlace path transform >>= k) :=
    (onDisk_updateInPlace path transform).bind fun a a' he => he ▸ hk' a
  cases hw : Stage.start (writeText path text) s with
  | mk result s₁ =>
    cases result with
    | error failure =>
      have hd := start_writeText_eq_error hw
      refine Stage.OnDisk.repeats ((onDisk_writeText path text).bind fun _ _ _ => hupdate) ?_
      rw [Stage.start_bind_of_error hw]
      exact hd
    | ok _ =>
      have hwrite := start_writeText_eq_ok hw
      have hall : Stage.start (writeText path text >>= fun _ => updateInPlace path transform >>= k) s =
          Stage.start (updateInPlace path transform >>= k) s₁ :=
        Stage.start_bind_of_ok hw
      intro v hv
      rw [hall] at hv ⊢
      have hagain : v.disk.write path (.text text) = .ok s₁.disk := by
        rw [hv, Stage.start_bind]
        cases hu : Stage.start (updateInPlace path transform) s₁ with
        | mk result s₂ =>
          have hsecond : s₂.disk.write path (.text text) = .ok s₁.disk := by
            rcases disk_of_updateInPlace hu with hd | ⟨t', ht'⟩
            · rw [hd]
              exact Disk.write_again hs hwrite
            · exact Disk.write_write hs hwrite ht'
          cases result with
          | error failure => exact hsecond
          | ok a => exact (hk a s₂).symm ▸ hsecond
      obtain ⟨w, hstart, hd⟩ := hupdate.start (v := { v with disk := s₁.disk })
        (Prod.eta (Stage.start (updateInPlace path transform >>= k) s₁)).symm rfl
      refine ⟨w, ?_, hd.trans hv.symm⟩
      rw [Stage.start_bind, writeText, start_change, hagain]
      exact hstart

theorem start_ensureModuleDir_of_isDir {module : String} (h : s.disk.isDir (out / module) = true) :
    Stage.start (ensureModuleDir out module) s = (.ok (out / module), s) := by
  rw [ensureModuleDir, Stage.start_bind, start_ensureDirOr, if_pos h]
  rfl

theorem start_ensureModuleDir_eq_error {module : String} {failure : Failure} (hn : IsName module)
    (hs : s.disk.Regular) (hout : s.disk.Leads out)
    (h : Stage.start (ensureModuleDir out module) s = (.error failure, t)) : t.disk = s.disk := by
  by_cases hdir : s.disk.isDir (out / module) = true
  · rw [start_ensureModuleDir_of_isDir hdir] at h
    cases h
  · rw [ensureModuleDir, Stage.start_bind, start_ensureDirOr, if_neg hdir] at h
    cases hm : s.disk.makeDirAll (out / module) with
    | mk result d =>
      rw [hm] at h
      cases result with
      | ok _ => cases h
      | error cause =>
        obtain ⟨-, rfl⟩ := Prod.mk.inj h
        exact Disk.makeDirAll_div_eq_error hs hout hn hm

end Action

end GrammarHeaders
