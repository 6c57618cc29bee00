import GrammarHeaders.Proofs.DiskChanges
import GrammarHeaders.Proofs.Stages

namespace GrammarHeaders

/-- Both fail alike, or both succeed with related results. -/
def SameOutcome {ε α β : Type} (f : α → β → Prop) : Except ε α → Except ε β → Prop
  | .ok a, .ok b => f a b
  | .error e, .error e' => e = e'
  | _, _ => False

theorem sameOutcome_eq_iff {ε α : Type} {x y : Except ε α} : SameOutcome Eq x y ↔ x = y := by
  cases x <;> cases y <;> simp [SameOutcome]

theorem SameOutcome.mono {ε α β : Type} {f g : α → β → Prop} {x : Except ε α} {y : Except ε β}
    (h : SameOutcome f x y) (hfg : ∀ a b, f a b → g a b) : SameOutcome g x y := by
  cases x <;> cases y
  · exact h
  · exact h.elim
  · exact h.elim
  · exact hfg _ _ h

namespace Stage

variable {ε ε' α β γ δ : Type} {R : Disk → Disk → Prop} {f : α → β → Prop} {g : γ → δ → Prop}

@[simp] theorem start_logAll (lines : List LogLine) (s : Session) :
    start (logAll lines : Stage ε Unit) s = (.ok (), { s with log := s.log ++ lines }) := rfl

@[simp] theorem start_log (line : LogLine) (s : Session) :
    start (log line : Stage ε Unit) s = (.ok (), { s with log := s.log ++ [line] }) := rfl

@[simp] theorem start_setDisk (d : Disk) (s : Session) :
    start (setDisk d : Stage ε Unit) s = (.ok (), { s with disk := d }) := rfl

theorem start_within (wrap : ε → ε') (x : Stage ε α) (s : Session) :
    start (within wrap x) s = ((start x s).1.mapError wrap, (start x s).2) := rfl

theorem start_within_eq_ok {wrap : ε → ε'} {x : Stage ε α} {s t : Session} {a : α} :
    start (within wrap x) s = (.ok a, t) ↔ start x s = (.ok a, t) := by
  rw [start_within]
  cases start x s with
  | mk result s' => cases result <;> simp [Except.mapError]

theorem start_within_eq_error {wrap : ε → ε'} {x : Stage ε α} {s t : Session} {e : ε'} :
    start (within wrap x) s = (.error e, t) ↔ ∃ e', start x s = (.error e', t) ∧ wrap e' = e := by
  rw [start_within]
  cases start x s with
  | mk result s' =>
    cases result with
    | error e' => simp [Except.mapError, and_comm]
    | ok a => simp [Except.mapError]

/-- From related disks, the stages come to related results and leave related disks. -/
def Matches (R : Disk → Disk → Prop) (f : α → β → Prop) (x : Stage ε α) (y : Stage ε β) : Prop :=
  ∀ s u, R s.disk u.disk →
    SameOutcome f (start x s).1 (start y u).1 ∧ R (start x s).2.disk (start y u).2.disk

theorem Matches.bind {x : Stage ε α} {y : Stage ε β} {k : α → Stage ε γ} {k' : β → Stage ε δ}
    (h : Matches R f x y) (hk : ∀ a b, f a b → Matches R g (k a) (k' b)) :
    Matches R g (x >>= k) (y >>= k') := by
  intro s u hsu
  obtain ⟨hout, hdisk⟩ := h s u hsu
  rw [start_bind, start_bind]
  generalize start x s = xs at hout hdisk
  generalize start y u = yu at hout hdisk
  obtain ⟨rx, s'⟩ := xs
  obtain ⟨ry, u'⟩ := yu
  cases rx <;> cases ry
  · exact ⟨hout, hdisk⟩
  · exact hout.elim
  · exact hout.elim
  · exact hk _ _ hout s' u' hdisk

theorem Matches.pure {a : α} {b : β} (h : f a b) : Matches R f (pure a : Stage ε α) (pure b) :=
  fun _ _ hsu => ⟨h, hsu⟩

theorem Matches.throw {e : ε} : Matches R f (throw e : Stage ε α) (throw e : Stage ε β) :=
  fun _ _ hsu => ⟨rfl, hsu⟩

theorem Matches.ofExcept (r : Except ε α) :
    Matches R (fun a b => a = b ∧ r = .ok a) (ofExcept r) (ofExcept r) := by
  intro s u hsu
  refine ⟨?_, hsu⟩
  cases r with
  | error e => rfl
  | ok a => exact ⟨rfl, rfl⟩

theorem Matches.log (line line' : LogLine) :
    Matches R Eq (log line : Stage ε Unit) (Stage.log line') :=
  fun _ _ hsu => ⟨rfl, hsu⟩

theorem Matches.logAll (lines lines' : List LogLine) :
    Matches R Eq (logAll lines : Stage ε Unit) (Stage.logAll lines') :=
  fun _ _ hsu => ⟨rfl, hsu⟩

theorem Matches.disk : Matches R R (disk : Stage ε Disk) Stage.disk := fun _ _ hsu => ⟨hsu, hsu⟩

theorem Matches.within {x : Stage ε α} {y : Stage ε β} (h : Matches R f x y) (wrap : ε → ε') :
    Matches R f (within wrap x) (Stage.within wrap y) := by
  intro s u hsu
  obtain ⟨hout, hdisk⟩ := h s u hsu
  refine ⟨?_, hdisk⟩
  rw [start_within, start_within]
  generalize (start x s).1 = rx at hout
  generalize (start y u).1 = ry at hout
  cases rx <;> cases ry
  · exact congrArg wrap hout
  · exact hout
  · exact hout
  · exact hout

theorem Matches.map_left {x : Stage ε α} {y : Stage ε β} {k : α → γ} {g : γ → β → Prop}
    (h : Matches R f x y) (hk : ∀ a b, f a b → g (k a) b) :
    Matches R g (x >>= fun a => Pure.pure (k a)) y := by
  intro s u hsu
  obtain ⟨hout, hdisk⟩ := h s u hsu
  rw [start_bind]
  generalize start x s = xs at hout hdisk
  generalize start y u = yu at hout hdisk
  obtain ⟨rx, s'⟩ := xs
  obtain ⟨ry, u'⟩ := yu
  cases rx <;> cases ry
  · exact ⟨hout, hdisk⟩
  · exact hout.elim
  · exact hout.elim
  · exact ⟨hk _ _ hout, hdisk⟩

/-- The stage gives a result and leaves the disk alone. -/
def Quiet (x : Stage ε α) (a : α) : Prop := ∀ s, ∃ s', start x s = (.ok a, s') ∧ s'.disk = s.disk

theorem Quiet.log (line : LogLine) : Quiet (log line : Stage ε Unit) () := fun _ => ⟨_, rfl, rfl⟩

theorem Matches.quiet_left {x : Stage ε α} {a : α} {k : α → Stage ε γ} {y : Stage ε δ}
    (hx : Quiet x a) (h : Matches R g (k a) y) : Matches R g (x >>= k) y := by
  intro s u hsu
  obtain ⟨s', hs, hd⟩ := hx s
  rw [start_bind, hs]
  exact h s' u (hd ▸ hsu)

theorem Matches.quiet_right {x : Stage ε γ} {y : Stage ε β} {b : β} {k : β → Stage ε δ}
    (hy : Quiet y b) (h : Matches R g x (k b)) : Matches R g x (y >>= k) := by
  intro s u hsu
  obtain ⟨u', hu, hd⟩ := hy u
  rw [start_bind, hu]
  exact h s u' (hd ▸ hsu)

/-- The stage leaves the disk alone, whatever it comes to. -/
def Reads (x : Stage ε α) : Prop := ∀ s, (start x s).2.disk = s.disk

theorem Reads.pure (a : α) : Reads (pure a : Stage ε α) := fun _ => rfl

theorem Reads.throw (e : ε) : Reads (throw e : Stage ε α) := fun _ => rfl

theorem Reads.ofExcept (r : Except ε α) : Reads (ofExcept r) := fun _ => rfl

theorem Reads.disk : Reads (disk : Stage ε Disk) := fun _ => rfl

theorem Reads.logAll (lines : List LogLine) : Reads (logAll lines : Stage ε Unit) := fun _ => rfl

theorem Reads.log (line : LogLine) : Reads (log line : Stage ε Unit) := fun _ => rfl

theorem Reads.within {x : Stage ε α} (h : Reads x) (wrap : ε → ε') : Reads (within wrap x) := h

theorem Reads.bind {x : Stage ε α} {k : α → Stage ε β} (h : Reads x) (hk : ∀ a, Reads (k a)) :
    Reads (x >>= k) := by
  intro s
  have hx := h s
  rw [start_bind]
  cases hs : start x s with
  | mk r s' =>
    rw [hs] at hx
    cases r with
    | error e => exact hx
    | ok a => exact (hk a s').trans hx

/-- Seen from a current directory, the stage makes directories and writes files at given
locations only. -/
def Grows (here : Location) (dirs files : Location → Prop) (x : Stage ε α) : Prop :=
  ∀ s, s.disk.Regular → s.disk.cwd = here → Disk.Grows dirs files s.disk (start x s).2.disk

section Grows

variable {here : Location} {dirs files dirs' files' : Location → Prop}

theorem Reads.grows {x : Stage ε α} (h : Reads x) : Grows here dirs files x := by
  intro s _ _
  rw [h s]
  exact .refl _ _ _

theorem Grows.mono {x : Stage ε α} (h : Grows here dirs files x) (hd : ∀ l, dirs l → dirs' l)
    (hf : ∀ l, files l → files' l) : Grows here dirs' files' x :=
  fun s hs hc => (h s hs hc).mono hd hf

/-- Every result of the stage is one that `P` allows. -/
def Gives (P : α → Prop) (x : Stage ε α) : Prop := ∀ s a t, start x s = (.ok a, t) → P a

theorem Grows.bind_of_gives {P : α → Prop} {x : Stage ε α} {k : α → Stage ε β}
    (h : Grows here dirs files x) (hP : Gives P x) (hk : ∀ a, P a → Grows here dirs files (k a)) :
    Grows here dirs files (x >>= k) := by
  intro s hs hc
  have hx := h s hs hc
  rw [start_bind]
  cases hr : start x s with
  | mk r s' =>
    rw [hr] at hx
    cases r with
    | error e => exact hx
    | ok a => exact hx.trans (hk a (hP s a s' hr) s' (hx.regular hs) (hx.cwd.trans hc))

theorem Grows.bind {x : Stage ε α} {k : α → Stage ε β} (h : Grows here dirs files x)
    (hk : ∀ a, Grows here dirs files (k a)) : Grows here dirs files (x >>= k) :=
  h.bind_of_gives (P := fun _ => True) (fun _ _ _ _ => trivial) fun a _ => hk a

end Grows

end Stage

namespace Action

variable {here : Location} {dirs files : Location → Prop}

theorem reads_readText (path : Path) : Stage.Reads (readText path) := by
  intro s
  rw [start_readText]
  cases s.disk.readText path <;> rfl

theorem start_change (failure : Cause → Failure) (operation : Disk → Except Cause Disk) (s : Session) :
    Stage.start (change failure operation) s = match operation s.disk with
      | .ok d => (.ok (), { s with disk := d })
      | .error cause => (.error (failure cause), s) := by
  rw [change, Stage.start_bind, Stage.start_disk]
  cases h : operation s.disk <;> simp [h]

theorem start_writeText_eq_ok {path : Path} {t' : Text} {s t : Session} (h : Stage.start (writeText path t') s = (.ok (), t)) :
    s.disk.write path (.text t') = .ok t.disk := by
  rw [writeText, start_change] at h
  split at h
  · rename_i d hw
    obtain ⟨-, rfl⟩ := Prod.mk.inj h
    exact hw
  · cases h

theorem start_writeText_eq_error {path : Path} {t' : Text} {s t : Session} {failure : Failure}
    (h : Stage.start (writeText path t') s = (.error failure, t)) : t.disk = s.disk := by
  rw [writeText, start_change] at h
  split at h
  · cases h
  · exact congrArg Session.disk (Prod.mk.inj h).2.symm

theorem grows_writeText (path : Path) (t : Text) :
    Stage.Grows here dirs (· = path.destination here) (writeText path t) := by
  intro s hs hc
  rw [writeText, start_change]
  cases h : s.disk.write path (.text t) with
  | error cause => exact .refl _ _ _
  | ok d =>
    have hg := Disk.write_grows hs h
    rw [hc] at hg
    exact hg.mono (fun _ => False.elim) fun _ => id

theorem grows_copyFile (source target : Path) :
    Stage.Grows here dirs (· = target.destination here) (copyFile source target) := by
  intro s hs hc
  rw [copyFile, start_change]
  cases h : s.disk.copy source target with
  | error cause => exact .refl _ _ _
  | ok d =>
    have hg := Disk.copy_grows hs h
    rw [hc] at hg
    exact hg.mono (fun _ => False.elim) fun _ => id

theorem grows_updateInPlace {α : Type} (path : Path) (transform : Text → Text × α) :
    Stage.Grows here dirs (· = path.destination here) (updateInPlace path transform) := by
  refine (reads_readText path).grows.bind fun before => ?_
  dsimp only
  split
  · exact (Stage.Reads.pure _).grows
  · exact (grows_writeText path _).bind fun _ => (Stage.Reads.pure _).grows

theorem start_ensureDirOr (failure : Path → Cause → Failure) (path : Path) (s : Session) :
    Stage.start (ensureDirOr failure path) s =
      if s.disk.isDir path then (.ok (), s)
      else ((s.disk.makeDirAll path).1.mapError (failure path),
        { s with disk := (s.disk.makeDirAll path).2 }) := by
  rw [ensureDirOr, Stage.start_bind, Stage.start_disk]
  by_cases h : s.disk.isDir path
  · simp [h]
  · rcases hm : s.disk.makeDirAll path with ⟨result, d⟩
    cases result <;> simp [h, hm, Stage.start_bind, Except.mapError]

theorem grows_ensureDirOr (failure : Path → Cause → Failure) (path : Path) :
    Stage.Grows here (· ∈ path.entered here) files (ensureDirOr failure path) := by
  intro s hs hc
  rw [start_ensureDirOr]
  split
  · exact .refl _ _ _
  · have hmake : s.disk.makeDirAll path = ((s.disk.makeDirAll path).1, (s.disk.makeDirAll path).2) := rfl
    have hg := (Disk.makeDirAll_spec hs hmake).1
    rw [hc] at hg
    exact hg.mono (fun _ => id) fun _ => False.elim

end Action

end GrammarHeaders
