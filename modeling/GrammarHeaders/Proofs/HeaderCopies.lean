import GrammarHeaders.Proofs.LinkedPaths
import GrammarHeaders.Proofs.RootStage
import Mathlib.Logic.Function.Iterate

namespace GrammarHeaders

variable {s t u : Session} {v : Disk} {dir p source : Path} {l : Location} {content : Content}
  {executable : Bool} {files : Location → Prop} {sources paths before after copies changed : List Path}
  {a : Annotator}

namespace Stage

variable {ε α β : Type} {P : Disk → Prop} {x : Stage ε α}

/-- The stage keeps a property of the disk, whatever it comes to. -/
def Preserves (P : Disk → Prop) (x : Stage ε α) : Prop := ∀ s, P s.disk → P (start x s).2.disk

theorem Reads.preserves (h : Reads x) : Preserves P x := by
  intro s hs
  rwa [h s]

theorem Preserves.bind_of_gives {Q : α → Prop} {k : α → Stage ε β} (h : Preserves P x) (hQ : Gives Q x)
    (hk : ∀ a, Q a → Preserves P (k a)) : Preserves P (x >>= k) := by
  intro s hs
  have hx := h s hs
  rw [start_bind]
  cases hr : start x s with
  | mk r s' =>
    rw [hr] at hx
    cases r with
    | error e => exact hx
    | ok a => exact hk a (hQ s a s' hr) s' hx

theorem Preserves.bind {k : α → Stage ε β} (h : Preserves P x) (hk : ∀ a, Preserves P (k a)) :
    Preserves P (x >>= k) :=
  h.bind_of_gives (Q := fun _ => True) (fun _ _ _ _ => trivial) fun a _ => hk a

end Stage

/-- Where the copy of a header goes. -/
def Disk.copyPlace? (d : Disk) (dir source : Path) : Option Location :=
  source.fileName?.bind fun n => d.location? (dir / n)

theorem Disk.copyPlace?_eq {n : String} (hn : source.fileName? = some n) :
    v.copyPlace? dir source = v.location? (dir / n) := by
  rw [copyPlace?, hn, Option.bind_some]

theorem Disk.Fills.copyPlace?_eq {d : Disk} (h : Fills files v d) (dir source : Path) :
    d.copyPlace? dir source = v.copyPlace? dir source := by
  simp only [copyPlace?, h.location?_eq]

/-- The copy of one of the headers goes to the location. -/
def Disk.GetsCopy (d : Disk) (dir : Path) (sources : List Path) (l : Location) : Prop :=
  ∃ source ∈ sources, d.copyPlace? dir source = some l

instance (d : Disk) (dir : Path) (sources : List Path) (l : Location) :
    Decidable (d.GetsCopy dir sources l) :=
  inferInstanceAs (Decidable (∃ source ∈ sources, _))

/-- The copy of `source` goes to the location, and no copy of a header behind it does. -/
structure LastCopy (v : Disk) (dir : Path) (sources : List Path) (l : Location) (before : List Path)
    (source : Path) (after : List Path) : Prop where
  sources : sources = before ++ source :: after
  place : v.copyPlace? dir source = some l
  last : ¬ v.GetsCopy dir after l

theorem Disk.GetsCopy.exists_lastCopy (h : v.GetsCopy dir sources l) :
    ∃ before last after, LastCopy v dir sources l before last after := by
  induction sources with
  | nil =>
    obtain ⟨_, hmem, -⟩ := h
    cases hmem
  | cons first rest ih =>
    by_cases hrest : v.GetsCopy dir rest l
    · obtain ⟨before, last, after, hlast⟩ := ih hrest
      exact ⟨first :: before, last, after, by rw [hlast.sources, List.cons_append], hlast.place,
        hlast.last⟩
    · obtain ⟨source, hsource, hplace⟩ := h
      obtain rfl := (List.mem_cons.mp hsource).resolve_right fun hs => hrest ⟨source, hs, hplace⟩
      exact ⟨[], source, rest, rfl, hplace, hrest⟩

theorem CopyIn.getsCopy (h : CopyIn dir sources p) (hl : v.location? p = some l) :
    v.GetsCopy dir sources l := by
  obtain ⟨source, hsource, n, hn, rfl⟩ := h
  exact ⟨source, hsource, (Disk.copyPlace?_eq hn).trans hl⟩

theorem Action.preserves_writeText (text : Text) (hp : ∀ l, v.location? p = some l → files l) :
    Stage.Preserves (Disk.Fills files v) (writeText p text) := by
  intro s hs
  rw [writeText, start_change]
  cases h : s.disk.write p (.text text) with
  | error cause => exact hs
  | ok d => exact hs.trans ((Disk.write_fills h).mono fun l hl => hp l (hs.location?_eq p ▸ hl))

theorem Action.preserves_copyFile (source : Path) (hp : ∀ l, v.location? p = some l → files l) :
    Stage.Preserves (Disk.Fills files v) (copyFile source p) := by
  intro s hs
  rw [copyFile, start_change]
  cases h : s.disk.copy source p with
  | error cause => exact hs
  | ok d => exact hs.trans ((Disk.copy_fills h).mono fun l hl => hp l (hs.location?_eq p ▸ hl))

theorem Action.preserves_updateInPlace {α : Type} (transform : Text → Text × α)
    (hp : ∀ l, v.location? p = some l → files l) :
    Stage.Preserves (Disk.Fills files v) (updateInPlace p transform) := by
  refine (reads_readText p).preserves.bind fun before => ?_
  dsimp only
  split
  · exact (Stage.Reads.pure _).preserves
  · exact (preserves_writeText _ hp).bind fun _ => (Stage.Reads.pure _).preserves

theorem preserves_copyHeaders (h : ∀ source ∈ sources, ∀ l, v.copyPlace? dir source = some l → files l) :
    Stage.Preserves (Disk.Fills files v) (copyHeaders dir sources) := by
  induction sources with
  | nil => exact (Stage.Reads.pure _).preserves
  | cons source rest ih =>
    obtain ⟨hsource, hrest⟩ := List.forall_mem_cons.mp h
    rw [copyHeaders]
    split
    · exact ih hrest
    · rename_i n hn
      refine (Action.preserves_copyFile source fun l hl => hsource l ?_).bind fun _ =>
        (ih hrest).bind fun _ => (Stage.Reads.pure _).preserves
      rw [Disk.copyPlace?_eq hn, hl]

theorem fills_of_copyHeaders {result : Except Failure (List Path)}
    (h : Stage.start (copyHeaders dir sources) s = (result, u)) :
    Disk.Fills (s.disk.GetsCopy dir sources) s.disk u.disk := by
  have hfills : Stage.Preserves (Disk.Fills (s.disk.GetsCopy dir sources) s.disk)
      (copyHeaders dir sources) :=
    preserves_copyHeaders fun source hsource l hl => ⟨source, hsource, hl⟩
  have hu := hfills s (.refl _ _)
  rwa [h] at hu

theorem preserves_annotateFiles (h : ∀ p ∈ paths, ∀ l, v.location? p = some l → files l) :
    Stage.Preserves (Disk.Fills files v) (annotateFiles a paths) := by
  induction paths with
  | nil => exact (Stage.Reads.pure _).preserves
  | cons p rest ih =>
    obtain ⟨hp, hrest⟩ := List.forall_mem_cons.mp h
    rw [annotateFiles]
    refine (Action.preserves_updateInPlace _ hp).bind fun result => ?_
    obtain ⟨updated, prefixed⟩ := result
    dsimp only
    split
    · exact (Stage.Reads.log _).preserves.bind fun _ =>
        (ih hrest).bind fun _ => (Stage.Reads.pure _).preserves
    · exact (ih hrest).bind fun _ => (Stage.Reads.pure _).preserves

theorem Action.get?_of_updateInPlace {α : Type} {transform : Text → Text × α} {result : Bool × α}
    (hl : s.disk.location? p = some l)
    (hf : s.disk.tree.get? l = some (.file content executable))
    (h : Stage.start (updateInPlace p transform) s = (.ok result, t)) :
    ∃ text, content = .text text ∧
      t.disk.tree.get? l = some (.file (.text (transform text).1) executable) := by
  unfold updateInPlace at h
  obtain ⟨text, s₁, hstart, h⟩ := Stage.start_bind_eq_ok.mp h
  obtain ⟨hread, rfl⟩ := Action.start_readText_eq_ok.mp hstart
  obtain rfl := Disk.content_of_readText hl hf hread
  refine ⟨text, rfl, ?_⟩
  dsimp only at h
  split at h
  · rename_i hsame
    obtain ⟨-, rfl⟩ := Prod.mk.inj h
    rw [hsame]
    exact hf
  · obtain ⟨_, s₂, hwrite, h⟩ := Stage.start_bind_eq_ok.mp h
    obtain ⟨-, rfl⟩ := Prod.mk.inj h
    exact Disk.get?_of_write_file hl hf (start_writeText_eq_ok hwrite)

theorem annotateFiles_cons_eq_ok {rest : List Path}
    (h : Stage.start (annotateFiles a (p :: rest)) s = (.ok changed, u)) :
    ∃ result t t' changed', Stage.start (Action.updateInPlace p fun text =>
        ((a.annotate text).text, (a.annotate text).prefixed)) s = (.ok result, t) ∧
      t'.disk = t.disk ∧ Stage.start (annotateFiles a rest) t' = (.ok changed', u) := by
  rw [annotateFiles] at h
  obtain ⟨result, t, hupdate, h⟩ := Stage.start_bind_eq_ok.mp h
  obtain ⟨updated, prefixed⟩ := result
  dsimp only at h
  split at h
  · obtain ⟨_, t', hlog, h⟩ := Stage.start_bind_eq_ok.mp h
    rw [Stage.start_log] at hlog
    obtain ⟨-, rfl⟩ := Prod.mk.inj hlog
    obtain ⟨changed', u', hrest, h⟩ := Stage.start_bind_eq_ok.mp h
    obtain ⟨-, rfl⟩ := Prod.mk.inj h
    exact ⟨_, t, _, changed', hupdate, by rfl, hrest⟩
  · obtain ⟨changed', u', hrest, h⟩ := Stage.start_bind_eq_ok.mp h
    obtain ⟨-, rfl⟩ := Prod.mk.inj h
    exact ⟨_, t, t, changed', hupdate, rfl, hrest⟩

theorem get?_of_annotateFiles (hf : s.disk.tree.get? l = some (.file content executable))
    (h : Stage.start (annotateFiles a paths) s = (.ok changed, u)) :
    (∀ p ∈ paths, s.disk.location? p ≠ some l) ∧
        u.disk.tree.get? l = some (.file content executable) ∨
      ∃ text k, content = .text text ∧ u.disk.tree.get? l =
        some (.file (.text ((fun text => (a.annotate text).text)^[k + 1] text)) executable) := by
  -- the content is any, as the file changes with each path that leads to it
  induction paths generalizing s content changed with
  | nil =>
    obtain ⟨-, rfl⟩ := Prod.mk.inj h
    exact .inl ⟨nofun, hf⟩
  | cons p rest ih =>
    obtain ⟨result, t, t', changed', hupdate, ht, hrest⟩ := annotateFiles_cons_eq_ok h
    have hfills := Action.preserves_updateInPlace (v := s.disk) (p := p)
      (fun text => ((a.annotate text).text, (a.annotate text).prefixed)) (fun _ => id) s (.refl _ _)
    rw [hupdate] at hfills
    by_cases hp : s.disk.location? p = some l
    · obtain ⟨text, rfl, hnew⟩ := Action.get?_of_updateInPlace hp hf hupdate
      rw [← ht] at hnew
      obtain ⟨-, hend⟩ | ⟨text', k, htext, hend⟩ := ih hnew hrest
      · exact .inr ⟨text, 0, rfl, hend⟩
      · obtain rfl := Content.text.inj htext
        exact .inr ⟨text, k + 1, rfl, hend⟩
    · have hsame : t'.disk.tree.get? l = some (.file content executable) := by
        rw [ht, hfills.tree.get?_eq hp, hf]
      refine (ih hsame hrest).imp_left fun ⟨hnone, hend⟩ => ⟨List.forall_mem_cons.mpr ⟨hp, ?_⟩, hend⟩
      intro q hq
      rw [← hfills.location?_eq q, ← ht]
      exact hnone q hq

theorem copyHeaders_append (dir : Path) (before after : List Path) :
    copyHeaders dir (before ++ after) = (do
      let first ← copyHeaders dir before
      let second ← copyHeaders dir after
      return first ++ second) := by
  induction before with
  | nil => simp [copyHeaders]
  | cons source rest ih =>
    rw [List.cons_append, copyHeaders, copyHeaders, ih]
    split <;> simp

theorem copyHeaders_split {n : String} (hn : source.fileName? = some n)
    (h : Stage.start (copyHeaders dir (before ++ source :: after)) s = (.ok copies, u)) :
    ∃ first second s₁ s₂, Stage.start (copyHeaders dir before) s = (.ok first, s₁) ∧
      Stage.start (Action.copyFile source (dir / n)) s₁ = (.ok (), s₂) ∧
      Stage.start (copyHeaders dir after) s₂ = (.ok second, u) ∧
      copies = first ++ dir / n :: second := by
  rw [copyHeaders_append] at h
  obtain ⟨first, s₁, hfirst, h⟩ := Stage.start_bind_eq_ok.mp h
  obtain ⟨rest, s₃, hrest, h⟩ := Stage.start_bind_eq_ok.mp h
  obtain ⟨hcopies, rfl⟩ := Prod.mk.inj h
  obtain rfl := Except.ok.inj hcopies
  rw [copyHeaders, hn] at hrest
  dsimp only at hrest
  obtain ⟨_, s₂, hcopy, hrest⟩ := Stage.start_bind_eq_ok.mp hrest
  obtain ⟨second, s₄, hsecond, hrest⟩ := Stage.start_bind_eq_ok.mp hrest
  obtain ⟨hlist, rfl⟩ := Prod.mk.inj hrest
  obtain rfl := Except.ok.inj hlist
  exact ⟨first, second, s₁, s₂, hfirst, hcopy, hsecond, rfl⟩

theorem Action.start_copyFile_eq_ok {target : Path}
    (h : Stage.start (copyFile source target) s = (.ok (), t)) :
    s.disk.copy source target = .ok t.disk := by
  rw [copyFile, start_change] at h
  split at h
  · rename_i d hd
    obtain ⟨-, rfl⟩ := Prod.mk.inj h
    exact hd
  · cases h

/-- The last header that is copied to a location leaves its content there, as it is at that time. If
it is copied onto itself, nothing is left. -/
theorem get?_of_copyHeaders (hlast : LastCopy s.disk dir sources l before source after)
    (hplain : ∀ device, s.disk.tree.get? l ≠ some (.device device))
    (h : Stage.start (copyHeaders dir sources) s = (.ok copies, u)) :
    ∃ d k content executable,
      Disk.Fills (s.disk.GetsCopy dir before) s.disk d ∧
      d.resolve source.text true = .ok (.taken k (.file content executable)) ∧
      u.disk.tree.get? l = some (.file (if k = l then .text [] else content) executable) ∧
      ∃ copy ∈ copies, s.disk.location? copy = some l := by
  obtain ⟨rfl, hplace, hlast⟩ := hlast
  obtain ⟨n, hn, hl⟩ := Option.bind_eq_some_iff.mp hplace
  obtain ⟨first, second, s₁, s₂, hfirst, hcopy, hsecond, rfl⟩ := copyHeaders_split hn h
  -- copies before this one can go over the header itself, so it is read on the disk that they leave
  have hbefore := fills_of_copyHeaders hfirst
  have hcopy := Action.start_copyFile_eq_ok hcopy
  have hat : s₁.disk.location? (dir / n) = some l := (hbefore.location?_eq _).trans hl
  obtain ⟨k, content, executable, hsource, hnew⟩ :=
    Disk.copy_eq_ok_of_location? hat (hbefore.tree.not_device hplain) hcopy
  -- and no copy after this one goes to the location, wherever that is on the disk then
  have hafter := fills_of_copyHeaders hsecond
  refine ⟨s₁.disk, k, content, executable, hbefore, hsource, ?_, dir / n, by simp, hl⟩
  rw [hafter.tree.get?_eq, hnew]
  rintro ⟨later, he, hlater⟩
  rw [(Disk.copy_fills hcopy).copyPlace?_eq, hbefore.copyPlace?_eq] at hlater
  exact hlast ⟨later, he, hlater⟩

end GrammarHeaders
