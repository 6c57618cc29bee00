import GrammarHeaders.Proofs.Repetition
import GrammarHeaders.Proofs.RootStage

namespace GrammarHeaders

variable {o : Options} {s t u v x y : Session} {d d' : Disk} {root : RootLibrary} {outcome : Outcome}
  {headers : List Path} {dirs files : Location → Prop} {l : Location}

namespace Disk

/-- A disk that follows on another one: its directories are there, and at the given locations there
is the same or a file where a file could be written. -/
structure Follows (targets : Location → Prop) (d d' : Disk) : Prop where
  regular : d.Regular
  regular' : d'.Regular
  cwd : d'.cwd = d.cwd
  hasDir : ∀ l, d.tree.HasDir l → d'.tree.HasDir l
  kept : ∀ l, targets l → d'.tree.get? l = d.tree.get? l ∨
    (d.tree.get? l = none ∨ d.tree.HasFile l) ∧ d'.tree.HasFile l

variable {targets : Location → Prop} {source target : Path} {c : Disk} {executable : Bool} {device : Device}

theorem Follows.resolve {followLast : Bool} {place : Place} (h : d.Follows targets d')
    (hr : d.resolve target.text followLast = .ok place) :
    d'.resolve target.text followLast = .ok (placeAt d'.tree (target.destination d.cwd)) :=
  resolve_of_hasDir followLast h.regular h.regular' h.cwd h.hasDir hr

theorem Follows.writable_file (h : d.Follows targets d') (ht : targets (target.destination d.cwd))
    (hw : d.writable target = .ok (.file l executable)) :
    l = target.destination d.cwd ∧ l ≠ [] ∧ ∃ executable', d'.writable target = .ok (.file l executable') := by
  obtain ⟨rfl, hin, hfree⟩ := Disk.writable_file h.regular hw
  obtain ⟨place, hplace⟩ := exists_of_writable hw
  refine ⟨rfl, hin.ne_nil, ?_⟩
  rw [writable, h.resolve hplace, placeAt]
  have hfree' : d'.tree.get? (target.destination d.cwd) = none ∨
      d'.tree.HasFile (target.destination d.cwd) := by
    rcases h.kept _ ht with hk | ⟨-, hk⟩
    · rwa [Tree.HasFile, hk]
    · exact .inr hk
  rcases hfree' with hf | ⟨content, executable', hf⟩
  · exact ⟨false, by simp only [hf]⟩
  · exact ⟨executable', by simp only [hf]⟩

theorem Follows.writable_device (h : d.Follows targets d') (ht : targets (target.destination d.cwd))
    (hw : d.writable target = .ok (.device device)) :
    d'.writable target = .ok (.device device) ∧
      d'.tree.get? (target.destination d.cwd) = d.tree.get? (target.destination d.cwd) := by
  obtain ⟨place, hplace⟩ := exists_of_writable hw
  have hdevice := device_of_writable h.regular hw
  have hsame : d'.tree.get? (target.destination d.cwd) = d.tree.get? (target.destination d.cwd) := by
    refine (h.kept _ ht).resolve_right fun hk => ?_
    rcases hk.1 with hk | ⟨_, _, hk⟩
    · rw [hdevice] at hk
      cases hk
    · rw [hdevice] at hk
      cases hk
  refine ⟨?_, hsame⟩
  rw [writable, h.resolve hplace, placeAt]
  simp only [hsame, hdevice]

/-- A copy that has been made can be made again on a disk that follows. The disks that it leaves are
the same at the target, and the second follows on the first. -/
theorem Follows.copy (h : d.Follows targets d') (ht : targets (target.destination d.cwd))
    (hsource : d'.tree.get? (source.destination d.cwd) = d.tree.get? (source.destination d.cwd))
    (hc : d.copy source target = .ok c) :
    ∃ c', d'.copy source target = .ok c' ∧
      c'.tree.get? (target.destination d.cwd) = c.tree.get? (target.destination d.cwd) := by
  obtain ⟨l, content, executable, hr, hw⟩ := copy_eq_ok hc
  obtain ⟨rfl, hfile⟩ := resolve_taken h.regular hr
  have hentry : d'.entryAt source true = .ok (source.destination d.cwd, .file content executable) := by
    rw [entryAt_eq_ok, h.resolve hr, placeAt]
    simp only [hsource, hfile]
  rw [Disk.copy, hentry]
  rcases hw with ⟨l', executable', hw, rfl⟩ | ⟨device, hw, hdev, hsame⟩
  · obtain ⟨rfl, hroot, executable'', hw'⟩ := h.writable_file ht hw
    refine ⟨_, by simp only [hw']; rfl, ?_⟩
    rw [Tree.get?_set _ _ _ _ _ hroot, Tree.get?_set _ _ _ _ _ hroot, if_pos rfl, if_pos rfl]
  · obtain ⟨hw', hstay⟩ := h.writable_device ht hw
    refine ⟨d', ?_, hsame ▸ hstay⟩
    simp only [hw']
    unfold writeDevice at hdev ⊢
    split at hdev
    · cases hdev
    · rename_i hfull
      rw [if_neg hfull]

theorem Follows.of_grows {c' : Disk} {k : Location} (h : d.Follows targets d')
    (hg : Grows (fun _ => False) (· = k) d c) (hg' : Grows (fun _ => False) (· = k) d' c')
    (hk : c'.tree.get? k = c.tree.get? k) :
    c.Follows targets c' ∧ ∀ l, d'.tree.get? l = d.tree.get? l ∨ l = k → c'.tree.get? l = c.tree.get? l := by
  have hother : ∀ l, l ≠ k → c.tree.get? l = d.tree.get? l ∧ c'.tree.get? l = d'.tree.get? l :=
    fun l hl => ⟨hg.tree.get?_eq id hl, hg'.tree.get?_eq id hl⟩
  refine ⟨⟨hg.regular h.regular, hg'.regular h.regular', ?_, fun l hl => ?_, fun l hl => ?_⟩, fun l hl => ?_⟩
  · exact hg'.cwd.trans (h.cwd.trans hg.cwd.symm)
  · exact hg'.tree.hasDir (h.hasDir l ((hg.tree.hasDir_iff id).mp hl))
  · by_cases he : l = k
    · exact .inl (he ▸ hk)
    · rw [Tree.HasFile, Tree.HasFile, (hother l he).1, (hother l he).2]
      exact h.kept l hl
  · by_cases he : l = k
    · exact he ▸ hk
    · rw [(hother l he).1, (hother l he).2, hl.resolve_right he]

end Disk

/-- A file that has been copied can be copied again on a disk that follows, and this changes nothing
but the copy, which is the same there. -/
theorem start_copyFile_again {targets : Location → Prop} {source target : Path}
    (h : x.disk.Follows targets y.disk) (ht : targets (target.destination x.disk.cwd))
    (hsource : y.disk.tree.get? (source.destination x.disk.cwd) =
      x.disk.tree.get? (source.destination x.disk.cwd))
    (hcopy : Stage.start (Action.copyFile source target) x = (.ok (), t)) :
    ∃ w, Stage.start (Action.copyFile source target) y = (.ok (), w) ∧ t.disk.cwd = x.disk.cwd ∧
      t.disk.Follows targets w.disk ∧
      (∀ l, (y.disk.tree.get? l = x.disk.tree.get? l ∨ l = target.destination x.disk.cwd) →
        w.disk.tree.get? l = t.disk.tree.get? l) ∧
      Disk.Grows (fun _ => False) (· = target.destination x.disk.cwd) y.disk w.disk := by
  rw [Action.copyFile, Action.start_change] at hcopy
  split at hcopy
  · rename_i c hc
    obtain ⟨-, rfl⟩ := Prod.mk.inj hcopy
    obtain ⟨c', hc', hsame⟩ := h.copy ht hsource hc
    have hg := Disk.copy_grows h.regular hc
    have hg' := Disk.copy_grows h.regular' hc'
    rw [h.cwd] at hg'
    obtain ⟨hfollows, hkept⟩ := h.of_grows hg hg' hsame
    refine ⟨{ y with disk := c' }, ?_, hg.cwd, hfollows, hkept, hg'⟩
    rw [Action.copyFile, Action.start_change, hc']
  · cases hcopy

/-- Headers that have been copied can be copied again on a disk that follows, and the copies are the
same there. -/
theorem start_copyHeaders_again {targets : Location → Prop} {dir : Path} {sources copies : List Path}
    (h : x.disk.Follows targets y.disk)
    (ht : ∀ n, IsName n → targets (dir.destination x.disk.cwd ++ [n]))
    (hsources : ∀ source ∈ sources, y.disk.tree.get? (source.destination x.disk.cwd) =
      x.disk.tree.get? (source.destination x.disk.cwd))
    (hrun : Stage.start (copyHeaders dir sources) x = (.ok copies, t)) :
    ∃ w, Stage.start (copyHeaders dir sources) y = (.ok copies, w) ∧ t.disk.Follows targets w.disk ∧
      (∀ l, (y.disk.tree.get? l = x.disk.tree.get? l ∨ ∃ copy ∈ copies, l = copy.destination x.disk.cwd) →
        w.disk.tree.get? l = t.disk.tree.get? l) ∧
      Disk.Grows (fun _ => False) (fun l => ∃ copy ∈ copies, l = copy.destination x.disk.cwd)
        y.disk w.disk := by
  induction sources generalizing x y copies with
  | nil =>
    obtain ⟨hcopies, rfl⟩ := Prod.mk.inj hrun
    obtain rfl := Except.ok.inj hcopies
    exact ⟨y, rfl, h, fun l hl => hl.resolve_right nofun, .refl _ _ _⟩
  | cons source rest ih =>
    obtain ⟨hsource, hrest⟩ := List.forall_mem_cons.mp hsources
    rw [copyHeaders] at hrun ⊢
    split at hrun
    · exact ih h ht hrest hrun
    · rename_i n hn
      have htarget := ht n (Path.isName_of_fileName? hn)
      rw [← Path.destination_div (Path.isName_of_fileName? hn)] at htarget
      obtain ⟨_, x₁, hcopy, hrun⟩ := Stage.start_bind_eq_ok.mp hrun
      obtain ⟨others, x₂, hothers, hrun⟩ := Stage.start_bind_eq_ok.mp hrun
      rw [Stage.start_pure] at hrun
      obtain ⟨hcopies, rfl⟩ := Prod.mk.inj hrun
      obtain rfl := Except.ok.inj hcopies
      obtain ⟨y₁, hcopy', hcwd, hfollows, hkept, hg⟩ := start_copyFile_again h htarget hsource hcopy
      rw [← hcwd] at ht hrest
      obtain ⟨w, hw, hfollows', hagree, hgrows⟩ :=
        ih hfollows ht (fun s hs => hkept _ (.inl (hrest s hs))) hothers
      rw [hcwd] at hagree hgrows
      refine ⟨w, ?_, hfollows', fun l hl => hagree l ?_, ?_⟩
      · rw [Stage.start_bind_of_ok hcopy', Stage.start_bind_of_ok hw, Stage.start_pure]
      · rcases hl with hl | ⟨copy, hmem, hl⟩
        · exact .inl (hkept l (.inl hl))
        · rcases List.mem_cons.mp hmem with rfl | hmem
          · exact .inl (hkept l (.inr hl))
          · exact .inr ⟨copy, hmem, hl⟩
      · refine (hg.mono (fun _ => id) fun l hl => ⟨_, List.mem_cons_self, hl⟩).trans
          (hgrows.mono (fun _ => id) ?_)
        rintro l ⟨copy, hmem, hl⟩
        exact ⟨copy, List.mem_cons_of_mem _ hmem, hl⟩

theorem start_annotateFiles_again {targets : Location → Prop} {a : Annotator} {dir : Path}
    {copies changed : List Path} (h : x.disk.Follows targets y.disk) (hdir : x.disk.isDir dir = true)
    (hcopies : ∀ copy ∈ copies, ∃ n, IsName n ∧ copy = dir / n)
    (hsame : ∀ copy ∈ copies, y.disk.tree.get? (copy.destination x.disk.cwd) =
      x.disk.tree.get? (copy.destination x.disk.cwd))
    (hrun : Stage.start (annotateFiles a copies) x = (.ok changed, t)) :
    ∃ w, Stage.start (annotateFiles a copies) y = (.ok changed, w) ∧
      (∀ copy ∈ copies, w.disk.tree.get? (copy.destination x.disk.cwd) =
        t.disk.tree.get? (copy.destination x.disk.cwd)) ∧
      Disk.Grows (fun _ => False) (fun l => ∃ copy ∈ copies, l = copy.destination x.disk.cwd)
        y.disk w.disk := by
  have hleads := ((Disk.isDir_iff h.regular).mp hdir).2
  have hagree : Disk.Agree x.disk.cwd (fun l => ∃ copy ∈ copies, l ∈ copy.entered x.disk.cwd)
      (fun _ => False) x.disk y.disk := by
    refine ⟨h.regular, h.regular', rfl, h.cwd, ?_, fun _ hf => hf.elim⟩
    rintro l ⟨copy, hc, hl⟩
    obtain ⟨n, hname, rfl⟩ := hcopies copy hc
    rw [Path.entered_div hname] at hl
    rcases List.mem_append.mp hl with hl | hl
    · have hl := hleads.entered l hl
      exact (h.hasDir l hl).trans hl.symm
    · rw [List.mem_singleton.mp hl, ← Path.destination_div hname]
      exact hsame _ hc
  obtain ⟨hresult, hfinal⟩ := matches_annotateFiles (A := fun l => ∃ copy ∈ copies, l ∈ copy.entered x.disk.cwd)
    (fun copy hc l hl => ⟨copy, hc, hl⟩) a x y hagree
  have hg := @grows_annotateFiles y.disk.cwd (fun _ => False) a copies y h.regular' rfl
  rw [hrun] at hresult hfinal
  rw [h.cwd] at hg
  refine ⟨(Stage.start (annotateFiles a copies) y).2, ?_, fun copy hc => ?_, hg⟩
  · exact Prod.ext (sameOutcome_eq_iff.mp hresult).symm rfl
  · obtain ⟨n, hname, rfl⟩ := hcopies copy hc
    refine hfinal.get? _ ⟨_, hc, ?_⟩
    rw [Path.entered_div hname, Path.destination_div hname]
    exact List.mem_append_right _ (List.mem_singleton.mpr rfl)

section Exported

variable {a : Annotator} {dir : Path} {sources copies changed : List Path}

theorem grows_copied_annotated (hs : x.disk.Regular)
    (hcopy : Stage.start (copyHeaders dir sources) x = (.ok copies, s))
    (hannotate : Stage.start (annotateFiles a copies) s = (.ok changed, t)) :
    Disk.Grows (fun _ => False) (RightIn (dir.destination x.disk.cwd)) x.disk t.disk := by
  have hgc := @grows_copyHeaders x.disk.cwd (fun _ => False) dir sources x hs rfl
  rw [hcopy] at hgc
  have hga := @grows_annotateFiles s.disk.cwd (fun _ => False) a copies s (hgc.regular hs) rfl
  rw [hannotate, hgc.cwd] at hga
  refine hgc.trans (hga.mono (fun _ => id) ?_)
  rintro l ⟨copy, hc, rfl⟩
  obtain ⟨n, hname, rfl⟩ := gives_copyHeaders _ _ _ _ _ hcopy copy hc
  exact ⟨n, hname, Path.destination_div hname dir _⟩

/-- Headers that have been copied and annotated come to the same on a disk that follows. If the
annotated copies are on that disk, it stays as it is. -/
theorem copied_annotated_again (hdir : x.disk.isDir dir = true)
    (hcopy : Stage.start (copyHeaders dir sources) x = (.ok copies, s))
    (hannotate : Stage.start (annotateFiles a copies) s = (.ok changed, t))
    (h : x.disk.Follows (RightIn (dir.destination x.disk.cwd)) y.disk)
    (hkept : ∀ l, RightIn (dir.destination x.disk.cwd) l → y.disk.tree.get? l = t.disk.tree.get? l)
    (hsources : ∀ source ∈ sources, y.disk.tree.get? (source.destination x.disk.cwd) =
      x.disk.tree.get? (source.destination x.disk.cwd)) :
    ∃ c w, Stage.start (copyHeaders dir sources) y = (.ok copies, c) ∧
      Stage.start (annotateFiles a copies) c = (.ok changed, w) ∧ w.disk = y.disk := by
  have hgc := @grows_copyHeaders x.disk.cwd (fun _ => False) dir sources x h.regular rfl
  rw [hcopy] at hgc
  have hcopies : ∀ copy ∈ copies, ∃ n, IsName n ∧ copy = dir / n := gives_copyHeaders _ _ _ _ _ hcopy
  obtain ⟨c, hc, hfollows, hagree, hgrows⟩ := start_copyHeaders_again h (fun n hn => ⟨n, hn, rfl⟩) hsources hcopy
  rw [← hgc.cwd] at hagree hgrows
  obtain ⟨w, hw, hsame, hgrows'⟩ := start_annotateFiles_again hfollows (hgc.isDir h.regular hdir) hcopies
    (fun copy hc => hagree _ (.inr ⟨copy, hc, rfl⟩)) hannotate
  -- only the copies are written, and each of them ends up as the first run has left it
  refine ⟨c, w, hc, hw, (hgrows.trans hgrows').eq_of_get?_eq h.regular' fun l => ?_⟩
  by_cases hl : ∃ copy ∈ copies, l = copy.destination s.disk.cwd
  · obtain ⟨copy, hcopy, rfl⟩ := hl
    obtain ⟨n, hname, rfl⟩ := hcopies copy hcopy
    refine (hsame _ hcopy).trans (hkept _ ⟨n, hname, ?_⟩).symm
    rw [hgc.cwd, Path.destination_div hname]
  · exact (hgrows.trans hgrows').tree.get?_eq id hl

end Exported

theorem start_exportRootHeaders_of_isDir {out : Path} (config : Config)
    (hdir : t.disk.isDir (out / root.name) = true) :
    ∃ e, e.disk = t.disk ∧ Stage.start (exportRootHeaders root out config) t =
      Stage.start (copyHeaders (out / root.name) root.headerFiles >>= fun copies =>
        annotateFiles config.rootAnnotator copies >>= fun _ => pure copies) e := by
  refine ⟨_, ?_, by rw [exportRootHeaders,
    Stage.start_bind_of_ok (Action.start_ensureModuleDir_of_isDir hdir),
    Stage.start_bind_of_ok (Stage.start_log _ t)]⟩
  rfl

/-- On a disk that has grown since the root headers were exported, but not where they are, exporting
them once more changes nothing. -/
theorem exportRootHeaders_again (hn : IsName root.name) (ht : t.disk.Regular)
    (h : Stage.start (exportRootHeaders root o.headersOut o.config) t = (.ok headers, u))
    (hgrow : Disk.Grows dirs files u.disk v.disk)
    (hkeep : ∀ l, RightIn (o.headersOut.destination t.disk.cwd ++ [root.name]) l → ¬ dirs l ∧ ¬ files l)
    (hsources : ∀ file ∈ root.headerFiles, t.disk.tree.HasFile (file.destination t.disk.cwd) ∧
      v.disk.tree.get? (file.destination t.disk.cwd) = t.disk.tree.get? (file.destination t.disk.cwd)) :
    ∃ w, Stage.start (exportRootHeaders root o.headersOut o.config) v = (.ok headers, w) ∧
      w.disk = v.disk := by
  obtain ⟨e, e', c, changed, hensure, he, hcopy, hannotate⟩ := start_exportRootHeaders_eq_ok h
  obtain ⟨-, hdir⟩ := Action.start_ensureModuleDir_eq_ok hn ht hensure
  have hge := @Action.grows_ensureModuleDir t.disk.cwd (fun _ => False) o.headersOut root.name t ht rfl
  rw [hensure, ← he] at hge
  rw [← he] at hdir
  have hre := hge.regular ht
  -- with its directory made, the first export is what `copied_annotated_again` repeats
  have hexport := grows_copied_annotated hre hcopy hannotate
  rw [← hge.cwd, ← Path.destination_div hn] at hkeep
  rw [← hge.cwd] at hsources
  have hkept : ∀ l, RightIn ((o.headersOut / root.name).destination e'.disk.cwd) l →
      v.disk.tree.get? l = u.disk.tree.get? l := fun l hl =>
    hgrow.tree.get?_eq (hkeep l hl).1 (hkeep l hl).2
  have hru := hexport.regular hre
  have hfollows : e'.disk.Follows (RightIn ((o.headersOut / root.name).destination e'.disk.cwd)) v.disk := by
    refine ⟨hre, hgrow.regular hru, hgrow.cwd.trans hexport.cwd, fun l hl => ?_, fun l hl => ?_⟩
    · exact hgrow.tree.hasDir (hexport.tree.hasDir hl)
    · rw [Tree.HasFile, Tree.HasFile, hkept l hl]
      exact hexport.tree.get?_eq_or_hasFile id
  have hsame : ∀ file ∈ root.headerFiles, v.disk.tree.get? (file.destination e'.disk.cwd) =
      e'.disk.tree.get? (file.destination e'.disk.cwd) := fun file hf => by
    obtain ⟨⟨content, executable, hfile⟩, hsame⟩ := hsources file hf
    exact hsame.trans (hfile.trans (hge.tree.get?_of_some id hfile).symm)
  obtain ⟨f, hf, hexported⟩ := start_exportRootHeaders_of_isDir o.config
    (hgrow.isDir hru (hexport.isDir hre hdir))
  rw [← hf] at hfollows hkept hsame
  obtain ⟨c', w, hcopy', hannotate', hw⟩ := copied_annotated_again hdir hcopy hannotate hfollows hkept hsame
  refine ⟨w, ?_, hw.trans hf⟩
  rw [hexported, Stage.start_bind_of_ok hcopy', Stage.start_bind_of_ok hannotate', Stage.start_pure]

/-- On a disk that has grown since the root stage, but neither where the root headers are nor by files
below the include directory, the root stage once more changes nothing. -/
theorem rootStage_again (hs : s.disk.Regular)
    (h : Stage.start (rootStage o Generator.none) s = (.ok (root, outcome, headers), u))
    (hgrow : Disk.Grows dirs files u.disk v.disk)
    (hkeep : ∀ l, RightIn (o.headersOut.destination s.disk.cwd ++ [root.name]) l → ¬ dirs l ∧ ¬ files l)
    (hinclude : ∀ l, RightIn (o.headersOut.destination s.disk.cwd ++ [root.name]) l ∨ files l →
      ¬ root.includeDir.destination s.disk.cwd <+: l) :
    ∃ w, Stage.start (rootStage o Generator.none) v = (.ok (root, outcome, headers), w) ∧
      w.disk = v.disk := by
  obtain ⟨hroot, hgrammars, rfl, t, ht, hexport⟩ := start_rootStage_eq_ok h
  have hn := isName_of_isIdentifierFragment hroot.isIdentifier
  have hall : Disk.Grows (fun _ => True)
      (fun l => RightIn (o.headersOut.destination s.disk.cwd ++ [root.name]) l ∨ files l) s.disk v.disk :=
    ((rootStage_grows hs h).1.mono (fun _ => id) fun _ => .inl).trans
      (hgrow.mono (fun _ _ => trivial) fun _ => .inr)
  have hv := hall.regular hs
  have hleads := ((Disk.isDir_iff hs).mp hroot.isDir_includeDir).2
  have hagree : Disk.Agree s.disk.cwd (· ∈ root.includeDir.entered s.disk.cwd)
      (· = root.includeDir.destination s.disk.cwd) s.disk v.disk := by
    refine ⟨hs, hv, rfl, hall.cwd, fun l hl => ?_, fun l hl => ?_⟩
    · have hl := hleads.entered l hl
      exact (hall.tree.hasDir hl).trans hl.symm
    · exact hall.tree.fileNames_eq fun k hk hp => absurd (hl ▸ hp) (hinclude k hk)
  have hdir := hall.isDir hs hroot.isDir
  have hroot' : RootDiscovered v.disk o.rootRepo o.config.layout root := by
    refine ⟨?_, hroot.isIdentifier, hroot.repo_eq, hroot.includeDir, hdir, ?_, ?_, hroot.headerFiles_ne_nil⟩
    · rw [hroot.name]
      exact (moduleNameOf_congr hs hv hall.cwd (hdir.trans hroot.isDir.symm)).symm
    · exact hall.isDir hs hroot.isDir_includeDir
    · rw [hroot.headerFiles, foundFiles, foundFiles, hagree.listFiles (fun _ => id) rfl]
  have hsources : ∀ file ∈ root.headerFiles, s.disk.tree.HasFile (file.destination s.disk.cwd) ∧
      v.disk.tree.get? (file.destination s.disk.cwd) = s.disk.tree.get? (file.destination s.disk.cwd) := by
    intro file hf
    rw [hroot.headerFiles] at hf
    obtain ⟨-, names, hnames, -, -, rfl, -⟩ := (mem_foundFiles hs).mp hf
    obtain ⟨-, content, executable, hfile⟩ := (Tree.mem_fileNames hs.tree).mp hnames
    rw [Path.destination_foldl fun n hn => hs.tree.isName_of_mem hfile hn]
    refine ⟨⟨content, executable, hfile⟩, ?_⟩
    rw [hfile]
    exact hall.tree.get?_of_some (fun hf => hinclude _ hf (List.prefix_append _ _)) hfile
  obtain ⟨t₀, hdiscover, ht₀⟩ := hroot'.start_discover
  obtain ⟨t', ht', hstart⟩ := start_rootStage hdir hgrammars hdiscover
  rw [← ht] at hkeep hsources
  rw [← ht₀, ← ht'] at hgrow hsources
  obtain ⟨w, hw, hwd⟩ := exportRootHeaders_again hn (ht ▸ hs) hexport hgrow hkeep hsources
  refine ⟨w, ?_, hwd.trans (ht'.trans ht₀)⟩
  rw [hstart, Stage.start_bind_of_ok hw]
  rfl

end GrammarHeaders
