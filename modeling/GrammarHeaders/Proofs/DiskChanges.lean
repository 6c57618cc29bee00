import GrammarHeaders.Proofs.Resolution

namespace GrammarHeaders

namespace Tree

theorem set_set (t : Tree) (l : Location) (e e' : Entry) (h : e.FitsAt l) (h' : e'.FitsAt l) :
    (t.set l e h).set l e' h' = t.set l e' h' := by
  have h : ∀ entries, replace l e' (replace l e entries) = replace l e' entries := by
    intro entries
    induction entries with
    | nil => simp [replace]
    | cons entry rest ih =>
      obtain ⟨k, old⟩ := entry
      by_cases hk : k = l
      · simp [replace, hk]
      · simp [replace, hk, ih]
  exact Tree.ext (h t.entries)

end Tree

namespace Disk

variable {d d' d₁ d₂ : Disk} {p : Path} {l : Location} {content content' : Content}
  {executable : Bool} {dirs files dirs' files' : Location → Prop} {n : String}

/-- The disk grows, and the current directory stays the same. -/
structure Grows (dirs files : Location → Prop) (d d' : Disk) : Prop where
  cwd : d'.cwd = d.cwd
  tree : Tree.Grows dirs files d.tree d'.tree

namespace Grows

theorem refl (dirs files : Location → Prop) (d : Disk) : Grows dirs files d d := ⟨rfl, .refl⟩

theorem trans (h : Grows dirs files d d₁) (h' : Grows dirs files d₁ d₂) : Grows dirs files d d₂ :=
  ⟨h'.cwd.trans h.cwd, h.tree.trans h'.tree⟩

theorem mono (h : Grows dirs files d d') (hd : ∀ l, dirs l → dirs' l) (hf : ∀ l, files l → files' l) :
    Grows dirs' files' d d' :=
  ⟨h.cwd, h.tree.mono hd hf⟩

theorem restrict (h : Grows dirs files d d') (hd : ∀ l, dirs l → d.tree.HasDir l ∨ dirs' l) :
    Grows dirs' files d d' :=
  ⟨h.cwd, h.tree.restrict hd⟩

theorem made (h : Grows dirs files d d') : Grows (fun l => dirs l ∧ d'.tree.HasDir l) files d d' :=
  ⟨h.cwd, h.tree.made⟩

theorem regular (h : Grows dirs files d d') (hd : d.Regular) : d'.Regular :=
  ⟨h.tree.regular hd.tree, h.cwd ▸ h.tree.hasDir hd.cwd⟩

theorem eq_of_get?_eq (h : Grows dirs files d d') (hd : d.Regular)
    (hget : ∀ l, d'.tree.get? l = d.tree.get? l) : d' = d := by
  have htree := h.tree.eq_of_get?_eq hd.tree hget
  have hcwd := h.cwd
  cases d
  cases d'
  simp_all

theorem leads (h : Grows dirs files d d') (hp : d.Leads p) : d'.Leads p :=
  ⟨hp.short, fun l hl => h.tree.hasDir (hp.entered l (h.cwd ▸ hl))⟩

theorem isDir (h : Grows dirs files d d') (hd : d.Regular) (hp : d.isDir p = true) :
    d'.isDir p = true := by
  obtain ⟨hf, hleads⟩ := (isDir_iff hd).mp hp
  exact (isDir_iff (h.regular hd)).mpr ⟨hf, h.leads hleads⟩

theorem isDir_eq (h : Grows (fun _ => False) files d d') (hd : d.Regular) : d'.isDir p = d.isDir p := by
  refine Bool.eq_iff_iff.mpr ⟨fun hp => ?_, h.isDir hd⟩
  obtain ⟨hf, hleads⟩ := (isDir_iff (h.regular hd)).mp hp
  refine (isDir_iff hd).mpr ⟨hf, hleads.short, fun l hl => ?_⟩
  exact (h.tree.hasDir_iff id).mp (hleads.entered l (h.cwd ▸ hl))

end Grows

theorem mem_steps {text n : String} (h : n ∈ steps text) : n ≠ "" ∧ '/' ∉ n.toList := by
  have hname : n ∈ (⟨text⟩ : Path).pieces ∧ n ≠ "" ∨ n = "." := by
    unfold steps at h
    dsimp only at h
    split at h
    · rcases List.mem_append.mp h with h | h
      · exact .inl (by simpa [Path.pieces] using List.mem_filter.mp h)
      · exact .inr (List.mem_singleton.mp h)
    · exact .inl (by simpa [Path.pieces] using List.mem_filter.mp h)
  rcases hname with ⟨hp, hne⟩ | rfl
  · exact ⟨hne, Path.no_separator_of_mem_pieces hp⟩
  · decide

/-- A location where something other than a directory can be is one in a directory. -/
def InDirectory (t : Tree) (l : Location) : Prop := ∃ parent n, l = parent ++ [n] ∧ t.HasDir parent ∧ IsName n

theorem inDirectory_of_get? (hd : d.tree.Regular) {e : Entry} (h : d.tree.get? l = some e)
    (he : e ≠ .directory) : InDirectory d.tree l := by
  rcases List.eq_nil_or_concat l with rfl | ⟨parent, n, rfl⟩
  · exact absurd (Option.some.inj h).symm he
  · rw [List.concat_eq_append] at h ⊢
    exact ⟨parent, n, rfl, hd.parent h, hd.name h⟩

theorem resolve_free {followLast : Bool} (hd : d.Regular)
    (h : d.resolve p.text followLast = .ok (.free l)) :
    l = p.destination d.cwd ∧ d.tree.get? l = none ∧ InDirectory d.tree l := by
  obtain ⟨hf, hshort, hcross, hplace⟩ := (resolve_eq_ok hd).mp h
  obtain ⟨rfl, hnone⟩ := placeAt_eq_free hplace.symm
  refine ⟨rfl, hnone, ?_⟩
  rcases hasDir_lead_or hd.tree (hd.hasDir_start _) hcross with hdir | ⟨parent, n, he, hp, hn, hne⟩
  · rw [moving_steps] at hdir
    exact absurd (hnone.symm.trans hdir) (by simp)
  · rw [moving_steps] at he
    obtain ⟨hempty, hsep⟩ := mem_steps (List.mem_of_getLast? hn)
    exact ⟨parent, n, he, hp, hempty, hne.1, hne.2, hsep⟩

theorem resolve_taken {followLast : Bool} {e : Entry} (hd : d.Regular)
    (h : d.resolve p.text followLast = .ok (.taken l e)) :
    l = p.destination d.cwd ∧ d.tree.get? l = some e := by
  obtain ⟨rfl, he⟩ := placeAt_eq_taken ((resolve_eq_ok hd).mp h).2.2.2.symm
  exact ⟨rfl, he⟩

theorem InDirectory.ne_nil {t : Tree} (h : InDirectory t l) : l ≠ [] := by
  obtain ⟨parent, n, rfl, -⟩ := h
  simp

theorem writable_cases {target : Target} (h : d.writable p = .ok target) :
    (∃ l, d.resolve p.text true = .ok (.free l) ∧ target = .file l false) ∨
    (∃ l content executable, d.resolve p.text true = .ok (.taken l (.file content executable)) ∧
      target = .file l executable) ∨
    ∃ l device, d.resolve p.text true = .ok (.taken l (.device device)) ∧ target = .device device := by
  unfold writable at h
  split at h
  · cases h
  · rename_i l hr
    exact .inl ⟨l, hr, (Except.ok.inj h).symm⟩
  · rename_i l content executable hr
    exact .inr (.inl ⟨l, content, executable, hr, (Except.ok.inj h).symm⟩)
  · rename_i l device hr
    exact .inr (.inr ⟨l, device, hr, (Except.ok.inj h).symm⟩)
  · cases h

theorem writable_file (hd : d.Regular) (h : d.writable p = .ok (.file l executable)) :
    l = p.destination d.cwd ∧ InDirectory d.tree l ∧ (d.tree.get? l = none ∨ d.tree.HasFile l) := by
  obtain ⟨k, hr, he⟩ | ⟨k, content, mode, hr, he⟩ | ⟨k, device, hr, he⟩ := writable_cases h
  · obtain ⟨rfl, -⟩ := Target.file.inj he
    obtain ⟨hl, hfree, hin⟩ := resolve_free hd hr
    exact ⟨hl, hin, .inl hfree⟩
  · obtain ⟨rfl, -⟩ := Target.file.inj he
    obtain ⟨hl, he⟩ := resolve_taken hd hr
    exact ⟨hl, inDirectory_of_get? hd.tree he (by simp), .inr ⟨_, _, he⟩⟩
  · cases he

theorem device_of_writable {device : Device} (hd : d.Regular)
    (h : d.writable p = .ok (.device device)) :
    d.tree.get? (p.destination d.cwd) = some (.device device) := by
  obtain ⟨_, _, he⟩ | ⟨_, _, _, _, he⟩ | ⟨l, _, hr, he⟩ := writable_cases h
  · cases he
  · cases he
  · obtain rfl := Target.device.inj he
    obtain ⟨rfl, hdevice⟩ := resolve_taken hd hr
    exact hdevice

theorem exists_of_writable {target : Target} (h : d.writable p = .ok target) :
    ∃ place, d.resolve p.text true = .ok place := by
  obtain ⟨_, hr, -⟩ | ⟨_, _, _, hr, -⟩ | ⟨_, _, hr, -⟩ := writable_cases h <;> exact ⟨_, hr⟩

theorem grows_set_file (hd : d.Regular) (h : d.writable p = .ok (.file l executable))
    (content : Content) (executable' : Bool) :
    Grows (fun _ => False) (· = p.destination d.cwd) d
      { d with tree := d.tree.set l (.file content executable') } := by
  obtain ⟨hl, ⟨parent, n, rfl, hp, hn⟩, hfree⟩ := writable_file hd h
  exact ⟨rfl, .write content executable' .refl hp hn hfree hl⟩

theorem resolve_set (hd : d.Regular) (h : d.writable p = .ok (.file l executable))
    (content : Content) (executable' : Bool) :
    ({ d with tree := d.tree.set l (.file content executable') } : Disk).resolve p.text true =
      .ok (.taken l (.file content executable')) := by
  have hg := grows_set_file hd h content executable'
  obtain ⟨hl, hin, -⟩ := writable_file hd h
  obtain ⟨place, hr⟩ := exists_of_writable h
  have hres := resolve_of_hasDir true hd (hg.regular hd) rfl (fun _ => hg.tree.hasDir) hr
  have hget := Tree.get?_set d.tree l l (.file content executable') (by simp) hin.ne_nil
  rw [if_pos rfl] at hget
  rw [hres, ← hl, placeAt]
  simp only [hget]

theorem writable_set (hd : d.Regular) (h : d.writable p = .ok (.file l executable))
    (content : Content) (executable' : Bool) :
    ({ d with tree := d.tree.set l (.file content executable') } : Disk).writable p =
      .ok (.file l executable') := by
  rw [writable, resolve_set hd h]

theorem write_of_file (h : d.writable p = .ok (.file l executable)) :
    d.write p content = .ok { d with tree := d.tree.set l (.file content executable) } := by
  rw [write, h]

theorem write_eq_ok (h : d.write p content = .ok d') :
    (∃ l executable, d.writable p = .ok (.file l executable) ∧
      d' = { d with tree := d.tree.set l (.file content executable) }) ∨
    (∃ device, d.writable p = .ok (.device device) ∧ d.writeDevice device content = .ok d' ∧ d' = d) := by
  unfold write at h
  split at h
  · cases h
  · rename_i device hw
    refine .inr ⟨device, hw, h, ?_⟩
    unfold writeDevice at h
    split at h
    · cases h
    · exact (Except.ok.inj h).symm
  · rename_i l executable hw
    exact .inl ⟨l, executable, hw, (Except.ok.inj h).symm⟩

theorem write_grows (hd : d.Regular) (h : d.write p content = .ok d') :
    Grows (fun _ => False) (· = p.destination d.cwd) d d' := by
  rcases write_eq_ok h with ⟨l, executable, hw, rfl⟩ | ⟨device, -, -, rfl⟩
  · exact grows_set_file hd hw content executable
  · exact .refl _ _ _

theorem write_write (hd : d.Regular) (h₁ : d.write p content = .ok d₁)
    (h₂ : d₁.write p content' = .ok d₂) : d₂.write p content = .ok d₁ := by
  rcases write_eq_ok h₁ with ⟨l, executable, hw, rfl⟩ | ⟨device, hw, hdev, rfl⟩
  · have hw₁ := writable_set hd hw content executable
    have hd₁ := (grows_set_file hd hw content executable).regular hd
    rw [write_of_file hw₁] at h₂
    obtain rfl := Except.ok.inj h₂
    rw [write_of_file (writable_set hd₁ hw₁ content' executable)]
    simp only [Tree.set_set]
  · have h₂' : d₂ = d₁ := by
      rcases write_eq_ok h₂ with ⟨l, executable, hw', -⟩ | ⟨-, -, -, he⟩
      · rw [hw] at hw'; cases hw'
      · exact he
    rw [h₂']
    exact h₁

theorem readText_of_write {t : Text} (hd : d.Regular) (h : d.write p (.text t) = .ok d') :
    d'.readText p = .ok t ∨ d' = d := by
  rcases write_eq_ok h with ⟨l, executable, hw, rfl⟩ | ⟨device, -, -, rfl⟩
  · refine .inl ?_
    rw [readText, readContent, entryAt, resolve_set hd hw]
  · exact .inr rfl

theorem write_again (hd : d.Regular) (h : d.write p content = .ok d₁) :
    d₁.write p content = .ok d₁ := by
  rcases write_eq_ok h with ⟨l, executable, hw, rfl⟩ | ⟨device, hw, hdev, rfl⟩
  · rw [write_of_file (writable_set hd hw content executable)]
    simp only [Tree.set_set]
  · exact h

theorem copy_eq_ok {source target : Path} (h : d.copy source target = .ok d') :
    ∃ l content executable, d.resolve source.text true = .ok (.taken l (.file content executable)) ∧
      ((∃ l' executable', d.writable target = .ok (.file l' executable') ∧
        d' = { d with tree := d.tree.set l' (.file (if l = l' then .text [] else content) executable) }) ∨
      (∃ device, d.writable target = .ok (.device device) ∧ d.writeDevice device content = .ok d' ∧
        d' = d)) := by
  unfold copy entryAt at h
  cases hr : d.resolve source.text true with
  | error cause => rw [hr] at h; cases h
  | ok place =>
    rw [hr] at h
    cases place with
    | free l => cases h
    | taken l e =>
      cases e with
      | directory | link target | device device => cases h
      | file content executable =>
        refine ⟨l, content, executable, rfl, ?_⟩
        dsimp only at h
        cases hw : d.writable target with
        | error cause => rw [hw] at h; cases h
        | ok w =>
          rw [hw] at h
          cases w with
          | file l' executable' =>
            exact .inl ⟨l', executable', rfl, (Except.ok.inj h).symm⟩
          | device device =>
            refine .inr ⟨device, rfl, h, ?_⟩
            dsimp only at h
            unfold writeDevice at h
            split at h
            · cases h
            · exact (Except.ok.inj h).symm

theorem copy_grows {source target : Path} (hd : d.Regular) (h : d.copy source target = .ok d') :
    Grows (fun _ => False) (· = target.destination d.cwd) d d' := by
  obtain ⟨l, content, executable, -, h⟩ := copy_eq_ok h
  rcases h with ⟨l', executable', hw, rfl⟩ | ⟨device, -, -, rfl⟩
  · exact grows_set_file hd hw _ _
  · exact .refl _ _ _

/-- There is a directory at the end of a path. Separators behind it are left away when a directory is
made, and so the path itself can be too long. -/
structure Made (d : Disk) (p : Path) : Prop where
  leads : d.Leads p
  isDir : dropEndSlashes p.text = p.text → d.isDir p = true

theorem made_of_isDir (hd : d.Regular) (h : d.isDir p = true) : d.Made p :=
  ⟨((isDir_iff hd).mp h).2, fun _ => h⟩

theorem makeDir_eq_ok (hd : d.Regular) (h : d.makeDir p = .ok d') :
    Grows (· ∈ p.entered d.cwd) (fun _ => False) d d' ∧ d'.Made p := by
  obtain ⟨htrail, hstart⟩ := Path.dropEndSlashes_eq d.cwd p.text
  have hent : (⟨dropEndSlashes p.text⟩ : Path).entered d.cwd = p.entered d.cwd := by
    rw [Path.entered, Path.entered, htrail, hstart]
  have hdest : (⟨dropEndSlashes p.text⟩ : Path).destination d.cwd = p.destination d.cwd := by
    rw [Path.destination, Path.destination, htrail, hstart]
  unfold makeDir at h
  split at h
  · cases h
  · cases h
  · rename_i l hr
    obtain rfl := Except.ok.inj h
    obtain ⟨hl, hfree, hin⟩ := resolve_free (p := ⟨dropEndSlashes p.text⟩) hd hr
    obtain ⟨hf, hshort, hcross, -⟩ := (resolve_eq_ok (p := ⟨dropEndSlashes p.text⟩) hd).mp hr
    rw [← forall_isShort_moving, moving_steps] at hshort
    have hentered : ∀ k ∈ p.entered d.cwd, d.tree.HasDir k ∨ k = l := by
      intro k hk
      rw [← hent, Path.entered, ← moving_steps] at hk
      refine (mem_crossed_or_eq_lead hk).imp (hcross k) fun he => ?_
      rw [he, hl, moving_steps, Path.destination]
    have hmem : l ∈ p.entered d.cwd := by
      by_contra hnot
      have hdirs : ∀ k ∈ p.entered d.cwd, d.tree.HasDir k := fun k hk =>
        (hentered k hk).resolve_right fun he => hnot (he ▸ hk)
      have hdir := hasDir_lead hd.tree (hd.hasDir_start p.text) hdirs
      rw [hl, hdest, Path.destination] at hfree
      exact absurd (hfree.symm.trans hdir) (by simp)
    have hg : Grows (· ∈ p.entered d.cwd) (fun _ => False) d { d with tree := d.tree.set l .directory } := by
      obtain ⟨parent, n, rfl, hp, hn⟩ := hin
      exact ⟨rfl, .mkdir .refl hp hn hfree hmem⟩
    have hleads : Leads { d with tree := d.tree.set l .directory } p := by
      refine ⟨htrail ▸ hshort, fun k hk => ?_⟩
      rcases hentered k hk with hk | rfl
      · exact hg.tree.hasDir hk
      · rw [Tree.HasDir, Tree.get?_set _ _ _ _ _ hin.ne_nil, if_pos rfl]
    refine ⟨hg, hleads, fun hp => (isDir_iff (hg.regular hd)).mpr ⟨?_, hleads⟩⟩
    rw [← hp]
    exact hf

/-- Create a directory, or be content with one that is there. -/
def makeOrKeep (d : Disk) (p : Path) : Except Cause Unit × Disk :=
  match d.makeDir p with
  | .ok d => (.ok (), d)
  | .error cause => d.unlessPresent p cause

theorem makeDirs_of_notFound {parents : List Path} (hp : ¬ (p.text = "" ∨ p.parent? = none))
    (h : d.makeDir p = .error .notFound) :
    d.makeDirs (p :: parents) = match d.makeDirs parents with
      | (.error cause, d) => (.error cause, d)
      | (.ok (), d) => d.makeOrKeep p := by
  rw [makeDirs, if_neg hp, h]
  rfl

theorem makeDirs_of_ne_notFound {parents : List Path} (hp : ¬ (p.text = "" ∨ p.parent? = none))
    (h : d.makeDir p ≠ .error .notFound) : d.makeDirs (p :: parents) = d.makeOrKeep p := by
  rw [makeDirs, if_neg hp, makeOrKeep]
  cases hm : d.makeDir p with
  | ok d₁ => rfl
  | error cause =>
    cases cause <;> first | exact absurd hm h | rfl

theorem unlessPresent_eq {cause : Cause} {result : Except Cause Unit}
    (h : d.unlessPresent p cause = (result, d')) :
    d' = d ∧ (result = .ok () → d.isDir p = true) := by
  unfold unlessPresent at h
  split at h
  · rename_i hc
    obtain ⟨rfl, rfl⟩ := Prod.mk.inj h
    exact ⟨rfl, fun _ => hc.2⟩
  · obtain ⟨rfl, rfl⟩ := Prod.mk.inj h
    exact ⟨rfl, nofun⟩

theorem makeOrKeep_spec (hd : d.Regular) {result : Except Cause Unit}
    (h : d.makeOrKeep p = (result, d')) :
    Grows (· ∈ p.entered d.cwd) (fun _ => False) d d' ∧ (result = .ok () → d'.Made p) := by
  unfold makeOrKeep at h
  split at h
  · rename_i hm
    obtain ⟨-, rfl⟩ := Prod.mk.inj h
    obtain ⟨hg, hmade⟩ := makeDir_eq_ok hd hm
    exact ⟨hg, fun _ => hmade⟩
  · obtain ⟨rfl, hdir⟩ := unlessPresent_eq h
    exact ⟨.refl _ _ _, fun hr => made_of_isDir hd (hdir hr)⟩

/-- Directories are made only where one of the paths enters, and in the end the first path leads to
a directory, unless it is one that nothing is done for. -/
theorem makeDirs_spec (hd : d.Regular) {paths : List Path} {result : Except Cause Unit}
    (h : d.makeDirs paths = (result, d')) :
    Grows (fun l => ∃ q ∈ paths, l ∈ q.entered d.cwd) (fun _ => False) d d' ∧
      ∀ q parents, paths = q :: parents → result = .ok () →
        (q.text = "" ∨ q.parent? = none) ∧ d' = d ∨ d'.Made q := by
  induction paths generalizing d d' result with
  | nil =>
    obtain ⟨-, rfl⟩ := Prod.mk.inj h
    exact ⟨.refl _ _ _, nofun⟩
  | cons q parents ih =>
    have hfirst : ∀ {d d' : Disk} {result : Except Cause Unit}, d.Regular →
        d.makeOrKeep q = (result, d') →
        Grows (fun l => ∃ r ∈ q :: parents, l ∈ r.entered d.cwd) (fun _ => False) d d' ∧
          (result = .ok () → d'.Made q) := by
      intro d d' result hd hm
      obtain ⟨hg, hmade⟩ := makeOrKeep_spec hd hm
      exact ⟨hg.mono (fun l hl => ⟨q, List.mem_cons_self, hl⟩) fun _ => id, hmade⟩
    suffices hs : Grows (fun l => ∃ r ∈ q :: parents, l ∈ r.entered d.cwd) (fun _ => False) d d' ∧
        (result = .ok () → (q.text = "" ∨ q.parent? = none) ∧ d' = d ∨ d'.Made q) by
      refine ⟨hs.1, fun r rest he => ?_⟩
      obtain ⟨rfl, -⟩ := List.cons.inj he
      exact hs.2
    by_cases htrivial : q.text = "" ∨ q.parent? = none
    · rw [makeDirs, if_pos htrivial] at h
      obtain ⟨-, rfl⟩ := Prod.mk.inj h
      exact ⟨.refl _ _ _, fun _ => .inl ⟨htrivial, rfl⟩⟩
    · by_cases hm : d.makeDir q = .error .notFound
      · rw [makeDirs_of_notFound htrivial hm] at h
        rcases hps : d.makeDirs parents with ⟨r, d₁⟩
        have hg : Grows (fun l => ∃ r ∈ q :: parents, l ∈ r.entered d.cwd) (fun _ => False) d d₁ :=
          (ih hd hps).1.mono (fun l ⟨r, hr, hl⟩ => ⟨r, List.mem_cons_of_mem _ hr, hl⟩) fun _ => id
        rw [hps] at h
        cases r with
        | error cause =>
          obtain ⟨rfl, rfl⟩ := Prod.mk.inj h
          exact ⟨hg, nofun⟩
        | ok _ =>
          obtain ⟨hg', hmade⟩ := hfirst (hg.regular hd) h
          rw [hg.cwd] at hg'
          exact ⟨hg.trans hg', fun hr => .inr (hmade hr)⟩
      · rw [makeDirs_of_ne_notFound htrivial hm] at h
        obtain ⟨hg, hmade⟩ := hfirst hd h
        exact ⟨hg, fun hr => .inr (hmade hr)⟩

theorem exists_ancestors_eq (p : Path) : ∃ parents, p.ancestors = p :: parents :=
  ⟨_, by rw [Path.ancestors, Path.ancestorsUpTo]⟩

/-- Creating a directory with its parents makes directories where its path enters, and in the end it
is there, unless the path is one that nothing is done for. -/
theorem makeDirAll_spec (hd : d.Regular) {result : Except Cause Unit}
    (h : d.makeDirAll p = (result, d')) :
    Grows (· ∈ p.entered d.cwd) (fun _ => False) d d' ∧
      (result = .ok () → (p.text = "" ∨ p.parent? = none) ∧ d' = d ∨ d'.Made p) := by
  obtain ⟨hg, hmade⟩ := makeDirs_spec hd h
  obtain ⟨parents, hall⟩ := exists_ancestors_eq p
  exact ⟨hg.mono (fun _ ⟨_, hq, hl⟩ => Path.entered_subset_of_mem_ancestors hq hl) fun _ => id,
    hmade p parents hall⟩

theorem resolve_div_ne_notFound {followLast : Bool} (hd : d.Regular) (hp : d.Leads p) (hn : IsName n) :
    d.resolve (p / n).text followLast ≠ .error .notFound := by
  intro h
  cases hf : pathFault? (p / n).text with
  | some cause =>
    rw [resolve_of_fault hf] at h
    obtain rfl := Except.error.inj h
    have hempty : (p / n).text = "" := by
      by_contra hne
      rw [pathFault?, if_neg hne] at hf
      split at hf
      · cases hf
      · split at hf <;> cases hf
    obtain ⟨front, hs, -⟩ := Path.steps_div hn p
    rw [hempty] at hs
    have hnil : steps "" = [] := by decide
    simp [hnil] at hs
  | none =>
    rw [resolve_of_no_fault hf] at h
    obtain ⟨front, hs, hfront⟩ := Path.steps_div hn p
    have hcross : ∀ l ∈ crossed (startOf d.cwd (p / n).text) (steps (p / n).text), d.tree.HasDir l := by
      rw [hs, crossed_append_name hn.ne_here hn.ne_up, moving, hfront, Path.startOf_div hn]
      exact hp.entered
    cases followWith_eq_error hd.tree (hd.hasDir_start _) hcross h

theorem makeDirAll_div_eq_error {cause : Cause} (hd : d.Regular) (hp : d.Leads p) (hn : IsName n)
    (h : d.makeDirAll (p / n) = (.error cause, d')) : d' = d := by
  obtain ⟨parents, hall⟩ := exists_ancestors_eq (p / n)
  rw [makeDirAll, hall] at h
  by_cases htrivial : (p / n).text = "" ∨ (p / n).parent? = none
  · rw [makeDirs, if_pos htrivial] at h
    cases h
  · have hm : d.makeDir (p / n) ≠ .error .notFound := by
      intro hm
      unfold makeDir at hm
      rw [Path.dropEndSlashes_div hn] at hm
      split at hm
      · rename_i hr
        obtain rfl := Except.error.inj hm
        exact resolve_div_ne_notFound hd hp hn hr
      · cases hm
      · cases hm
    rw [makeDirs_of_ne_notFound htrivial hm, makeOrKeep] at h
    split at h
    · cases h
    · exact (unlessPresent_eq h).1

def pathsOf (dir : Path) (recursive : Bool) (names : List (List String)) : List Path :=
  ((names.filter fun names => (recursive || names.length == 1) && opens dir names.dropLast).map
    fun names => names.foldl (· / ·) dir).mergeSort Path.le

theorem listFiles_eq (d : Disk) (dir : Path) (recursive : Bool) :
    d.listFiles dir recursive = match d.entryAt dir false with
      | .error cause => .error cause
      | .ok _ => match d.entryAt dir true with
        | .error cause => .error cause
        | .ok (l, .directory) => .ok (pathsOf dir recursive (d.tree.fileNames l))
        | .ok _ => .ok [] := by
  rw [listFiles]
  cases d.entryAt dir false with
  | error cause => rfl
  | ok _ =>
    cases d.entryAt dir true with
    | error cause => rfl
    | ok entry =>
      obtain ⟨l, e⟩ := entry
      cases e with
      | file content executable | link target | device device => rfl
      | directory =>
        dsimp only
        rw [pathsOf, Tree.fileNames, List.filter_filterMap, List.map_filterMap]
        congr 3
        funext entry
        obtain ⟨names, e⟩ := entry
        cases e with
        | file content executable =>
          dsimp only
          rw [Option.filter_some]
          split <;> rfl
        | directory | link target | device device => rfl

end Disk

end GrammarHeaders
