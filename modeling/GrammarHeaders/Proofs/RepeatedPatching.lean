import GrammarHeaders.Proofs.AccessorLines
import GrammarHeaders.Proofs.Checkouts
import GrammarHeaders.Proofs.Agreement
import GrammarHeaders.Proofs.LinkedPaths
import GrammarHeaders.Patching
import Mathlib.Algebra.GroupWithZero.Nat

namespace GrammarHeaders

variable {here : Location} {dirs files : Location → Prop} {s t v : Session} {d d' : Disk} {p dir : Path}
  {paths : List Path} {summary : PatchSummary} {module : String} {generated : Bool}

theorem grows_patchFile (p : Path) :
    Stage.Grows here dirs (· = p.destination here) (patchFile p) := by
  refine (Action.grows_updateInPlace p _).bind fun result => ?_
  obtain ⟨updated, lines⟩ := result
  dsimp only
  split
  · exact (Stage.Reads.log _).grows.bind fun _ => (Stage.Reads.pure _).grows
  · exact (Stage.Reads.pure _).grows

theorem grows_patchFiles (paths : List Path) :
    Stage.Grows here dirs (fun l => ∃ p ∈ paths, l = p.destination here) (patchFiles paths) := by
  induction paths with
  | nil => exact (Stage.Reads.pure _).grows
  | cons p rest ih =>
    refine ((grows_patchFile p).mono (fun _ => id) ?_).bind fun first => ?_
    · exact fun l hl => ⟨p, List.mem_cons_self, hl⟩
    · refine (ih.mono (fun _ => id) ?_).bind fun _ => (Stage.Reads.pure _).grows
      exact fun l ⟨q, hq, hl⟩ => ⟨q, List.mem_cons_of_mem _ hq, hl⟩

/-- The path leads to a file without accessors. -/
structure Settled (d : Disk) (p : Path) : Prop where
  resolve : ∃ place, d.resolve p.text true = .ok place
  file : ∃ text executable, d.tree.get? (p.destination d.cwd) = some (.file (.text text) executable) ∧
    patchBindings text = ⟨text, 0⟩

theorem Settled.of_get?_eq (h : Settled d p) (hd : d.Regular) (hg : Disk.Grows dirs files d d')
    (hfile : d'.tree.get? (p.destination d.cwd) = d.tree.get? (p.destination d.cwd)) : Settled d' p where
  resolve := by
    obtain ⟨place, hr⟩ := h.resolve
    exact ⟨_, Disk.resolve_of_hasDir true hd (hg.regular hd) hg.cwd (fun _ => hg.tree.hasDir) hr⟩
  file := by
    rw [hg.cwd, hfile]
    exact h.file

theorem Settled.readText (h : Settled d p) (hd : d.Regular) :
    ∃ text, d.readText p = .ok text ∧ patchBindings text = ⟨text, 0⟩ := by
  obtain ⟨place, hr⟩ := h.resolve
  obtain ⟨text, executable, hfile, hp⟩ := h.file
  refine ⟨text, ?_, hp⟩
  have hplace := ((Disk.resolve_eq_ok hd).mp hr).2.2.2
  rw [Disk.placeAt, hfile] at hplace
  rw [Disk.readText, Disk.readContent, Disk.entryAt, hr, hplace]

theorem patchFile_again (h : Settled v.disk p) (hv : v.disk.Regular) :
    Stage.start (patchFile p) v = (.ok ⟨1, 0, 0⟩, v) := by
  obtain ⟨text, hread, hp⟩ := h.readText hv
  rw [patchFile, Stage.start_bind, Action.updateInPlace, Stage.start_bind, Action.start_readText, hread]
  simp [hp]

theorem patchFiles_again (h : ∀ p ∈ paths, Settled v.disk p) (hv : v.disk.Regular) :
    Stage.start (patchFiles paths) v = (.ok ⟨paths.length, 0, 0⟩, v) := by
  induction paths with
  | nil => rfl
  | cons p rest ih =>
    obtain ⟨hp, hrest⟩ := List.forall_mem_cons.mp h
    have hadd : (⟨1, 0, 0⟩ : PatchSummary).add ⟨rest.length, 0, 0⟩ = ⟨rest.length + 1, 0, 0⟩ := by
      simp [PatchSummary.add, Nat.add_comm]
    rw [patchFiles, Stage.start_bind_of_ok (patchFile_again hp hv), Stage.start_bind_of_ok (ih hrest),
      Stage.start_pure, hadd, List.length_cons]

/-- The file had a text, and has become its patched text. -/
def PatchedFile (d d' : Disk) (l : Location) (text : Text) : Prop :=
  ∃ executable, d.tree.get? l = some (.file (.text text) executable) ∧
    d'.tree.get? l = some (.file (.text (patchBindings text).text) executable)

/-- The totals of a pass over files with these texts. -/
def PatchSummary.ofTexts (texts : List Text) : PatchSummary :=
  ⟨texts.length, texts.countP fun text => 0 < accessorCount text, (texts.map accessorCount).sum⟩

theorem PatchSummary.ofTexts_cons (text : Text) (texts : List Text) :
    ofTexts (text :: texts) = (ofTexts [text]).add (ofTexts texts) := by
  simp only [ofTexts, add, List.length_cons, List.length_nil, List.countP_cons, List.countP_nil,
    List.map_cons, List.map_nil, List.sum_cons, List.sum_nil, Nat.add_comm, Nat.add_zero, Nat.zero_add]

theorem patchFile_eq_ok (hs : s.disk.Regular) (hf : s.disk.tree.HasFile (p.destination s.disk.cwd))
    (h : Stage.start (patchFile p) s = (.ok summary, t)) :
    (∃ place, s.disk.resolve p.text true = .ok place) ∧
      ∃ text, PatchedFile s.disk t.disk (p.destination s.disk.cwd) text ∧
        summary = PatchSummary.ofTexts [text] := by
  obtain ⟨⟨updated, lines⟩, s₁, hupdate, h⟩ := Stage.start_bind_eq_ok.mp h
  have hsummary : summary = ⟨1, if updated then 1 else 0, lines⟩ ∧ t.disk = s₁.disk := by
    cases updated with
    | true =>
      obtain ⟨_, s₂, hlog, h⟩ := Stage.start_bind_eq_ok.mp h
      obtain ⟨-, rfl⟩ := Prod.mk.inj hlog
      obtain ⟨hsummary, rfl⟩ := Prod.mk.inj h
      exact ⟨(Except.ok.inj hsummary).symm, rfl⟩
    | false =>
      obtain ⟨hsummary, rfl⟩ := Prod.mk.inj h
      exact ⟨(Except.ok.inj hsummary).symm, rfl⟩
  obtain ⟨rfl, hdisk⟩ := hsummary
  unfold Action.updateInPlace at hupdate
  obtain ⟨text, s₂, hread, hupdate⟩ := Stage.start_bind_eq_ok.mp hupdate
  obtain ⟨htext, rfl⟩ := Action.start_readText_eq_ok.mp hread
  obtain ⟨hresolve, executable, hfile⟩ := Disk.readText_eq_ok hs hf htext
  dsimp only at hupdate
  split at hupdate
  · rename_i hsame
    obtain ⟨hresult, rfl⟩ := Prod.mk.inj hupdate
    obtain ⟨rfl, rfl⟩ := Prod.mk.inj (Except.ok.inj hresult)
    have hcount := (patchBindings_text_eq_iff text).mp hsame
    refine ⟨hresolve, text, ⟨executable, hfile, ?_⟩, ?_⟩
    · rw [hdisk, hsame, hfile]
    · simp [PatchSummary.ofTexts, patchedLines_patchBindings, hcount]
  · rename_i hother
    obtain ⟨_, s₃, hwrite, hupdate⟩ := Stage.start_bind_eq_ok.mp hupdate
    obtain ⟨hresult, rfl⟩ := Prod.mk.inj hupdate
    obtain ⟨rfl, rfl⟩ := Prod.mk.inj (Except.ok.inj hresult)
    have hcount := Nat.pos_of_ne_zero fun hc => hother ((patchBindings_text_eq_iff text).mpr hc)
    refine ⟨hresolve, text, ⟨executable, hfile, ?_⟩, ?_⟩
    · rw [hdisk]
      exact Disk.get?_of_write hs hfile (Action.start_writeText_eq_ok hwrite)
    · simp [PatchSummary.ofTexts, patchedLines_patchBindings, hcount]

theorem patchFile_settles (hs : s.disk.Regular) (hf : s.disk.tree.HasFile (p.destination s.disk.cwd))
    (h : Stage.start (patchFile p) s = (.ok summary, t)) :
    Settled t.disk p := by
  have hg := @grows_patchFile s.disk.cwd (fun _ => False) p s hs rfl
  rw [h] at hg
  obtain ⟨⟨place, hr⟩, text, ⟨executable, -, hfile⟩, rfl⟩ := patchFile_eq_ok hs hf h
  have hresolve := Disk.resolve_of_hasDir true hs (hg.regular hs) hg.cwd (fun _ => hg.tree.hasDir) hr
  exact ⟨⟨_, hresolve⟩, _, executable, hg.cwd ▸ hfile, patchBindings_text text⟩

theorem patchFiles_eq_ok (hs : s.disk.Regular)
    (hf : ∀ p ∈ paths, s.disk.tree.HasFile (p.destination s.disk.cwd))
    (hnodup : (paths.map (Path.destination s.disk.cwd)).Nodup)
    (h : Stage.start (patchFiles paths) s = (.ok summary, t)) :
    (∀ p ∈ paths, Settled t.disk p) ∧
      ∃ texts, List.Forall₂ (PatchedFile s.disk t.disk) (paths.map (Path.destination s.disk.cwd)) texts ∧
        summary = PatchSummary.ofTexts texts := by
  induction paths generalizing s summary with
  | nil =>
    obtain ⟨hsummary, -⟩ := Prod.mk.inj h
    obtain rfl := Except.ok.inj hsummary
    exact ⟨nofun, [], .nil, rfl⟩
  | cons p rest ih =>
    obtain ⟨hp, hrest⟩ := List.forall_mem_cons.mp hf
    obtain ⟨hapart, hnodup⟩ := List.nodup_cons.mp hnodup
    obtain ⟨first, s₁, h₁, h⟩ := Stage.start_bind_eq_ok.mp h
    obtain ⟨others, s₂, h₂, h⟩ := Stage.start_bind_eq_ok.mp h
    obtain ⟨hsummary, rfl⟩ := Prod.mk.inj h
    obtain rfl := Except.ok.inj hsummary
    have hg₁ := @grows_patchFile s.disk.cwd (fun _ => False) p s hs rfl
    rw [h₁] at hg₁
    have hr₁ := hg₁.regular hs
    have hg₂ := @grows_patchFiles s₁.disk.cwd (fun _ => False) rest s₁ hr₁ rfl
    rw [h₂, hg₁.cwd] at hg₂
    have hsettled := patchFile_settles hs hp h₁
    obtain ⟨-, text, ⟨executable, hbefore, hafter⟩, rfl⟩ := patchFile_eq_ok hs hp h₁
    obtain ⟨hrestsettled, texts, htexts, rfl⟩ := ih hr₁ (fun q hq => hg₁.cwd ▸ hg₁.tree.hasFile (hrest q hq))
      (hg₁.cwd.symm ▸ hnodup) h₂
    rw [hg₁.cwd] at htexts
    -- the files are apart, so a write to one of them leaves the others as they are
    have hfirst : s₂.disk.tree.get? (p.destination s.disk.cwd) = s₁.disk.tree.get? (p.destination s.disk.cwd) := by
      refine hg₂.tree.get?_eq id ?_
      rintro ⟨q, hq, he⟩
      exact hapart (List.mem_map.mpr ⟨q, hq, he.symm⟩)
    have hothers : ∀ l ∈ rest.map (Path.destination s.disk.cwd), s₁.disk.tree.get? l = s.disk.tree.get? l :=
      fun l hl => hg₁.tree.get?_eq id fun he => hapart (he ▸ hl)
    refine ⟨List.forall_mem_cons.mpr ⟨hsettled.of_get?_eq hr₁ hg₂ (hg₁.cwd.symm ▸ hfirst), hrestsettled⟩,
      text :: texts, .cons ⟨executable, hbefore, hfirst.trans hafter⟩ ?_, (PatchSummary.ofTexts_cons _ _).symm⟩
    refine ((List.forall₂_and_left _ _).mpr ⟨hothers, htexts⟩).imp fun l text h => ?_
    obtain ⟨hsame, executable, hbefore, hafter⟩ := h
    exact ⟨executable, hsame ▸ hbefore, hafter⟩

theorem start_patchDir (dir : Path) (s : Session) :
    ∃ s', s'.disk = s.disk ∧ Stage.start (patchDir dir) s =
      Stage.start (patchFiles (foundFiles s.disk dir bindingExtensions true)) s' := by
  obtain ⟨s', hs', hd⟩ := start_findFiles Failure dir bindingExtensions true s
  exact ⟨s', hd, by rw [patchDir, Stage.start_bind_of_ok hs']⟩

theorem patchDir_grows (dir : Path) (hs : s.disk.Regular) :
    Disk.Grows (fun _ => False) (fun l => dir.destination s.disk.cwd <+: l ∧ s.disk.tree.HasFile l)
      s.disk (Stage.start (patchDir dir) s).2.disk := by
  obtain ⟨s', hd, hstart⟩ := start_patchDir dir s
  have hg := @grows_patchFiles s.disk.cwd (fun _ => False) (foundFiles s.disk dir bindingExtensions true) s'
    (hd ▸ hs) (congrArg Disk.cwd hd)
  rw [hstart]
  rw [hd] at hg
  refine hg.mono (fun _ => id) ?_
  rintro l ⟨p, hp, rfl⟩
  exact hasFile_of_mem_foundFiles hs hp

theorem disk_patchGenerated (module : String) (dir : Path) (generated : Bool) (s : Session) :
    (Stage.start (patchGenerated module dir generated) s).2.disk =
        (Stage.start (patchDir dir) s).2.disk ∨
      (Stage.start (patchGenerated module dir generated) s).2.disk = s.disk := by
  rw [patchGenerated, Stage.start_bind, Stage.start_disk]
  dsimp only
  split
  · rw [Stage.start_bind]
    cases Stage.start (patchDir dir) s with
    | mk result t => cases result <;> exact .inl rfl
  · split <;> exact .inr rfl

theorem patchGenerated_grows (module : String) (dir : Path) (generated : Bool) (hs : s.disk.Regular) :
    Disk.Grows (fun _ => False) (fun l => dir.destination s.disk.cwd <+: l ∧ s.disk.tree.HasFile l)
      s.disk (Stage.start (patchGenerated module dir generated) s).2.disk := by
  obtain h | h := disk_patchGenerated module dir generated s
  · exact h ▸ patchDir_grows dir hs
  · exact h ▸ .refl _ _ _

/-- On a disk that has grown since, but neither below the directory nor to it, patching the directory once
more scans the same files and changes nothing. -/
theorem patchDir_again (hs : s.disk.Regular) (hdir : s.disk.isDir dir = true)
    (h : Stage.start (patchDir dir) s = (.ok summary, t)) (hgrow : Disk.Grows dirs files t.disk v.disk)
    (hdirs : ∀ l, dirs l → ¬ dir.destination s.disk.cwd <+: l)
    (hfiles : ∀ l, files l → ¬ dir.destination s.disk.cwd <+: l) :
    ∃ w, Stage.start (patchDir dir) v = (.ok ⟨summary.filesScanned, 0, 0⟩, w) ∧ w.disk = v.disk := by
  have hpatch := patchDir_grows dir hs
  rw [h] at hpatch
  have ht := hpatch.regular hs
  have hv := hgrow.regular ht
  obtain ⟨s', hs', hstart⟩ := start_patchDir dir s
  rw [hstart] at h
  have hfound : ∀ p ∈ foundFiles s.disk dir bindingExtensions true,
      dir.destination s.disk.cwd <+: p.destination s.disk.cwd ∧
        s.disk.tree.HasFile (p.destination s.disk.cwd) := fun p hp => hasFile_of_mem_foundFiles hs hp
  obtain ⟨hsettled, texts, htexts, rfl⟩ := patchFiles_eq_ok (hs'.symm ▸ hs)
    (fun p hp => hs'.symm ▸ (hfound p hp).2)
    (hs'.symm ▸ nodup_destinations_foundFiles hs dir bindingExtensions true) h
  have hscanned : (PatchSummary.ofTexts texts).filesScanned =
      (foundFiles s.disk dir bindingExtensions true).length := by
    rw [PatchSummary.ofTexts, ← htexts.length_eq, List.length_map]
  have hagree : Disk.Agree s.disk.cwd (· ∈ dir.entered s.disk.cwd)
      (· = dir.destination s.disk.cwd) s.disk v.disk := by
    refine ⟨hs, hv, rfl, hgrow.cwd.trans hpatch.cwd, fun l hl => ?_, fun l hl => ?_⟩
    · have hl := ((Disk.isDir_iff hs).mp hdir).2.entered l hl
      exact (hgrow.tree.hasDir (hpatch.tree.hasDir hl)).trans hl.symm
    · subst hl
      rw [hgrow.tree.fileNames_eq fun k hk hp => absurd hp (hfiles k hk),
        hpatch.tree.fileNames_eq fun k hk _ => hk.2]
  have hsame : foundFiles v.disk dir bindingExtensions true = foundFiles s.disk dir bindingExtensions true := by
    rw [foundFiles, foundFiles, hagree.listFiles (fun _ => id) rfl]
  obtain ⟨v', hv', hstart'⟩ := start_patchDir dir v
  refine ⟨v', ?_, hv'⟩
  rw [hstart', hsame, hscanned]
  refine patchFiles_again (fun p hp => ?_) (hv' ▸ hv)
  rw [hv']
  refine (hsettled p hp).of_get?_eq ht hgrow ?_
  have hbelow := (hfound p hp).1
  rw [← hpatch.cwd] at hbelow hdirs hfiles
  exact hgrow.tree.get?_eq (fun hl => hdirs _ hl hbelow) fun hl => hfiles _ hl hbelow

theorem patchGenerated_again (hs : s.disk.Regular)
    (h : Stage.start (patchGenerated module dir generated) s = (.ok summary, t))
    (hgrow : Disk.Grows dirs files t.disk v.disk)
    (hdir : v.disk.isDir dir = true → s.disk.isDir dir = true)
    (hdirs : ∀ l, dirs l → ¬ dir.destination s.disk.cwd <+: l)
    (hfiles : ∀ l, files l → ¬ dir.destination s.disk.cwd <+: l) :
    ∃ w, Stage.start (patchGenerated module dir generated) v = (.ok ⟨summary.filesScanned, 0, 0⟩, w) ∧
      w.disk = v.disk := by
  have hpatch := patchGenerated_grows module dir generated hs
  rw [h] at hpatch
  rw [patchGenerated, Stage.start_bind, Stage.start_disk] at h ⊢
  dsimp only at h ⊢
  by_cases hd : s.disk.isDir dir = true
  · rw [if_pos hd] at h
    rw [if_pos (hgrow.isDir (hpatch.regular hs) (hpatch.isDir hs hd))]
    obtain ⟨summary', t₁, hp, h⟩ := Stage.start_bind_eq_ok.mp h
    obtain ⟨_, t₂, hlog, h⟩ := Stage.start_bind_eq_ok.mp h
    obtain ⟨-, rfl⟩ := Prod.mk.inj hlog
    obtain ⟨hsummary, rfl⟩ := Prod.mk.inj h
    obtain rfl := Except.ok.inj hsummary
    obtain ⟨w, hw, hdisk⟩ := patchDir_again hs hd hp hgrow hdirs hfiles
    rw [Stage.start_bind_of_ok hw]
    exact ⟨_, rfl, hdisk⟩
  · rw [if_neg hd] at h
    rw [if_neg fun hd' => hd (hdir hd')]
    cases generated with
    | true => cases h
    | false =>
      obtain ⟨_, t₁, hlog, h⟩ := Stage.start_bind_eq_ok.mp h
      obtain ⟨hsummary, -⟩ := Prod.mk.inj h
      obtain rfl := Except.ok.inj hsummary
      exact ⟨_, rfl, rfl⟩

end GrammarHeaders
