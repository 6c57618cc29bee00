import GrammarHeaders.Proofs.RepeatedPatching

namespace GrammarHeaders

variable {d : Disk} {s t : Session} {dir p : Path} {paths : List Path} {summary : PatchSummary}
  {n : String} {l : Location}

/-- A name with the extension `cs`, in any letter case. -/
def IsBindingName (n : String) : Prop :=
  ∃ stem c s, n.toList = stem ++ ['.', c, s] ∧ stem ≠ [] ∧ c.toLower = 'c' ∧ s.toLower = 's'

theorem hasExtension_bindingExtensions_iff (h : p.fileName? = some n) :
    hasExtension p bindingExtensions = true ↔ IsBindingName n := by
  rw [hasExtension_iff h (by decide)]
  constructor
  · rintro ⟨stem, ext, hstem, hn, hlisted⟩
    have hlower : ext.map Char.toLower = ['c', 's'] := by
      simpa [bindingExtensions, ← String.toList_inj] using hlisted
    obtain ⟨c, rest, rfl, hc, hrest⟩ := List.map_eq_cons_iff.mp hlower
    obtain ⟨s, rfl, hs⟩ := List.map_eq_singleton_iff.mp hrest
    exact ⟨stem, c, s, hn, hstem, hc, hs⟩
  · rintro ⟨stem, c, s, hn, hstem, hc, hs⟩
    refine ⟨stem, [c, s], hstem, hn, ?_⟩
    rw [List.map_cons, List.map_singleton, hc, hs]
    decide

/-- A binding that the walk below a directory comes to. The names of the folders that lead to it must not
be so long that the last of the folders cannot be opened. -/
def IsBindingBelow (d : Disk) (dir : Path) (l : Location) : Prop :=
  ∃ folders name, l = dir.destination d.cwd ++ (folders ++ [name]) ∧ d.tree.HasFile l ∧
    IsBindingName name ∧ Disk.opens dir folders = true

theorem mem_destinations_foundFiles (hd : d.Regular) (hdir : d.isDir dir = true) :
    l ∈ (foundFiles d dir bindingExtensions true).map (Path.destination d.cwd) ↔ IsBindingBelow d dir l := by
  rw [List.mem_map]
  constructor
  · rintro ⟨p, hp, rfl⟩
    obtain ⟨-, names, hnames, -, hopens, rfl, hext⟩ := (mem_foundFiles hd).mp hp
    obtain ⟨hne, hfile⟩ := (Tree.mem_fileNames hd.tree).mp hnames
    obtain ⟨content, executable, hget⟩ := hfile
    have hisname : ∀ n ∈ names, IsName n := fun n hn => hd.tree.isName_of_mem hget hn
    rw [Path.destination_foldl hisname]
    rcases List.eq_nil_or_concat names with rfl | ⟨folders, name, rfl⟩
    · exact absurd rfl hne
    · rw [List.concat_eq_append] at hopens hext hisname hget ⊢
      rw [List.foldl_append, List.foldl_cons, List.foldl_nil, hasExtension_bindingExtensions_iff
        (Path.fileName?_div (hisname name (by simp)) _)] at hext
      rw [List.dropLast_concat] at hopens
      exact ⟨folders, name, rfl, ⟨content, executable, hget⟩, hext, hopens⟩
  · rintro ⟨folders, name, rfl, hfile, hname, hopens⟩
    obtain ⟨content, executable, hget⟩ := hfile
    have hisname : ∀ n ∈ folders ++ [name], IsName n := fun n hn => hd.tree.isName_of_mem hget hn
    refine ⟨(folders ++ [name]).foldl (· / ·) dir, (mem_foundFiles hd).mpr ⟨hdir, folders ++ [name],
      (Tree.mem_fileNames hd.tree).mpr ⟨by simp, content, executable, hget⟩, rfl, ?_, rfl, ?_⟩,
      Path.destination_foldl hisname dir d.cwd⟩
    · rw [List.dropLast_concat]
      exact hopens
    · rw [List.foldl_append, List.foldl_cons, List.foldl_nil, hasExtension_bindingExtensions_iff
        (Path.fileName?_div (hisname name (by simp)) _)]
      exact hname

/-- What patching a directory has made of a disk: each of the bindings below it has become its patched
text, and everything else is as it was. -/
structure PatchedTree (dir : Path) (d d' : Disk) (bindings : List (Location × Text)) : Prop where
  nodup : (bindings.map Prod.fst).Nodup
  mem_iff : ∀ l, l ∈ bindings.map Prod.fst ↔ IsBindingBelow d dir l
  patched : ∀ {l text}, (l, text) ∈ bindings → PatchedFile d d' l text
  unchanged : ∀ l, ¬ IsBindingBelow d dir l → d'.tree.get? l = d.tree.get? l
  cwd : d'.cwd = d.cwd

theorem start_patchPath (hdir : s.disk.isDir dir = true) :
    Stage.start (patchPath dir) s = Stage.start (patchDir dir) s := by
  rw [patchPath, Stage.start_bind, Stage.start_disk]
  dsimp only
  rw [if_pos hdir]

theorem patchedTree_of_patchDir (hs : s.disk.Regular) (hdir : s.disk.isDir dir = true)
    (h : Stage.start (patchDir dir) s = (.ok summary, t)) :
    ∃ bindings, PatchedTree dir s.disk t.disk bindings ∧
      summary = PatchSummary.ofTexts (bindings.map Prod.snd) := by
  obtain ⟨s', hs', hstart⟩ := start_patchDir dir s
  rw [hstart] at h
  have hfiles : ∀ p ∈ foundFiles s.disk dir bindingExtensions true,
      s.disk.tree.HasFile (p.destination s.disk.cwd) := fun p hp => (hasFile_of_mem_foundFiles hs hp).2
  have hnodup := nodup_destinations_foundFiles hs dir bindingExtensions true
  have hg := @grows_patchFiles s'.disk.cwd (fun _ => False) (foundFiles s.disk dir bindingExtensions true) s'
    (hs'.symm ▸ hs) rfl
  rw [h, hs'] at hg
  obtain ⟨-, texts, htexts, hsummary⟩ := patchFiles_eq_ok (hs'.symm ▸ hs) (hs'.symm ▸ hfiles) (hs'.symm ▸ hnodup) h
  rw [hs'] at htexts
  obtain ⟨hlength, hpatched⟩ := List.forall₂_iff_zip.mp htexts
  have hfst := List.map_fst_zip (Nat.le_of_eq hlength)
  have hsnd := List.map_snd_zip (Nat.le_of_eq hlength.symm)
  refine ⟨List.zip _ texts, ⟨hfst.symm ▸ hnodup, fun l => ?_, hpatched, fun l hl => ?_, hg.cwd⟩, ?_⟩
  · rw [hfst]
    exact mem_destinations_foundFiles hs hdir
  · refine hg.tree.get?_eq id ?_
    rintro ⟨p, hp, rfl⟩
    exact hl ((mem_destinations_foundFiles hs hdir).mp (List.mem_map_of_mem hp))
  · rw [hsnd]
    exact hsummary

/-- Patching a directory patches every binding that the walk below it comes to and nothing else, counts
what it has patched, and changes nothing when it is repeated. -/
theorem patchPath_patches_tree (hs : s.disk.Regular) (hdir : s.disk.isDir dir = true)
    (h : Stage.start (patchPath dir) s = (.ok summary, t)) :
    ∃ bindings, PatchedTree dir s.disk t.disk bindings ∧
      summary = PatchSummary.ofTexts (bindings.map Prod.snd) ∧
      ∀ v : Session, v.disk = t.disk →
        ∃ w, Stage.start (patchPath dir) v = (.ok ⟨summary.filesScanned, 0, 0⟩, w) ∧ w.disk = v.disk := by
  rw [start_patchPath hdir] at h
  obtain ⟨bindings, htree, hsummary⟩ := patchedTree_of_patchDir hs hdir h
  refine ⟨bindings, htree, hsummary, fun v hv => ?_⟩
  have hgrow : Disk.Grows (fun _ => False) (fun _ => False) t.disk v.disk := hv ▸ .refl _ _ _
  have hpatch := patchDir_grows dir hs
  rw [h] at hpatch
  rw [start_patchPath (hv ▸ hpatch.isDir hs hdir)]
  exact patchDir_again hs hdir h hgrow (fun _ => False.elim) fun _ => False.elim

def toyAccessor : Text := "return ((__Internal*)__Instance)->field_names;".toList

def toyBindings : Disk where
  tree.entries := [(["b"], .directory), (["b", "sub"], .directory),
    (["b", "sub", "A.CS"], .file (.text toyAccessor) false), (["c.cs"], .file (.text toyAccessor) false)]

theorem regular_toyBindings : toyBindings.Regular :=
  ⟨.of_entries (by decide +kernel) (by decide +kernel), rfl⟩

theorem patchPath_patches_tree_toy :
    ∃ t bindings, Stage.start (patchPath ⟨"b"⟩) ⟨toyBindings, [], []⟩ = (.ok ⟨1, 1, 1⟩, t) ∧
      PatchedTree ⟨"b"⟩ toyBindings t.disk bindings ∧
      (⟨1, 1, 1⟩ : PatchSummary) = PatchSummary.ofTexts (bindings.map Prod.snd) := by
  have hresult : (Stage.start (patchPath ⟨"b"⟩) ⟨toyBindings, [], []⟩).1 = .ok ⟨1, 1, 1⟩ := by decide +kernel
  have hrun : Stage.start (patchPath ⟨"b"⟩) ⟨toyBindings, [], []⟩ = (.ok ⟨1, 1, 1⟩, _) := Prod.ext hresult rfl
  obtain ⟨bindings, htree, hsummary, -⟩ :=
    patchPath_patches_tree (s := ⟨toyBindings, [], []⟩) regular_toyBindings (by decide +kernel) hrun
  exact ⟨_, bindings, hrun, htree, hsummary⟩

/-- A longer and longer path to the folder. -/
def pointed : Nat → String
  | 0 => "b"
  | n + 1 => pointed n ++ "/" ++ "."

theorem utf8ByteSize_pointed (n : Nat) : (pointed n).utf8ByteSize = 2 * n + 1 := by
  induction n with
  | zero => rfl
  | succ n ih =>
    have hpoint : "/".utf8ByteSize = 1 ∧ ".".utf8ByteSize = 1 := by decide
    rw [pointed, String.utf8ByteSize_append, String.utf8ByteSize_append, ih, hpoint.1, hpoint.2]
    omega

theorem trail_pointed (n : Nat) : (⟨pointed n⟩ : Path).trail = ["b"] := by
  induction n with
  | zero => exact Path.trail_name (by constructor <;> decide)
  | succ n ih =>
    have hpoint : (⟨"."⟩ : Path).trail = [] := by decide
    rw [pointed, Path.trail_append, ih, hpoint, List.append_nil]

theorem toList_pointed (n : Nat) : ∀ c ∈ (pointed n).toList, c = 'b' ∨ c = '/' ∨ c = '.' := by
  induction n with
  | zero => simp [pointed]
  | succ n ih =>
    intro c hc
    rw [pointed, String.toList_append, String.toList_append, List.mem_append, List.mem_append] at hc
    rcases hc with (hc | hc) | hc
    · exact ih c hc
    · exact .inr (.inl (List.mem_singleton.mp hc))
    · exact .inr (.inr (List.mem_singleton.mp hc))

theorem destination_pointed (n : Nat) : (⟨pointed n⟩ : Path).destination toyBindings.cwd = ["b"] := by
  have hcwd : toyBindings.cwd = [] := rfl
  rw [Path.destination, trail_pointed, Disk.startOf, hcwd, ite_self]
  rfl

theorem pathFault?_pointed {n : Nat} (hn : 2 * n + 1 < Disk.pathLimit) : Disk.pathFault? (pointed n) = none := by
  refine Disk.pathFault?_eq_none.mpr ⟨fun hzero => ?_, fun hempty => ?_, ?_⟩
  · exact absurd (toList_pointed n _ hzero) (by decide)
  · have hsize := utf8ByteSize_pointed n
    rw [hempty] at hsize
    have hnil : "".utf8ByteSize = 0 := by decide
    omega
  · rw [utf8ByteSize_pointed]
    exact hn

theorem Disk.isDir_pointed {d : Disk} {n : Nat} (hd : d.Regular) (hcwd : d.cwd = [])
    (hb : d.tree.HasDir ["b"]) (hn : 2 * n + 1 < pathLimit) : d.isDir ⟨pointed n⟩ = true := by
  refine (isDir_iff hd).mpr ⟨pathFault?_pointed hn, ?_, ?_⟩
  · rw [trail_pointed, List.forall_mem_singleton]
    exact .inr (.inr (by decide))
  · rw [Path.entered, trail_pointed, startOf, hcwd, ite_self]
    simpa [Location.entered] using hb

theorem isDir_pointed {n : Nat} (hn : 2 * n + 1 < Disk.pathLimit) : toyBindings.isDir ⟨pointed n⟩ = true :=
  Disk.isDir_pointed regular_toyBindings rfl (by decide) hn

theorem getLast?_pointed (n : Nat) : (pointed n).toList.getLast? ≠ some '/' := by
  cases n with
  | zero => decide
  | succ n =>
    rw [pointed, String.toList_append]
    simp

theorem pointed_div (hn : IsName n) (k : Nat) :
    (⟨pointed k⟩ : Path) / n = ⟨pointed k ++ "/" ++ n⟩ := by
  have hempty : pointed k ≠ "" := fun hempty => by
    have hsize := utf8ByteSize_pointed k
    rw [hempty] at hsize
    exact absurd hsize (by simp)
  rw [Path.div_eq hn, if_neg (not_or.mpr ⟨hempty, getLast?_pointed k⟩)]

theorem opens_pointed (hname : IsName n) (k : Nat) :
    Disk.opens ⟨pointed k⟩ [n] = decide (2 * k + 2 + n.utf8ByteSize < Disk.pathLimit) := by
  have hslash : "/".utf8ByteSize = 1 := by decide
  rw [Disk.opens, List.foldl_cons, List.foldl_nil, pointed_div hname, String.utf8ByteSize_append,
    String.utf8ByteSize_append, utf8ByteSize_pointed, hslash]

theorem start_patchPath_pointed {k : Nat} (hk : 2 * k + 1 < Disk.pathLimit) (hlong : Disk.pathLimit ≤ 2 * k + 5) :
    ∃ t, Stage.start (patchPath ⟨pointed k⟩) ⟨toyBindings, [], []⟩ = (.ok {}, t) ∧ t.disk = toyBindings := by
  have hopens : Disk.opens ⟨pointed k⟩ ["sub"] = false := by
    have hsize : "sub".utf8ByteSize = 3 := by decide
    rw [opens_pointed (by constructor <;> decide), hsize]
    exact decide_eq_false (by omega)
  have hnames : toyBindings.tree.fileNames ["b"] = [["sub", "A.CS"]] := by
    simp [Tree.fileNames_eq, List.filterMap_cons, Tree.fileName?, toyBindings]
  have hfound : foundFiles toyBindings ⟨pointed k⟩ bindingExtensions true = [] := by
    rw [foundFiles_eq regular_toyBindings, if_pos (isDir_pointed hk), destination_pointed, hnames, Disk.pathsOf]
    simp [hopens]
  obtain ⟨t, ht, hstart⟩ := start_patchDir ⟨pointed k⟩ ⟨toyBindings, [], []⟩
  refine ⟨t, ?_, ht⟩
  rw [start_patchPath (s := ⟨toyBindings, [], []⟩) (isDir_pointed hk), hstart]
  dsimp only
  rw [hfound]
  rfl

/-- The walk passes over a folder whose path is too long, with whatever is in it, and does not fail. -/
theorem skips_unopened_folder :
    ¬ ∀ (dir : Path) (s t : Session) (summary : PatchSummary), s.disk.Regular → s.disk.isDir dir = true →
      Stage.start (patchPath dir) s = (.ok summary, t) →
      ∀ names name text executable, IsBindingName name →
        s.disk.tree.get? (dir.destination s.disk.cwd ++ (names ++ [name])) = some (.file (.text text) executable) →
        t.disk.tree.get? (dir.destination s.disk.cwd ++ (names ++ [name])) =
          some (.file (.text (patchBindings text).text) executable) := by
  intro hall
  obtain ⟨t, hrun, ht⟩ := start_patchPath_pointed (k := 2046) (by decide) (by decide)
  have hname : IsBindingName "A.CS" := ⟨['A'], 'C', 'S', by decide, by decide, by decide, by decide⟩
  have hbefore : toyBindings.tree.get? ["b", "sub", "A.CS"] = some (.file (.text toyAccessor) false) := by
    simp [Tree.get?, Tree.find?, toyBindings]
  have hpatched := hall ⟨pointed 2046⟩ ⟨toyBindings, [], []⟩ t {} regular_toyBindings (isDir_pointed (by decide))
    hrun ["sub"] "A.CS" toyAccessor false hname (by dsimp only; rw [destination_pointed]; exact hbefore)
  dsimp only at hpatched
  rw [ht, destination_pointed] at hpatched
  have hsame := hbefore.symm.trans hpatched
  simp only [Option.some.injEq, Entry.file.injEq, Content.text.injEq, and_true] at hsame
  have hcount : accessorCount toyAccessor ≠ 0 := by decide +kernel
  exact hcount ((patchBindings_text_eq_iff toyAccessor).mp hsame.symm)

end GrammarHeaders
