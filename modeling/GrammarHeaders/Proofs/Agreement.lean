import GrammarHeaders.Proofs.StageRelations

namespace GrammarHeaders

namespace Disk

/-- Two disks with the current directory `here` that have the same entries at the locations of `A`
and the same files below those of `B`. -/
structure Agree (here : Location) (A B : Location → Prop) (d d' : Disk) : Prop where
  regular : d.Regular
  regular' : d'.Regular
  cwd : d.cwd = here
  cwd' : d'.cwd = here
  get? : ∀ l, A l → d'.tree.get? l = d.tree.get? l
  fileNames : ∀ l, B l → d'.tree.fileNames l = d.tree.fileNames l

namespace Agree

variable {here : Location} {A B : Location → Prop} {d d' : Disk} {p : Path} {l : Location}

theorem refl (hd : d.Regular) (hc : d.cwd = here) : Agree here A B d d :=
  ⟨hd, hd, hc, hc, fun _ _ => rfl, fun _ _ => rfl⟩

theorem resolve (h : Agree here A B d d') (hp : ∀ l ∈ p.entered here, A l)
    (followLast followLast' : Bool) :
    d'.resolve p.text followLast' = d.resolve p.text followLast := by
  refine resolve_congr h.regular h.regular' (h.cwd'.trans h.cwd.symm) fun l hl => ?_
  rw [h.cwd] at hl
  exact h.get? l (hp l hl)

theorem entryAt (h : Agree here A B d d') (hp : ∀ l ∈ p.entered here, A l)
    (followLast followLast' : Bool) : d'.entryAt p followLast' = d.entryAt p followLast := by
  rw [Disk.entryAt, Disk.entryAt, h.resolve hp followLast followLast']

theorem isDir (h : Agree here A B d d') (hp : ∀ l ∈ p.entered here, A l) : d'.isDir p = d.isDir p := by
  rw [Disk.isDir, Disk.isDir, h.entryAt hp]

theorem readText (h : Agree here A B d d') (hp : ∀ l ∈ p.entered here, A l) :
    d'.readText p = d.readText p := by
  rw [Disk.readText, Disk.readText, readContent, readContent, h.entryAt hp]

theorem writable (h : Agree here A B d d') (hp : ∀ l ∈ p.entered here, A l) :
    d'.writable p = d.writable p := by
  rw [Disk.writable, Disk.writable, h.resolve hp true true]

theorem set {e : Entry} (h : Agree here A B d d') (hin : InDirectory d.tree l)
    (hin' : InDirectory d'.tree l) (hl : d'.tree.get? l = d.tree.get? l)
    (hfree : d.tree.get? l = none ∨ d.tree.HasFile l ∧ ∃ content executable, e = .file content executable)
    (hlink : ∀ target, e ≠ .link target) (hf : e.FitsAt l) :
    Agree here A B { d with tree := d.tree.set l e hf } { d' with tree := d'.tree.set l e hf } := by
  have hregular : ∀ {d : Disk}, d.Regular → InDirectory d.tree l → ¬ d.tree.HasDir l →
      Disk.Regular { d with tree := d.tree.set l e hf } := by
    intro d hd hin hno
    obtain ⟨parent, n, rfl, hp, hn⟩ := hin
    refine ⟨Tree.Grows.regular_set hd.tree hp hn hno hlink hf, ?_⟩
    have hne : parent ++ [n] ≠ d.cwd := fun he => hno (he ▸ hd.cwd)
    exact (Tree.get?_set_of_ne hf hne).trans hd.cwd
  have hno : ¬ d.tree.HasDir l := Tree.Grows.not_hasDir_of_free (hfree.imp_right And.left)
  have hno' : ¬ d'.tree.HasDir l := fun hd => hno (hl.symm.trans hd)
  refine ⟨hregular h.regular hin hno, hregular h.regular' hin' hno', h.cwd, h.cwd', fun k hk => ?_,
    fun k hk => ?_⟩
  · rw [Tree.get?_set _ _ _ _ _ hin.ne_nil, Tree.get?_set _ _ _ _ _ hin.ne_nil, h.get? k hk]
  · rcases hfree with hfree | ⟨hfile, content, executable, rfl⟩
    · rw [Tree.fileNames_set_free hin.ne_nil hfree, Tree.fileNames_set_free hin.ne_nil (hl.trans hfree),
        h.fileNames k hk]
    · obtain ⟨c, x, hc⟩ := hfile
      rw [Tree.fileNames_set_file hin.ne_nil ⟨c, x, hc⟩,
        Tree.fileNames_set_file hin.ne_nil ⟨c, x, hl.trans hc⟩, h.fileNames k hk]

theorem get?_destination {followLast : Bool} {place : Place} (h : Agree here A B d d')
    (hp : ∀ l ∈ p.entered here, A l) (hr : d.resolve p.text followLast = .ok place) :
    d'.tree.get? (p.destination here) = d.tree.get? (p.destination here) := by
  have hr' := (h.resolve hp followLast followLast).trans hr
  have hplace := ((resolve_eq_ok h.regular).mp hr).2.2.2
  rw [((resolve_eq_ok h.regular').mp hr').2.2.2, h.cwd, h.cwd', placeAt, placeAt] at hplace
  cases hd : d.tree.get? (p.destination here) <;> cases hd' : d'.tree.get? (p.destination here) <;>
    simp_all

theorem write (h : Agree here A B d d') (hp : ∀ l ∈ p.entered here, A l) (content : Content) :
    SameOutcome (Agree here A B) (d.write p content) (d'.write p content) := by
  have hw := h.writable hp
  rw [Disk.write, Disk.write, hw]
  cases hd : d.writable p with
  | error cause => rfl
  | ok target =>
    cases target with
    | device device =>
      dsimp only
      rw [writeDevice, writeDevice]
      split
      · rfl
      · exact h
    | file l executable =>
      obtain ⟨rfl, hin, hfree⟩ := writable_file h.regular hd
      obtain ⟨-, hin', -⟩ := writable_file h.regular' (hw.trans hd)
      obtain ⟨place, hr⟩ := exists_of_writable hd
      have hget := h.get?_destination hp hr
      rw [← h.cwd] at hget
      exact h.set hin hin' hget (hfree.imp_right fun hf => ⟨hf, content, executable, rfl⟩) (by simp)
        (by simp)

theorem makeDir (h : Agree here A B d d') (hp : ∀ l ∈ p.entered here, A l) :
    SameOutcome (Agree here A B) (d.makeDir p) (d'.makeDir p) := by
  have hp' : ∀ l ∈ (⟨dropEndSlashes p.text⟩ : Path).entered here, A l := by
    obtain ⟨htrail, hstart⟩ := Path.dropEndSlashes_eq here p.text
    rw [Path.entered, htrail, hstart]
    exact hp
  have hr := h.resolve hp' false false
  rw [Disk.makeDir, Disk.makeDir, hr]
  cases hd : d.resolve (dropEndSlashes p.text) false with
  | error cause => rfl
  | ok place =>
    cases place with
    | taken l e => rfl
    | free l =>
      obtain ⟨-, hfree, hin⟩ := resolve_free (p := ⟨dropEndSlashes p.text⟩) h.regular hd
      obtain ⟨-, hfree', hin'⟩ := resolve_free (p := ⟨dropEndSlashes p.text⟩) h.regular' (hr.trans hd)
      exact h.set hin hin' (hfree'.trans hfree.symm) (.inl hfree) (by simp) (by simp)

theorem makeOrKeep (h : Agree here A B d d') (hp : ∀ l ∈ p.entered here, A l) :
    (d'.makeOrKeep p).1 = (d.makeOrKeep p).1 ∧
      Agree here A B (d.makeOrKeep p).2 (d'.makeOrKeep p).2 := by
  have hm := h.makeDir hp
  rw [Disk.makeOrKeep, Disk.makeOrKeep]
  cases hd : d.makeDir p <;> cases hd' : d'.makeDir p
  · rw [hd, hd'] at hm
    obtain rfl := hm
    dsimp only
    rw [unlessPresent, unlessPresent, h.isDir hp]
    split
    · exact ⟨rfl, h⟩
    · exact ⟨rfl, h⟩
  · rw [hd, hd'] at hm
    exact hm.elim
  · rw [hd, hd'] at hm
    exact hm.elim
  · rw [hd, hd'] at hm
    exact ⟨rfl, hm⟩

theorem makeDirs (h : Agree here A B d d') {paths : List Path}
    (hp : ∀ p ∈ paths, ∀ l ∈ p.entered here, A l) :
    (d'.makeDirs paths).1 = (d.makeDirs paths).1 ∧
      Agree here A B (d.makeDirs paths).2 (d'.makeDirs paths).2 := by
  induction paths generalizing d d' with
  | nil => exact ⟨rfl, h⟩
  | cons p parents ih =>
    obtain ⟨hhead, htail⟩ := List.forall_mem_cons.mp hp
    by_cases htrivial : p.text = "" ∨ p.parent? = none
    · rw [Disk.makeDirs, Disk.makeDirs, if_pos htrivial, if_pos htrivial]
      exact ⟨rfl, h⟩
    · have hm := h.makeDir hhead
      by_cases hd : d.makeDir p = .error .notFound
      · have hd' : d'.makeDir p = .error .notFound := by
          rw [hd] at hm
          cases hd' : d'.makeDir p with
          | ok d₁ => rw [hd'] at hm; exact hm.elim
          | error cause => rw [hd'] at hm; exact congrArg _ hm.symm
        obtain ⟨hresult, hdisk⟩ := ih h htail
        rw [makeDirs_of_notFound htrivial hd, makeDirs_of_notFound htrivial hd']
        generalize d.makeDirs parents = pd at hresult hdisk
        generalize d'.makeDirs parents = pd' at hresult hdisk
        obtain ⟨result, d₁⟩ := pd
        obtain ⟨result', d₁'⟩ := pd'
        obtain rfl : result' = result := hresult
        cases result' with
        | error cause => exact ⟨rfl, hdisk⟩
        | ok _ => exact Agree.makeOrKeep hdisk hhead
      · have hd' : d'.makeDir p ≠ .error .notFound := by
          intro hd'
          rw [hd'] at hm
          cases hd₁ : d.makeDir p with
          | ok d₁ => rw [hd₁] at hm; exact hm.elim
          | error cause => rw [hd₁] at hm; exact hd (hd₁.trans (congrArg _ hm))
        rw [makeDirs_of_ne_notFound htrivial hd, makeDirs_of_ne_notFound htrivial hd']
        exact h.makeOrKeep hhead

theorem makeDirAll (h : Agree here A B d d') (hp : ∀ l ∈ p.entered here, A l) :
    (d'.makeDirAll p).1 = (d.makeDirAll p).1 ∧
      Agree here A B (d.makeDirAll p).2 (d'.makeDirAll p).2 :=
  h.makeDirs fun _ hq l hl => hp l (Path.entered_subset_of_mem_ancestors hq hl)

theorem listFiles (h : Agree here A B d d') (hp : ∀ l ∈ p.entered here, A l)
    (hB : B (p.destination here)) (recursive : Bool) :
    d'.listFiles p recursive = d.listFiles p recursive := by
  rw [listFiles_eq, listFiles_eq, h.entryAt hp false false, h.entryAt hp true true]
  cases d.entryAt p false with
  | error cause => rfl
  | ok _ =>
    cases he : d.entryAt p true with
    | error cause => rfl
    | ok entry =>
      obtain ⟨l, e⟩ := entry
      cases e with
      | directory =>
        have hl : l = p.destination here := by
          rw [← h.cwd]
          exact (resolve_taken h.regular (entryAt_eq_ok.mp he)).1
        dsimp only
        rw [h.fileNames l (hl ▸ hB)]
      | file content executable | link target | device device => rfl

theorem moduleNameOf (h : Agree here A B d d') (hp : ∀ l ∈ p.entered here, A l) :
    moduleNameOf d' p = moduleNameOf d p := by
  have hcwd : ∀ {d : Disk}, d.Regular → d.hasCwd = true := fun hd => by
    simpa [hasCwd, Tree.HasDir] using hd.cwd
  rw [GrammarHeaders.moduleNameOf, GrammarHeaders.moduleNameOf, directoryName, directoryName,
    h.entryAt hp true true, hcwd h.regular, hcwd h.regular']

end Agree

end Disk

section Stages

open Disk (Agree)

variable {here : Location} {A B : Location → Prop} {p : Path}

namespace Action

theorem matches_readText (hp : ∀ l ∈ p.entered here, A l) :
    Stage.Matches (Agree here A B) Eq (readText p) (readText p) := by
  intro s u h
  rw [start_readText, start_readText, h.readText hp]
  cases s.disk.readText p with
  | error cause => exact ⟨rfl, h⟩
  | ok t => exact ⟨rfl, h⟩

theorem matches_writeText (hp : ∀ l ∈ p.entered here, A l) (t : Text) :
    Stage.Matches (Agree here A B) Eq (writeText p t) (writeText p t) := by
  intro s u h
  have hw := h.write hp (.text t)
  rw [writeText, start_change, start_change]
  cases hs : s.disk.write p (.text t) <;> cases hu : u.disk.write p (.text t)
  · rw [hs, hu] at hw
    exact ⟨congrArg _ hw, h⟩
  · rw [hs, hu] at hw
    exact hw.elim
  · rw [hs, hu] at hw
    exact hw.elim
  · rw [hs, hu] at hw
    exact ⟨rfl, hw⟩

theorem matches_updateInPlace {α : Type} (hp : ∀ l ∈ p.entered here, A l) (transform : Text → Text × α) :
    Stage.Matches (Agree here A B) Eq (updateInPlace p transform) (updateInPlace p transform) := by
  refine (matches_readText hp).bind fun before before' he => ?_
  subst he
  dsimp only
  split
  · exact .pure rfl
  · exact (matches_writeText hp _).bind fun _ _ _ => .pure rfl

theorem matches_ensureDirOr (hp : ∀ l ∈ p.entered here, A l) (failure : Path → Cause → Failure) :
    Stage.Matches (Agree here A B) Eq (ensureDirOr failure p) (ensureDirOr failure p) := by
  intro s u h
  rw [start_ensureDirOr, start_ensureDirOr, h.isDir hp]
  split
  · exact ⟨rfl, h⟩
  · obtain ⟨hresult, hdisk⟩ := h.makeDirAll hp
    refine ⟨?_, hdisk⟩
    rw [hresult]
    exact sameOutcome_eq_iff.mpr rfl

end Action

theorem matches_findFiles {ε : Type} (hp : ∀ l ∈ p.entered here, A l) (hB : B (p.destination here))
    (extensions : List String) (recursive : Bool) :
    Stage.Matches (Agree here A B) Eq (findFiles p extensions recursive : Stage ε (List Path))
      (findFiles p extensions recursive) := by
  refine Stage.Matches.disk.bind fun d d' h => ?_
  dsimp only
  rw [h.listFiles hp hB]
  split
  · split
    · exact (Stage.Matches.logAll _ _).bind fun _ _ _ => .pure rfl
    · exact .pure rfl
  · exact (Stage.Matches.log _ _).bind fun _ _ _ => .pure rfl

theorem matches_checkedModuleName (hp : ∀ l ∈ p.entered here, A l) :
    Stage.Matches (Agree here A B) Eq (checkedModuleName p) (checkedModuleName p) := by
  refine Stage.Matches.disk.bind fun d d' h => ?_
  rw [h.moduleNameOf hp]
  dsimp only
  split
  · exact .pure rfl
  · exact .throw

theorem matches_requireDir (hp : ∀ l ∈ p.entered here, A l) :
    Stage.Matches (Agree here A B) Eq (requireDir p) (requireDir p) := by
  refine Stage.Matches.disk.bind fun d d' h => ?_
  rw [h.isDir hp]
  split
  · exact .throw
  · exact .pure rfl

theorem LanguageModule.matches_discover (hp : ∀ l ∈ p.entered here, A l)
    (hsrc : A (p.destination here ++ ["src"])) (hB : B (p.destination here ++ ["src"])) :
    Stage.Matches (Agree here A B) Eq (LanguageModule.discover p) (LanguageModule.discover p) := by
  have hname : IsName "src" := by constructor <;> decide
  have hsource : ∀ l ∈ (p / "src").entered here, A l := by
    intro l hl
    rw [Path.entered_div hname] at hl
    rcases List.mem_append.mp hl with hl | hl
    · exact hp l hl
    · exact List.mem_singleton.mp hl ▸ hsrc
  refine (matches_requireDir hp).bind fun _ _ _ => ?_
  refine (matches_checkedModuleName hp).bind fun name name' hn => ?_
  refine (matches_requireDir hsource).bind fun _ _ _ => ?_
  refine (matches_findFiles hsource (Path.destination_div hname p here ▸ hB) _ _).bind
    fun files files' hfiles => ?_
  subst hn hfiles
  split
  · exact .throw
  · exact .pure rfl

theorem LanguageModule.mem_of_parserFile {m : LanguageModule} {layout : LayoutSettings} {parser : Path}
    (h : m.parserFile layout = .ok parser) : parser ∈ m.sourceFiles := by
  unfold LanguageModule.parserFile at h
  split at h
  · rename_i hf
    exact Except.ok.inj h ▸ List.mem_of_find?_eq_some hf
  · cases h

theorem matches_extractHeader {m : LanguageModule}
    (hm : ∀ file ∈ m.sourceFiles, ∀ l ∈ file.entered here, A l) (config : Config) :
    Stage.Matches (Agree here A B) (fun header header' => header = header' ∧ header.moduleName = m.name)
      (extractHeader m config) (extractHeader m config) := by
  refine (Stage.Matches.ofExcept _).bind fun parser parser' ⟨he, hparser⟩ => ?_
  subst he
  refine (Action.matches_readText (hm _ (m.mem_of_parserFile hparser))).bind fun source source' he => ?_
  subst he
  split
  · exact .throw
  · exact (Stage.Matches.logAll _ _).bind fun _ _ _ => .pure ⟨rfl, rfl⟩

theorem matches_writeLanguageHeader {m : LanguageModule} {out : Path}
    (hm : ∀ file ∈ m.sourceFiles, ∀ l ∈ file.entered here, A l)
    (hdir : ∀ l ∈ (out / m.name).entered here, A l)
    (hpath : ∀ l ∈ (Header.outputPath out m.name).entered here, A l) (config : Config) :
    Stage.Matches (Agree here A B) (fun path path' => path = path' ∧ path = Header.outputPath out m.name)
      (writeLanguageHeader m out config) (writeLanguageHeader m out config) := by
  refine (matches_extractHeader hm config).bind fun header header' ⟨he, hname⟩ => ?_
  subst he
  rw [hname]
  refine Stage.Matches.bind (f := fun dir dir' => dir = dir' ∧ dir = out / m.name) ?_
    fun dir dir' ⟨he, hd⟩ => ?_
  · exact (Action.matches_ensureDirOr hdir _).bind fun _ _ _ => .pure ⟨rfl, rfl⟩
  · subst he hd
    exact (Action.matches_writeText hpath _).bind fun _ _ _ => .pure ⟨rfl, rfl⟩

theorem matches_annotateLanguageHeader (hp : ∀ l ∈ p.entered here, A l) (m : LanguageModule)
    (config : Config) :
    Stage.Matches (Agree here A B) Eq (annotateLanguageHeader m p config)
      (annotateLanguageHeader m p config) := by
  refine (Action.matches_updateInPlace hp _).bind fun result result' he => ?_
  subst he
  exact (Stage.Matches.log _ _).bind fun _ _ _ => .pure rfl

theorem matches_annotateFiles {files : List Path} (hp : ∀ p ∈ files, ∀ l ∈ p.entered here, A l)
    (a : Annotator) :
    Stage.Matches (Agree here A B) Eq (annotateFiles a files) (annotateFiles a files) := by
  induction files with
  | nil => exact .pure rfl
  | cons file rest ih =>
    obtain ⟨hfile, hrest⟩ := List.forall_mem_cons.mp hp
    refine (Action.matches_updateInPlace hfile _).bind fun result result' he => ?_
    subst he
    obtain ⟨updated, prefixed⟩ := result
    have hcont : ∀ k : List Path → List Path, Stage.Matches (Agree here A B) Eq
        (annotateFiles a rest >>= fun changed => pure (k changed))
        (annotateFiles a rest >>= fun changed => pure (k changed)) :=
      fun k => (ih hrest).bind fun changed changed' he => .pure (congrArg k he)
    dsimp only
    split
    · exact (Stage.Matches.log _ _).bind fun _ _ _ => hcont _
    · exact hcont _

end Stages

end GrammarHeaders
