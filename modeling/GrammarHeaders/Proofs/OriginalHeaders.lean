import GrammarHeaders.Proofs.HeaderCopies
import GrammarHeaders.Proofs.Reannotation
import GrammarHeaders.Proofs.Schedules

namespace GrammarHeaders

variable {s t u : Session} {v : Disk} {root : RootLibrary} {out p : Path} {config : Config}
  {l : Location} {content : Content} {executable : Bool} {a : Annotator}
  {result : Except Failure (List Path)}

def copyingDisk (root : RootLibrary) (out : Path) (s : Session) : Disk :=
  (Stage.start (Action.ensureModuleDir out root.name) s).2.disk

theorem Action.keeps_ensureModuleDir (out : Path) (module : String) (s : Session) :
    Disk.Keeps s.disk (Stage.start (ensureModuleDir out module) s).2.disk := by
  have hensure : Disk.Keeps s.disk
      (Stage.start (ensureDirOr .createDirectory (out / module)) s).2.disk := by
    rw [start_ensureDirOr]
    split
    · exact .refl _
    · have hmake : s.disk.makeDirAll (out / module) =
          ((s.disk.makeDirAll (out / module)).1, (s.disk.makeDirAll (out / module)).2) := rfl
      exact Disk.makeDirs_keeps hmake
  rw [ensureModuleDir, Stage.start_bind]
  cases h : Stage.start (ensureDirOr .createDirectory (out / module)) s with
  | mk r t =>
    rw [h] at hensure
    cases r <;> exact hensure

theorem fills_of_exportRootHeaders
    (h : Stage.start (exportRootHeaders root out config) s = (result, u)) :
    Disk.Fills ((copyingDisk root out s).GetsCopy (out / root.name) root.headerFiles)
      (copyingDisk root out s) u.disk := by
  rw [exportRootHeaders, Stage.start_bind] at h
  unfold copyingDisk
  cases hdir : Stage.start (Action.ensureModuleDir out root.name) s with
  | mk r t =>
    rw [hdir] at h
    cases r with
    | error failure =>
      obtain ⟨-, rfl⟩ := Prod.mk.inj h
      exact .refl _ _
    | ok dir =>
      obtain rfl := Action.gives_ensureModuleDir _ _ _ _ _ hdir
      have hcopy : Stage.Preserves
          (Disk.Fills (t.disk.GetsCopy (out / root.name) root.headerFiles) t.disk)
          (copyHeaders (out / root.name) root.headerFiles) :=
        preserves_copyHeaders fun source hsource l hl => ⟨source, hsource, hl⟩
      have hcopies := fun line => (Stage.Reads.log (ε := Failure) line).preserves.bind fun _ =>
        hcopy.bind_of_gives (gives_copies_copyHeaders _ _) fun copies hcopies =>
          (preserves_annotateFiles (a := config.rootAnnotator) fun p hp l hl =>
            (hcopies p hp).getsCopy hl).bind fun _ => (Stage.Reads.pure copies).preserves
      have hu := hcopies (.info
        s!"exporting {root.headerFiles.length} header(s) from {root.includeDir} to {out / root.name}")
        t (.refl _ _)
      dsimp only at h
      rwa [h] at hu

theorem Annotator.text_annotate_nil (a : Annotator) : (a.annotate []).text = [] := by
  have hlines : Text.lines [] = [] := by decide
  have hanchor : a.anchor? (Text.lines []) = none := by
    rw [hlines, anchor?]
    cases a.missingAnchor <;> rfl
  rw [annotate_of_settled hanchor (by simp [hlines])]

/-- What a text that is put in the place of a file comes from: the last header whose copy goes there.
Nothing is left of it if the file is that header. -/
structure CopiedOver (a : Annotator) (v : Disk) (dir : Path) (l : Location) (before : List Path)
    (source : Path) (text : Text) : Prop where
  ofItself : v.location? source = some l → text = []
  ofAnother : ∀ k content executable, k ≠ l →
    v.resolve source.text true = .ok (.taken k (.file content executable)) →
    ¬ v.GetsCopy dir before k →
      ∃ original n, content = .text original ∧
        text = (fun text => (a.annotate text).text)^[n + 1] original

theorem copiedOver_of_copyHeaders {dir source : Path} {sources before after copies changed : List Path}
    (hf : s.disk.tree.get? l = some (.file content executable))
    (hlast : LastCopy s.disk dir sources l before source after)
    (hcopy : Stage.start (copyHeaders dir sources) s = (.ok copies, t))
    (hannotate : Stage.start (annotateFiles a copies) t = (.ok changed, u)) :
    ∃ text mode, u.disk.tree.get? l = some (.file (.text text) mode) ∧
      CopiedOver a s.disk dir l before source text := by
  obtain ⟨d, k, content', mode, hd, hsource, hat, copy, hmem, hlead⟩ :=
    get?_of_copyHeaders hlast (fun device hdevice => by simp [hf] at hdevice) hcopy
  obtain ⟨hnone, -⟩ | ⟨text, n, htext, hend⟩ := get?_of_annotateFiles hat hannotate
  · refine absurd ?_ (hnone copy hmem)
    rw [(fills_of_copyHeaders hcopy).location?_eq, hlead]
  · refine ⟨_, mode, hend, fun hitself => ?_, fun k' original executable' hne hresolve hfree => ?_⟩
    · have hk : d.location? source = some k := by
        rw [Disk.location?, hsource]
        rfl
      obtain rfl : k = l := Option.some.inj (hk.symm.trans ((hd.location?_eq source).trans hitself))
      rw [if_pos rfl] at htext
      rw [← Content.text.inj htext]
      exact Function.iterate_fixed a.text_annotate_nil _
    · have hsame : d.resolve source.text true = .ok (.taken k' (.file original executable')) := by
        rw [hd.resolve_taken (by simp) hresolve, Disk.placeAt_of_get?]
        rw [hd.tree.get?_eq hfree, Disk.get?_of_resolve (by simp) hresolve]
      have hplace := Except.ok.inj (hsource.symm.trans hsame)
      simp only [Disk.Place.taken.injEq, Entry.file.injEq] at hplace
      obtain ⟨rfl, rfl, -⟩ := hplace
      rw [if_neg hne] at htext
      exact ⟨text, n, htext, rfl⟩

/-- An export, also one that fails, leaves every file as it is that no copy goes to, and paths lead
where they have led. If it succeeds, a file that a copy goes to holds what the last of these copies
has put there: nothing if that is the copy of the file itself. -/
theorem originals_kept_or_copied_over (hf : s.disk.tree.get? l = some (.file content executable))
    (h : Stage.start (exportRootHeaders root out config) s = (result, u)) :
    (∀ p : Path, s.disk.resolve p.text true = .ok (.taken l (.file content executable)) →
      ∃ e, u.disk.tree.get? l = some e ∧ u.disk.resolve p.text true = .ok (.taken l e)) ∧
    (¬ (copyingDisk root out s).GetsCopy (out / root.name) root.headerFiles l ∧
        u.disk.tree.get? l = some (.file content executable) ∨
      ∃ before source after,
        LastCopy (copyingDisk root out s) (out / root.name) root.headerFiles l before source after ∧
        ∀ copies, result = .ok copies → ∃ text mode,
          u.disk.tree.get? l = some (.file (.text text) mode) ∧
          CopiedOver config.rootAnnotator (copyingDisk root out s) (out / root.name) l before source text) := by
  have hkeeps : Disk.Keeps s.disk (copyingDisk root out s) := Action.keeps_ensureModuleDir _ _ _
  have hfills := fills_of_exportRootHeaders h
  have hv := hkeeps.tree l _ hf
  refine ⟨fun p hp => ?_, ?_⟩
  · have hu := hfills.resolve_taken (by simp) (hkeeps.resolve hp)
    obtain hsame | ⟨-, -, content', executable', hnew⟩ := hfills.tree l
    · exact ⟨_, hsame.trans hv, hu.trans (by rw [Disk.placeAt_of_get? (hsame.trans hv)])⟩
    · exact ⟨_, hnew, hu.trans (by rw [Disk.placeAt_of_get? hnew])⟩
  · by_cases hcopy : (copyingDisk root out s).GetsCopy (out / root.name) root.headerFiles l
    · obtain ⟨before, source, after, hlast⟩ := hcopy.exists_lastCopy
      refine .inr ⟨before, source, after, hlast, ?_⟩
      rintro copies rfl
      obtain ⟨e, e', c, changed, hensure, he, hcopies, hannotate⟩ := start_exportRootHeaders_eq_ok h
      have hdisk : copyingDisk root out s = e'.disk := by rw [copyingDisk, hensure, he]
      rw [hdisk] at hv hlast ⊢
      exact copiedOver_of_copyHeaders hv hlast hcopies hannotate
    · exact .inl ⟨hcopy, (hfills.tree.get?_eq hcopy).trans hv⟩

def linkedDisk : Disk where
  tree.entries := [(["core"], .directory), (["core", "b.h"], .file (.text "int ts_b(void);\n".toList) false),
    (["core", "core"], .directory),
    (["core", "core", "a.h"], .file (.text "int ts_a(void);\n".toList) false),
    (["h"], .link "core")]

def linkedRoot : RootLibrary := ⟨"core", ⟨"core"⟩, ⟨"core/."⟩, [⟨"core/./b.h"⟩, ⟨"core/./core/a.h"⟩]⟩

theorem originals_kept_or_copied_over_linked :
    ∃ copies u, Stage.start (exportRootHeaders linkedRoot ⟨"h"⟩ (toyOptions []).config) ⟨linkedDisk, [], []⟩ =
        (.ok copies, u) ∧
      u.disk.tree.get? ["core", "b.h"] =
        some (.file (.text "int ts_b(void);\n".toList) false) ∧
      ∃ mode, u.disk.tree.get? ["core", "core", "a.h"] = some (.file (.text []) mode) := by
  have hok : (Stage.start (exportRootHeaders linkedRoot ⟨"h"⟩ (toyOptions []).config) ⟨linkedDisk, [], []⟩).1 =
      .ok [⟨"h/core/b.h"⟩, ⟨"h/core/a.h"⟩] := by decide +kernel
  have ha : linkedDisk.tree.get? ["core", "core", "a.h"] =
      some (.file (.text "int ts_a(void);\n".toList) false) := by decide +kernel
  have hb : linkedDisk.tree.get? ["core", "b.h"] =
      some (.file (.text "int ts_b(void);\n".toList) false) := by decide +kernel
  have hspared : ¬ (copyingDisk linkedRoot ⟨"h"⟩ ⟨linkedDisk, [], []⟩).GetsCopy
      ((⟨"h"⟩ : Path) / "core") linkedRoot.headerFiles ["core", "b.h"] := by decide +kernel
  have hcopied : ∀ source ∈ linkedRoot.headerFiles,
      (copyingDisk linkedRoot ⟨"h"⟩ ⟨linkedDisk, [], []⟩).copyPlace? ((⟨"h"⟩ : Path) / "core") source =
        some ["core", "core", "a.h"] →
      (copyingDisk linkedRoot ⟨"h"⟩ ⟨linkedDisk, [], []⟩).location? source =
        some ["core", "core", "a.h"] := by decide +kernel
  have hgets : (copyingDisk linkedRoot ⟨"h"⟩ ⟨linkedDisk, [], []⟩).GetsCopy
      ((⟨"h"⟩ : Path) / "core") linkedRoot.headerFiles ["core", "core", "a.h"] := by
    decide +kernel
  rcases hrun : Stage.start (exportRootHeaders linkedRoot ⟨"h"⟩ (toyOptions []).config) ⟨linkedDisk, [], []⟩
    with ⟨result, u⟩
  rw [hrun] at hok
  obtain rfl : result = .ok _ := hok
  refine ⟨_, u, rfl, ?_, ?_⟩
  · obtain ⟨-, ⟨-, hkept⟩ | ⟨before, source, after, hlast, -⟩⟩ := originals_kept_or_copied_over hb hrun
    · exact hkept
    · exact absurd ⟨source, by simp [hlast.sources], hlast.place⟩ hspared
  · obtain ⟨-, ⟨hnone, -⟩ | ⟨before, source, after, hlast, hreplaced⟩⟩ :=
      originals_kept_or_copied_over ha hrun
    · exact absurd hgets hnone
    · obtain ⟨text, mode, hnew, htext⟩ := hreplaced _ rfl
      rw [htext.ofItself (hcopied source (by simp [hlast.sources]) hlast.place)] at hnew
      exact ⟨mode, hnew⟩

theorem rootDiscovered_linkedDisk :
    RootDiscovered linkedDisk ⟨"core"⟩ (toyOptions []).config.layout linkedRoot where
  name := by decide +kernel
  isIdentifier := by decide
  repo_eq := rfl
  includeDir := by decide
  isDir := by decide +kernel
  isDir_includeDir := by decide +kernel
  headerFiles := by
    have hlast : linkedDisk.entryAt linkedRoot.includeDir false = .ok (["core"], .directory) := by
      decide +kernel
    have hdir : linkedDisk.entryAt linkedRoot.includeDir true = .ok (["core"], .directory) := by
      decide +kernel
    have hnames : linkedDisk.tree.fileNames ["core"] = [["b.h"], ["core", "a.h"]] := by
      decide +kernel
    have hsorted : Disk.pathsOf linkedRoot.includeDir true [["b.h"], ["core", "a.h"]] =
        linkedRoot.headerFiles := List.mergeSort_of_pairwise (by decide +kernel)
    rw [foundFiles, Disk.listFiles_eq, hlast, hdir]
    dsimp only
    rw [hnames, hsorted]
    decide +kernel
  headerFiles_ne_nil := by decide

/-- An export into the include directory empties the header that is its own copy. -/
theorem empties_original_header : ¬ ∀ (repo out : Path) (config : Config) (s u : Session)
    (root : RootLibrary) (result : Except Failure (List Path)),
    (Stage.start (RootLibrary.discover repo config.layout) s).1 = .ok root →
    Stage.start (exportRootHeaders root out config) s = (result, u) →
    ∀ header ∈ root.headerFiles, u.disk.readContent header = s.disk.readContent header := by
  intro hall
  have hempty : (Stage.start (exportRootHeaders linkedRoot ⟨"h"⟩ (toyOptions []).config)
      ⟨linkedDisk, [], []⟩).2.disk.readContent ⟨"core/./core/a.h"⟩ = .ok (.text []) := by
    decide +kernel
  have hbefore : linkedDisk.readContent ⟨"core/./core/a.h"⟩ =
      .ok (.text "int ts_a(void);\n".toList) := by decide +kernel
  obtain ⟨t, hfound, -⟩ := rootDiscovered_linkedDisk.start_discover (s := ⟨linkedDisk, [], []⟩)
  rcases hrun : Stage.start (exportRootHeaders linkedRoot ⟨"h"⟩ (toyOptions []).config) ⟨linkedDisk, [], []⟩
    with ⟨result, u⟩
  rw [hrun] at hempty
  have hsame := hall ⟨"core"⟩ ⟨"h"⟩ (toyOptions []).config _ u linkedRoot result (congrArg Prod.fst hfound) hrun
    ⟨"core/./core/a.h"⟩ (by simp [linkedRoot])
  rw [hempty, hbefore] at hsame
  exact absurd hsame (by decide +kernel)

end GrammarHeaders
