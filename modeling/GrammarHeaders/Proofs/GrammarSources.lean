import GrammarHeaders.Proofs.LinkedPaths
import GrammarHeaders.Proofs.PatchedTrees

namespace GrammarHeaders

variable {s t : Session} {d : Disk} {dir repo file : Path} {l : Location} {n : String} {fault : LayoutFault}

/-- A tree as a file system has it, also with links. -/
structure Tree.Proper (t : Tree) : Prop where
  /-- No location has two entries, and the root has none of its own. -/
  nodup : ([] :: t.entries.map Prod.fst).Nodup
  name : ∀ {l n e}, t.get? (l ++ [n]) = some e → IsName n

theorem Tree.Regular.proper {t : Tree} (h : t.Regular) : t.Proper := ⟨h.nodup, h.name⟩

theorem Tree.Proper.of_entries {t : Tree} (hnd : ([] :: t.entries.map Prod.fst).Nodup)
    (h : ∀ entry ∈ t.entries, ∀ n ∈ entry.1.getLast?, IsName n) : t.Proper where
  nodup := hnd
  name he := by
    rw [get?_of_ne_nil (append_name_ne_nil _ _)] at he
    exact h _ (mem_of_find? he) _ (by simp)

namespace Disk

variable {t : Tree} {here : Location} {names : List String} {e : Entry} {p : Path}
  {onLink onLink' : Location → List String → Except Cause Place}

theorem exists_followWith_of_followed
    (hlink : ∀ here names l e, onLink here names = .ok (.taken l e) →
      ∃ k x, onLink' here names = .ok (.taken k x))
    (h : followWith t true onLink here names = .ok (.taken l e)) :
    ∃ k x, followWith t false onLink' here names = .ok (.taken k x) := by
  induction names generalizing here with
  | nil => exact ⟨here, .directory, rfl⟩
  | cons name rest ih =>
    obtain ⟨there, hmove⟩ | hlong | hname := followWith_cons here name rest
    · rw [hmove] at h ⊢
      exact ih h
    · cases (hlong _ _ _).symm.trans h
    · rw [hname, followName] at h ⊢
      cases he : t.get? (here ++ [name]) with
      | none =>
        rw [he] at h
        dsimp only at h
        split at h <;> cases h
      | some next =>
        rw [he] at h
        cases next with
        | directory => exact ih h
        | file content executable | device device =>
          dsimp only at h ⊢
          split at h
          · rename_i hlast
            exact ⟨_, _, if_pos hlast⟩
          · cases h
        | link target =>
          dsimp only at h ⊢
          split
          · exact ⟨_, _, rfl⟩
          · simp only [Bool.not_true, Bool.and_false, Bool.false_eq_true, ↓reduceIte] at h
            split at h
            · cases h
            · rename_i hempty
              rw [if_neg hempty]
              exact hlink _ _ _ _ h

theorem exists_follow_of_followed {links : Nat}
    (h : follow t true links here names = .ok (.taken l e)) :
    ∃ k x, follow t false links here names = .ok (.taken k x) := by
  induction links generalizing here names l e with
  | zero => cases h
  | succ links ih => exact exists_followWith_of_followed (fun _ _ _ _ => ih) h

theorem exists_resolve_of_followed (h : d.resolve p.text true = .ok (.taken l e)) :
    ∃ k x, d.resolve p.text false = .ok (.taken k x) := by
  cases hf : pathFault? p.text with
  | some cause =>
    rw [resolve_of_fault hf] at h
    cases h
  | none =>
    rw [resolve_of_no_fault hf] at h ⊢
    exact exists_followWith_of_followed (fun _ _ _ _ => exists_follow_of_followed) h

theorem pathFault?_of_resolve {followLast : Bool} {place : Place} (h : d.resolve p.text followLast = .ok place) :
    pathFault? p.text = none := by
  cases hf : pathFault? p.text with
  | some cause =>
    rw [resolve_of_fault hf] at h
    cases h
  | none => rfl

end Disk

/-- A name with the extension `c` or `cc`, in any letter case. -/
def IsSourceName (n : String) : Prop :=
  ∃ stem ext, stem ≠ [] ∧ n.toList = stem ++ '.' :: ext ∧
    (ext.map Char.toLower = ['c'] ∨ ext.map Char.toLower = ['c', 'c'])

theorem hasExtension_sourceExtensions_iff {p : Path} (h : p.fileName? = some n) :
    hasExtension p sourceExtensions = true ↔ IsSourceName n := by
  have hlisted : ∀ ext : Text, String.ofList (ext.map Char.toLower) ∈ sourceExtensions ↔
      ext.map Char.toLower = ['c'] ∨ ext.map Char.toLower = ['c', 'c'] := by
    simp [sourceExtensions, ← String.toList_inj]
  rw [hasExtension_iff h (by decide)]
  simp only [hlisted, IsSourceName]

/-- A source right in a directory, by its name: a file, and not a link to one. -/
def HasSource (d : Disk) (dir : Path) (n : String) : Prop :=
  ∃ l, d.resolve dir.text true = .ok (.taken l .directory) ∧ d.tree.HasFile (l ++ [n]) ∧ IsSourceName n

theorem hasSource_iff (hl : d.resolve dir.text true = .ok (.taken l .directory)) :
    HasSource d dir n ↔ d.tree.HasFile (l ++ [n]) ∧ IsSourceName n := by
  constructor
  · rintro ⟨k, hk, h⟩
    obtain ⟨rfl, -⟩ := Disk.Place.taken.inj (Except.ok.inj (hl.symm.trans hk))
    exact h
  · exact fun h => ⟨l, hl, h⟩

theorem mem_fileNames_of_proper {t : Tree} {names : List String} (ht : t.Proper) :
    names ∈ t.fileNames l ↔ names ≠ [] ∧ t.HasFile (l ++ names) := Tree.mem_fileNames_of_nodup ht.nodup

theorem HasSource.isName (hd : d.tree.Proper) (h : HasSource d dir n) : IsName n := by
  obtain ⟨l, -, ⟨content, executable, hfile⟩, -⟩ := h
  exact hd.name hfile

theorem foundFiles_of_resolve (hl : d.resolve dir.text true = .ok (.taken l .directory))
    (extensions : List String) (recursive : Bool) :
    foundFiles d dir extensions recursive =
      (Disk.pathsOf dir recursive (d.tree.fileNames l)).filter fun file => hasExtension file extensions := by
  obtain ⟨k, x, hk⟩ := Disk.exists_resolve_of_followed hl
  rw [foundFiles, Disk.listFiles_eq, Disk.entryAt_eq_ok.mpr hk, Disk.entryAt_eq_ok.mpr hl]
  rfl

theorem mem_foundFiles_sources (hd : d.tree.Proper) (hdir : d.isDir dir = true) :
    file ∈ foundFiles d dir sourceExtensions false ↔ ∃ n, HasSource d dir n ∧ file = dir / n := by
  obtain ⟨l, hl⟩ := Disk.isDir_eq_true_iff.mp hdir
  have hopens : Disk.opens dir [] = true :=
    decide_eq_true (Disk.pathFault?_eq_none.mp (Disk.pathFault?_of_resolve hl)).2.2
  have hname : ∀ n, d.tree.HasFile (l ++ [n]) → (hasExtension (dir / n) sourceExtensions = true ↔ IsSourceName n) :=
    fun n ⟨_, _, hn⟩ => hasExtension_sourceExtensions_iff (Path.fileName?_div (hd.name hn) dir)
  rw [foundFiles_of_resolve hl]
  simp only [List.mem_filter, Disk.pathsOf, List.mem_mergeSort,
    List.mem_map, Bool.false_or, beq_iff_eq, Bool.and_eq_true, mem_fileNames_of_proper hd]
  constructor
  · rintro ⟨⟨names, ⟨⟨-, hfile⟩, hlen, -⟩, rfl⟩, hext⟩
    obtain ⟨n, rfl⟩ := List.length_eq_one_iff.mp hlen
    exact ⟨n, (hasSource_iff hl).mpr ⟨hfile, (hname n hfile).mp hext⟩, rfl⟩
  · rintro ⟨n, hn, rfl⟩
    obtain ⟨hfile, hsource⟩ := (hasSource_iff hl).mp hn
    exact ⟨⟨[n], ⟨⟨by simp, hfile⟩, rfl, hopens⟩, rfl⟩, (hname n hfile).mpr hsource⟩

/-- A name that is not empty and has only letters and digits of ASCII and underscores. -/
def IsFragment (name : String) : Prop := name ≠ "" ∧ ∀ c ∈ name.toList, c.isAlphanum = true ∨ c = '_'

theorem isIdentifierFragment_iff {name : String} :
    ModuleName.isIdentifierFragment name = true ↔ IsFragment name := by
  simp [ModuleName.isIdentifierFragment, IsFragment, Text.isAsciiWord]

/-- What discovery asks of a checkout. -/
structure IsGrammar (d : Disk) (repo : Path) : Prop where
  isDir : d.isDir repo = true
  name : IsFragment (moduleNameOf d repo)
  isDir_sources : d.isDir (repo / "src") = true
  source : ∃ n, HasSource d (repo / "src") n

/-- The first thing that a checkout lacks, as the fault that it is reported by. -/
inductive Lacks (d : Disk) (repo : Path) : LayoutFault → Prop
  | checkout : d.isDir repo = false → Lacks d repo (.directoryNotFound repo)
  | name : d.isDir repo = true → ¬ IsFragment (moduleNameOf d repo) →
      Lacks d repo (.invalidModuleName repo)
  | sourceDir : d.isDir repo = true → IsFragment (moduleNameOf d repo) →
      d.isDir (repo / "src") = false → Lacks d repo (.directoryNotFound (repo / "src"))
  | source : d.isDir repo = true → IsFragment (moduleNameOf d repo) →
      d.isDir (repo / "src") = true → (∀ n, ¬ HasSource d (repo / "src") n) →
      Lacks d repo (.sourceFilesNotFound (repo / "src"))

theorem lacks_or_isGrammar (d : Disk) (repo : Path) : (∃ fault, Lacks d repo fault) ∨ IsGrammar d repo := by
  by_cases hrepo : d.isDir repo = true
  · by_cases hname : IsFragment (moduleNameOf d repo)
    · by_cases hdir : d.isDir (repo / "src") = true
      · by_cases hsource : ∃ n, HasSource d (repo / "src") n
        · exact .inr ⟨hrepo, hname, hdir, hsource⟩
        · exact .inl ⟨_, .source hrepo hname hdir (not_exists.mp hsource)⟩
      · exact .inl ⟨_, .sourceDir hrepo hname (by simpa using hdir)⟩
    · exact .inl ⟨_, .name hrepo hname⟩
  · exact .inl ⟨_, .checkout (by simpa using hrepo)⟩

namespace LanguageModule

theorem foundFiles_ne_nil_iff (hd : d.tree.Proper) (hdir : d.isDir dir = true) :
    foundFiles d dir sourceExtensions false ≠ [] ↔ ∃ n, HasSource d dir n := by
  constructor
  · intro hne
    obtain ⟨file, hfile⟩ := List.exists_mem_of_ne_nil _ hne
    obtain ⟨n, hn, -⟩ := (mem_foundFiles_sources hd hdir).mp hfile
    exact ⟨n, hn⟩
  · rintro ⟨n, hn⟩
    exact List.ne_nil_of_mem ((mem_foundFiles_sources hd hdir).mpr ⟨n, hn, rfl⟩)

theorem start_discover_of_lacks (hs : s.disk.tree.Proper) (h : Lacks s.disk repo fault) :
    ∃ t, Stage.start (discover repo) s = (.error fault, t) := by
  obtain ⟨t, ht⟩ := start_discover repo s
  refine ⟨t, ht.trans ?_⟩
  cases h with
  | checkout hrepo => rw [hrepo, if_neg Bool.false_ne_true]
  | name hrepo hname => rw [if_pos hrepo, if_neg (mt isIdentifierFragment_iff.mp hname)]
  | sourceDir hrepo hname hdir =>
    rw [if_pos hrepo, if_pos (isIdentifierFragment_iff.mpr hname), hdir, if_neg Bool.false_ne_true]
  | source hrepo hname hdir hnone =>
    have hempty : foundFiles s.disk (repo / "src") sourceExtensions false = [] := by
      by_contra hne
      obtain ⟨n, hn⟩ := (foundFiles_ne_nil_iff hs hdir).mp hne
      exact hnone n hn
    rw [if_pos hrepo, if_pos (isIdentifierFragment_iff.mpr hname), if_pos hdir, if_pos hempty]

theorem start_discover_of_isGrammar (hs : s.disk.tree.Proper) (h : IsGrammar s.disk repo) :
    ∃ m t, Stage.start (discover repo) s = (.ok m, t) := by
  obtain ⟨t, ht⟩ := start_discover repo s
  rw [if_pos h.isDir, if_pos (isIdentifierFragment_iff.mpr h.name), if_pos h.isDir_sources,
    if_neg ((foundFiles_ne_nil_iff hs h.isDir_sources).mpr h.source)] at ht
  exact ⟨_, t, ht⟩

theorem parserFile_eq_ok_iff {m : LanguageModule} {layout : LayoutSettings} {parser : Path}
    (hs : s.disk.tree.Proper) (h : Stage.start (discover repo) s = (.ok m, t)) :
    m.parserFile layout = .ok parser ↔
      HasSource s.disk (repo / "src") layout.parserFile ∧ parser = repo / "src" / layout.parserFile := by
  obtain ⟨-, -, hdir, rfl⟩ := start_discover_eq_ok h
  have hmem (file : Path) : file ∈ foundFiles s.disk (repo / "src") sourceExtensions false ↔
      ∃ n, HasSource s.disk (repo / "src") n ∧ file = repo / "src" / n := mem_foundFiles_sources hs hdir
  rw [parserFile]
  dsimp only
  cases hf : (foundFiles s.disk (repo / "src") sourceExtensions false).find? fun file =>
      file.fileName? == some layout.parserFile with
  | none =>
    simp only [reduceCtorEq, false_iff, not_and]
    intro hsource
    have hne := List.find?_eq_none.mp hf _ ((hmem _).mpr ⟨_, hsource, rfl⟩)
    rw [Path.fileName?_div (hsource.isName hs)] at hne
    simp at hne
  | some file =>
    obtain ⟨n, hsource, rfl⟩ := (hmem file).mp (List.mem_of_find?_eq_some hf)
    have hname := List.find?_some hf
    rw [Path.fileName?_div (hsource.isName hs), beq_iff_eq] at hname
    obtain rfl := Option.some.inj hname
    simp [hsource, eq_comm]

theorem parserFile_eq_error {m : LanguageModule} {layout : LayoutSettings}
    (hs : s.disk.tree.Proper) (h : Stage.start (discover repo) s = (.ok m, t))
    (hno : ¬ HasSource s.disk (repo / "src") layout.parserFile) :
    m.parserFile layout = .error (.parserFileNotFound layout.parserFile (repo / "src")) := by
  obtain ⟨-, -, -, hm⟩ := start_discover_eq_ok h
  cases hp : m.parserFile layout with
  | ok parser => exact absurd ((parserFile_eq_ok_iff hs h).mp hp).1 hno
  | error failure =>
    rw [parserFile] at hp
    split at hp
    · cases hp
    · rw [← Except.error.inj hp, hm]

end LanguageModule

/-- Discovery succeeds just if a checkout has all that is asked of it, and fails just by the first thing
that it lacks. In a grammar that was discovered the parser is found just if it is one of the sources. -/
theorem discovery_decides (hs : s.disk.tree.Proper) (repo : Path) :
    ((∃ m t, Stage.start (LanguageModule.discover repo) s = (.ok m, t)) ↔ IsGrammar s.disk repo) ∧
    (∀ fault, (∃ t, Stage.start (LanguageModule.discover repo) s = (.error fault, t)) ↔
      Lacks s.disk repo fault) ∧
    ∀ m t, Stage.start (LanguageModule.discover repo) s = (.ok m, t) → ∀ layout : LayoutSettings,
      (∀ parser, m.parserFile layout = .ok parser ↔
        HasSource s.disk (repo / "src") layout.parserFile ∧ parser = repo / "src" / layout.parserFile) ∧
      (¬ HasSource s.disk (repo / "src") layout.parserFile →
        m.parserFile layout = .error (.parserFileNotFound layout.parserFile (repo / "src"))) := by
  refine ⟨⟨?_, LanguageModule.start_discover_of_isGrammar hs⟩,
    fun fault => ⟨?_, LanguageModule.start_discover_of_lacks hs⟩, fun m t h layout =>
    ⟨fun parser => LanguageModule.parserFile_eq_ok_iff hs h, LanguageModule.parserFile_eq_error hs h⟩⟩
  · rintro ⟨m, t, h⟩
    obtain ⟨fault, hlacks⟩ | hgrammar := lacks_or_isGrammar s.disk repo
    · obtain ⟨u, hu⟩ := LanguageModule.start_discover_of_lacks hs hlacks
      cases h.symm.trans hu
    · exact hgrammar
  · rintro ⟨t, h⟩
    obtain ⟨fault', hlacks⟩ | hgrammar := lacks_or_isGrammar s.disk repo
    · obtain ⟨u, hu⟩ := LanguageModule.start_discover_of_lacks hs hlacks
      obtain ⟨he, -⟩ := Prod.mk.inj (h.symm.trans hu)
      exact Except.error.inj he ▸ hlacks
    · obtain ⟨m, u, hu⟩ := LanguageModule.start_discover_of_isGrammar hs hgrammar
      cases h.symm.trans hu

/-- A grammar whose parser is a link to the one in a folder below, beside a source in capitals and a
folder that is called like a source. -/
def mixedDisk : Disk where
  tree.entries := [(["json"], .directory), (["json", "src"], .directory),
    (["json", "src", "parser.c"], .link "c/parser.c"),
    (["json", "src", "scanner.CC"], .file (.text []) false),
    (["json", "src", "folder.c"], .directory), (["json", "src", "c"], .directory),
    (["json", "src", "c", "parser.c"], .file (.text []) false)]

theorem discovery_decides_mixed :
    mixedDisk.tree.Proper ∧
    (∃ m t, Stage.start (LanguageModule.discover ⟨"json"⟩) ⟨mixedDisk, [], []⟩ = (.ok m, t) ∧
      m.parserFile {} = .error (.parserFileNotFound "parser.c" ⟨"json/src"⟩) ∧
      m.parserFile { parserFile := "folder.c" } =
        .error (.parserFileNotFound "folder.c" ⟨"json/src"⟩) ∧
      m.parserFile { parserFile := "scanner.CC" } = .ok ⟨"json/src/scanner.CC"⟩) ∧
    ∃ t, Stage.start (LanguageModule.discover ⟨"json/src"⟩) ⟨mixedDisk, [], []⟩ =
      (.error (.directoryNotFound ⟨"json/src/src"⟩), t) := by
  have hs : mixedDisk.tree.Proper := .of_entries (by decide +kernel) (by decide +kernel)
  have hl : mixedDisk.resolve "json/src" true = .ok (.taken ["json", "src"] .directory) := by
    decide +kernel
  have hscanner : HasSource mixedDisk ⟨"json/src"⟩ "scanner.CC" :=
    (hasSource_iff hl).mpr ⟨⟨_, _, rfl⟩, ['s', 'c', 'a', 'n', 'n', 'e', 'r'], ['C', 'C'], by decide,
      by decide, .inr (by decide)⟩
  have hparser : ¬ HasSource mixedDisk ⟨"json/src"⟩ "parser.c" := fun h => by
    obtain ⟨_, _, hfile⟩ := ((hasSource_iff hl).mp h).1
    cases hfile
  have hfolder : ¬ HasSource mixedDisk ⟨"json/src"⟩ "folder.c" := fun h => by
    obtain ⟨_, _, hfile⟩ := ((hasSource_iff hl).mp h).1
    cases hfile
  obtain ⟨succeeds, -, lookup⟩ := discovery_decides (s := ⟨mixedDisk, [], []⟩) hs ⟨"json"⟩
  obtain ⟨-, fails, -⟩ := discovery_decides (s := ⟨mixedDisk, [], []⟩) hs ⟨"json/src"⟩
  obtain ⟨m, t, h⟩ := succeeds.mpr
    ⟨by decide +kernel, isIdentifierFragment_iff.mp (by decide +kernel), by decide +kernel,
      "scanner.CC", hscanner⟩
  refine ⟨hs, ⟨m, t, h, (lookup m t h {}).2 hparser, (lookup m t h _).2 hfolder,
    ((lookup m t h _).1 _).mpr ⟨hscanner, rfl⟩⟩, (fails _).mpr ?_⟩
  exact .sourceDir (by decide +kernel) (isIdentifierFragment_iff.mp (by decide +kernel))
    (by decide +kernel)

end GrammarHeaders
