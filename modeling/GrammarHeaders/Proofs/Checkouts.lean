import GrammarHeaders.Proofs.StageRelations
import Mathlib.Data.List.Nodup

namespace GrammarHeaders

variable {d : Disk} {dir repo p : Path} {n : String} {extensions : List String} {recursive : Bool}
  {s t : Session}

theorem start_requireDir (dir : Path) (s : Session) :
    Stage.start (requireDir dir) s =
      if s.disk.isDir dir then (.ok (), s) else (.error (.directoryNotFound dir), s) := by
  rw [requireDir, Stage.start_bind, Stage.start_disk]
  cases h : s.disk.isDir dir <;> simp [h]

theorem start_checkedModuleName (repo : Path) (s : Session) :
    Stage.start (checkedModuleName repo) s =
      if ModuleName.isIdentifierFragment (moduleNameOf s.disk repo) then
        (.ok (moduleNameOf s.disk repo), s)
      else (.error (.invalidModuleName repo), s) := by
  rw [checkedModuleName, Stage.start_bind, Stage.start_disk]
  dsimp only
  split <;> rfl

theorem reads_findFiles {ε : Type} (dir : Path) (extensions : List String) (recursive : Bool) :
    Stage.Reads (findFiles dir extensions recursive : Stage ε (List Path)) := by
  refine Stage.Reads.disk.bind fun d => ?_
  dsimp only
  split
  · split
    · exact (Stage.Reads.logAll _).bind fun _ => .pure _
    · exact .pure _
  · exact (Stage.Reads.log _).bind fun _ => .pure _

theorem reads_requireDir (dir : Path) : Stage.Reads (requireDir dir) := by
  intro s
  rw [start_requireDir]
  split <;> rfl

theorem reads_checkedModuleName (repo : Path) : Stage.Reads (checkedModuleName repo) := by
  intro s
  rw [start_checkedModuleName]
  split <;> rfl

theorem LanguageModule.reads_discover (repo : Path) : Stage.Reads (LanguageModule.discover repo) := by
  refine (reads_requireDir _).bind fun _ => (reads_checkedModuleName _).bind fun _ =>
    (reads_requireDir _).bind fun _ => (reads_findFiles _ _ _).bind fun files => ?_
  split
  · exact .throw _
  · exact .pure _

theorem RootLibrary.reads_discover (repo : Path) (layout : LayoutSettings) :
    Stage.Reads (RootLibrary.discover repo layout) := by
  refine (reads_requireDir _).bind fun _ => (reads_checkedModuleName _).bind fun _ =>
    (reads_requireDir _).bind fun _ => (reads_findFiles _ _ _).bind fun files => ?_
  split
  · exact .throw _
  · exact .pure _

def foundFiles (d : Disk) (dir : Path) (extensions : List String) (recursive : Bool) : List Path :=
  ((d.listFiles dir recursive).toOption.getD []).filter fun file => hasExtension file extensions

theorem start_findFiles (ε : Type) (dir : Path) (extensions : List String) (recursive : Bool)
    (s : Session) :
    ∃ t, Stage.start (findFiles dir extensions recursive : Stage ε (List Path)) s =
      (.ok (foundFiles s.disk dir extensions recursive), t) ∧ t.disk = s.disk := by
  rw [findFiles, Stage.start_bind, Stage.start_disk, foundFiles]
  dsimp only
  cases s.disk.listFiles dir recursive with
  | ok files =>
    dsimp only
    split
    · exact ⟨_, rfl, rfl⟩
    · exact ⟨s, rfl, rfl⟩
  | error cause => exact ⟨_, rfl, rfl⟩

theorem foundFiles_of_not_isDir (h : ¬ d.isDir dir = true) : foundFiles d dir extensions recursive = [] := by
  rw [foundFiles, Disk.listFiles_eq]
  cases d.entryAt dir false with
  | error cause => rfl
  | ok _ =>
    cases he : d.entryAt dir true with
    | error cause => rfl
    | ok entry =>
      obtain ⟨l, e⟩ := entry
      cases e with
      | file content executable | link target | device device => rfl
      | directory => exact absurd (Disk.isDir_eq_true_iff.mpr ⟨l, Disk.entryAt_eq_ok.mp he⟩) h

theorem foundFiles_eq (hd : d.Regular) (dir : Path) (extensions : List String) (recursive : Bool) :
    foundFiles d dir extensions recursive =
      if d.isDir dir = true then
        (Disk.pathsOf dir recursive (d.tree.fileNames (dir.destination d.cwd))).filter
          fun file => hasExtension file extensions
      else [] := by
  by_cases h : d.isDir dir = true
  · obtain ⟨l, he⟩ := Disk.isDir_eq_true_iff.mp h
    have he' : d.resolve dir.text false = .ok (.taken l .directory) :=
      (Disk.resolve_eq_ok hd).mpr ((Disk.resolve_eq_ok hd).mp he)
    obtain ⟨rfl, -⟩ := Disk.resolve_taken hd he
    rw [if_pos h, foundFiles, Disk.listFiles_eq, Disk.entryAt_eq_ok.mpr he, Disk.entryAt_eq_ok.mpr he']
    rfl
  · rw [if_neg h, foundFiles_of_not_isDir h]

theorem mem_foundFiles {file : Path} (hd : d.Regular) :
    file ∈ foundFiles d dir extensions recursive ↔
      d.isDir dir = true ∧ ∃ names ∈ d.tree.fileNames (dir.destination d.cwd),
        (recursive || names.length == 1) = true ∧ Disk.opens dir names.dropLast = true ∧
          file = names.foldl (· / ·) dir ∧ hasExtension file extensions = true := by
  rw [foundFiles_eq hd]
  split
  · rename_i h
    simp only [h, true_and, List.mem_filter, Disk.pathsOf, List.mem_mergeSort, List.mem_map,
      Bool.and_eq_true]
    constructor
    · rintro ⟨⟨names, ⟨hn, hc, hopens⟩, rfl⟩, hext⟩
      exact ⟨names, hn, hc, hopens, rfl, hext⟩
    · rintro ⟨names, hn, hc, hopens, rfl, hext⟩
      exact ⟨⟨names, ⟨hn, hc, hopens⟩, rfl⟩, hext⟩
  · rename_i h
    simp [h]

theorem hasFile_of_mem_foundFiles (hd : d.Regular) (h : p ∈ foundFiles d dir extensions recursive) :
    dir.destination d.cwd <+: p.destination d.cwd ∧ d.tree.HasFile (p.destination d.cwd) := by
  obtain ⟨-, names, hnames, -, -, rfl, -⟩ := (mem_foundFiles hd).mp h
  obtain ⟨-, content, executable, hfile⟩ := (Tree.mem_fileNames hd.tree).mp hnames
  rw [Path.destination_foldl fun n hn => hd.tree.isName_of_mem hfile hn]
  exact ⟨List.prefix_append _ _, content, executable, hfile⟩

theorem nodup_destinations_foundFiles (hd : d.Regular) (dir : Path) (extensions : List String)
    (recursive : Bool) :
    ((foundFiles d dir extensions recursive).map (Path.destination d.cwd)).Nodup := by
  rw [foundFiles_eq hd]
  split
  · refine (List.filter_sublist.map _).nodup ?_
    rw [Disk.pathsOf, ((List.mergeSort_perm _ _).map _).nodup_iff, List.map_map]
    have hnames : ((d.tree.fileNames (dir.destination d.cwd)).filter fun names =>
        (recursive || names.length == 1) && Disk.opens dir names.dropLast).map
          (Path.destination d.cwd ∘ fun names => names.foldl (· / ·) dir) =
        ((d.tree.fileNames (dir.destination d.cwd)).filter fun names =>
          (recursive || names.length == 1) && Disk.opens dir names.dropLast).map
            (dir.destination d.cwd ++ ·) := by
      refine List.map_congr_left fun names h => ?_
      obtain ⟨-, content, executable, hget⟩ := (Tree.mem_fileNames hd.tree).mp (List.mem_filter.mp h).1
      exact Path.destination_foldl (fun n hn => hd.tree.isName_of_mem hget hn) dir d.cwd
    rw [hnames]
    exact List.Nodup.map_on (fun _ _ _ _ h => List.append_cancel_left h) ((Tree.nodup_fileNames hd.tree _).filter _)
  · exact List.nodup_nil

theorem exists_start_surveyed (repo dir : Path) (extensions : List String) (recursive : Bool) (s : Session) :
    ∃ t, t.disk = s.disk ∧ ∀ {α : Type} (rest : String → List Path → Stage LayoutFault α),
      Stage.start (do
        requireDir repo
        let name ← checkedModuleName repo
        requireDir dir
        let files ← findFiles dir extensions recursive
        rest name files) s =
      if s.disk.isDir repo = true then
        if ModuleName.isIdentifierFragment (moduleNameOf s.disk repo) = true then
          if s.disk.isDir dir = true then
            Stage.start (rest (moduleNameOf s.disk repo) (foundFiles s.disk dir extensions recursive)) t
          else (.error (.directoryNotFound dir), s)
        else (.error (.invalidModuleName repo), s)
      else (.error (.directoryNotFound repo), s) := by
  obtain ⟨t, hfind, ht⟩ := start_findFiles LayoutFault dir extensions recursive s
  refine ⟨t, ht, fun rest => ?_⟩
  rw [Stage.start_bind, start_requireDir]
  by_cases hrepo : s.disk.isDir repo = true
  · rw [if_pos hrepo, if_pos hrepo]
    dsimp only
    rw [Stage.start_bind, start_checkedModuleName]
    by_cases hname : ModuleName.isIdentifierFragment (moduleNameOf s.disk repo) = true
    · rw [if_pos hname, if_pos hname]
      dsimp only
      rw [Stage.start_bind, start_requireDir]
      by_cases hdir : s.disk.isDir dir = true
      · rw [if_pos hdir, if_pos hdir]
        dsimp only
        rw [Stage.start_bind, hfind]
      · rw [if_neg hdir, if_neg hdir]
    · rw [if_neg hname, if_neg hname]
  · rw [if_neg hrepo, if_neg hrepo]

theorem LanguageModule.start_discover (repo : Path) (s : Session) :
    ∃ t, Stage.start (LanguageModule.discover repo) s =
      (if s.disk.isDir repo = true then
        if ModuleName.isIdentifierFragment (moduleNameOf s.disk repo) = true then
          if s.disk.isDir (repo / "src") = true then
            if foundFiles s.disk (repo / "src") sourceExtensions false = [] then
              .error (.sourceFilesNotFound (repo / "src"))
            else .ok ⟨moduleNameOf s.disk repo, repo, repo / "src",
              foundFiles s.disk (repo / "src") sourceExtensions false⟩
          else .error (.directoryNotFound (repo / "src"))
        else .error (.invalidModuleName repo)
      else .error (.directoryNotFound repo), t) := by
  obtain ⟨t, -, hrest⟩ := exists_start_surveyed repo (repo / "src") sourceExtensions false s
  have hstart := hrest fun name files => do
    if files.isEmpty then throw (.sourceFilesNotFound (repo / "src"))
    return (⟨name, repo, repo / "src", files⟩ : LanguageModule)
  change Stage.start (LanguageModule.discover repo) s = _ at hstart
  rw [hstart]
  split
  · split
    · split
      · refine ⟨t, ?_⟩
        cases foundFiles s.disk (repo / "src") sourceExtensions false <;> rfl
      · exact ⟨s, rfl⟩
    · exact ⟨s, rfl⟩
  · exact ⟨s, rfl⟩

theorem LanguageModule.start_discover_eq_ok {m : LanguageModule}
    (h : Stage.start (LanguageModule.discover repo) s = (.ok m, t)) :
    ModuleName.isIdentifierFragment (moduleNameOf s.disk repo) = true ∧ s.disk.isDir repo = true ∧
      s.disk.isDir (repo / "src") = true ∧
      m = ⟨moduleNameOf s.disk repo, repo, repo / "src",
        foundFiles s.disk (repo / "src") sourceExtensions false⟩ := by
  obtain ⟨u, hu⟩ := start_discover repo s
  obtain ⟨h, -⟩ := Prod.mk.inj (hu.symm.trans h)
  split at h
  · rename_i hdir
    split at h
    · rename_i hid
      split at h
      · rename_i hsrc
        split at h
        · cases h
        · exact ⟨hid, hdir, hsrc, (Except.ok.inj h).symm⟩
      · cases h
    · cases h
  · cases h

theorem LanguageModule.name_of_discover {m : LanguageModule}
    (h : Stage.start (LanguageModule.discover repo) s = (.ok m, t)) :
    m.name = moduleNameOf s.disk repo ∧ ModuleName.isIdentifierFragment m.name = true := by
  obtain ⟨hid, -, -, rfl⟩ := start_discover_eq_ok h
  exact ⟨rfl, hid⟩

/-- What a grammar that was discovered has, as its checkout is. -/
structure Discovered (d : Disk) (repo : Path) (m : LanguageModule) : Prop where
  name : m.name = moduleNameOf d repo
  isIdentifier : ModuleName.isIdentifierFragment m.name = true
  isDir : d.isDir repo = true
  sourceDir : d.isDir (repo / "src") = true
  sources : ∀ file ∈ m.sourceFiles, ∃ n, IsName n ∧ file = repo / "src" / n

theorem LanguageModule.discover_eq_ok {m : LanguageModule} (hs : s.disk.Regular)
    (h : Stage.start (LanguageModule.discover repo) s = (.ok m, t)) : Discovered s.disk repo m := by
  obtain ⟨hid, hdir, hsrc, rfl⟩ := start_discover_eq_ok h
  refine ⟨rfl, hid, hdir, hsrc, fun file hf => ?_⟩
  obtain ⟨-, names, hn, hlen, -, rfl, -⟩ := (mem_foundFiles hs).mp hf
  obtain ⟨n, rfl⟩ := List.length_eq_one_iff.mp (by simpa using hlen)
  obtain ⟨-, content, executable, hfile⟩ := (Tree.mem_fileNames hs.tree).mp hn
  exact ⟨n, hs.tree.isName_of_mem hfile List.mem_cons_self, rfl⟩

theorem Path.exists_pieces_of_getLast?_steps {p : Path} {n : String}
    (h : (Disk.steps p.text).getLast? = some n) (hhere : n ≠ ".") :
    n ≠ "" ∧ ∃ front, p.pieces = front ++ [n] := by
  have hpieces : p.pieces = (Text.splitOn '/' p.text.toList).map String.ofList := rfl
  obtain ⟨front, last, hfl⟩ : ∃ front last, p.pieces = front ++ [last] := by
    rcases List.eq_nil_or_concat p.pieces with hnil | ⟨front, last, hfl⟩
    · exact absurd hnil p.pieces_ne_nil
    · exact ⟨front, last, by rw [hfl, List.concat_eq_append]⟩
  unfold Disk.steps at h
  rw [← hpieces, hfl] at h
  dsimp only at h
  split at h
  · rw [List.getLast?_concat] at h
    exact absurd (Option.some.inj h).symm hhere
  · rename_i hc
    by_cases hlast : last = ""
    · subst hlast
      have hempty : (front ++ [""]).filter (fun piece => piece != "") = [] := by simpa using hc
      simp [hempty] at h
    · have hf : (front ++ [last]).filter (fun piece => piece != "") =
          front.filter (fun piece => piece != "") ++ [last] := by
        simp [hlast]
      rw [hf, List.getLast?_concat] at h
      obtain rfl := Option.some.inj h
      exact ⟨hlast, front, hfl⟩

theorem Path.fileName?_of_getLast?_steps {p : Path} {n : String}
    (h : (Disk.steps p.text).getLast? = some n) (hhere : n ≠ ".") (hup : n ≠ "..") :
    p.fileName? = some n := by
  obtain ⟨hempty, front, hp⟩ := exists_pieces_of_getLast?_steps h hhere
  have hcomponent : innerComponent n = .name n := by simp [innerComponent, hup]
  have hinner : ∀ ps, innerComponents (ps ++ [n]) = innerComponents ps ++ [.name n] := fun ps => by
    simp [innerComponents, isIdle, hempty, hhere, hcomponent]
  have hlast : p.components.getLast? = some (.name n) := by
    rw [components, hp]
    cases front with
    | nil => simp [hempty, hcomponent, innerComponents]
    | cons first rest =>
      rw [List.cons_append]
      split
      · rename_i he
        cases he
      · rename_i he
        simp at he
      · rename_i rest' _ he
        rw [← (List.cons.inj he).2, hinner, ← List.cons_append, List.getLast?_concat]
      · rename_i rest' he
        rw [← (List.cons.inj he).2, hinner, ← List.cons_append, List.getLast?_concat]
      · rename_i first' rest' _ _ _ he
        rw [← (List.cons.inj he).2, hinner, ← List.cons_append, List.getLast?_concat]
  rw [fileName?, hlast]

theorem Path.extensionOf?_eq_some_iff {ext : String} : extensionOf? n = some ext ↔
    '.' ∉ ext.toList ∧ ∃ stem, stem ≠ [] ∧ n.toList = stem ++ '.' :: ext.toList := by
  unfold extensionOf?
  dsimp only
  constructor
  · intro h
    split at h
    · rename_i c rest hdrop
      obtain rfl := Option.some.inj h
      have hsplit := List.prefix_iff_eq_append.mp (List.takeWhile_prefix (l := n.toList.reverse) (· != '.'))
      rw [hdrop] at hsplit
      rw [String.toList_ofList]
      refine ⟨fun hdot => ?_, rest.reverse ++ [c], by simp, ?_⟩
      · simpa using List.all_eq_true.mp List.all_takeWhile _ (List.mem_reverse.mp hdot)
      · calc n.toList = n.toList.reverse.reverse := (List.reverse_reverse _).symm
          _ = (n.toList.reverse.takeWhile (· != '.') ++ '.' :: c :: rest).reverse := by rw [hsplit]
          _ = _ := by simp
    · cases h
  · rintro ⟨hdot, stem, hstem, hn⟩
    have hback : n.toList.reverse = ext.toList.reverse ++ '.' :: stem.reverse := by simp [hn]
    have hext : n.toList.reverse.takeWhile (· != '.') = ext.toList.reverse := by
      have hplain : ∀ c ∈ ext.toList.reverse, (c != '.') = true := fun c hc => by
        rw [bne_iff_ne]
        rintro rfl
        exact hdot (List.mem_reverse.mp hc)
      rw [hback, List.takeWhile_append_of_pos hplain]
      simp
    obtain ⟨c, rest, hstem⟩ := List.exists_cons_of_ne_nil (List.reverse_ne_nil_iff.mpr hstem)
    rw [hext, hback, List.drop_left, hstem]
    simp

theorem Path.fileName?_div (hn : IsName n) (p : Path) : (p / n).fileName? = some n := by
  obtain ⟨front, hsteps, -⟩ := steps_div hn p
  exact fileName?_of_getLast?_steps (by rw [hsteps, List.getLast?_concat]) hn.ne_here hn.ne_up

/-- The extension of a name, what comes after its last dot, is one of those listed, once its letters are
small ones. A dot that starts the name starts no extension. -/
def HasListedExtension (extensions : List String) (n : String) : Prop :=
  ∃ stem ext, stem ≠ [] ∧ '.' ∉ ext ∧ n.toList = stem ++ '.' :: ext ∧
    String.ofList (ext.map Char.toLower) ∈ extensions

theorem hasExtension_iff_hasListedExtension (h : p.fileName? = some n) :
    hasExtension p extensions = true ↔ HasListedExtension extensions n := by
  rw [hasExtension, Path.extension?, h, Option.bind_some]
  constructor
  · intro hlisted
    cases he : Path.extensionOf? n with
    | none =>
      rw [he] at hlisted
      cases hlisted
    | some ext =>
      rw [he] at hlisted
      obtain ⟨hdot, stem, hstem, hn⟩ := Path.extensionOf?_eq_some_iff.mp he
      exact ⟨stem, ext.toList, hstem, hdot, hn, List.contains_iff_mem.mp hlisted⟩
  · rintro ⟨stem, ext, hstem, hdot, hn, hlisted⟩
    have he : Path.extensionOf? n = some (String.ofList ext) :=
      Path.extensionOf?_eq_some_iff.mpr ⟨by simpa using hdot, stem, hstem, by simpa using hn⟩
    rw [he]
    exact List.contains_iff_mem.mpr (by simpa using hlisted)

theorem hasExtension_iff (h : p.fileName? = some n)
    (hplain : ∀ ext ∈ extensions, '.' ∉ ext.toList) :
    hasExtension p extensions = true ↔ ∃ stem ext, stem ≠ [] ∧ n.toList = stem ++ '.' :: ext ∧
      String.ofList (ext.map Char.toLower) ∈ extensions := by
  rw [hasExtension_iff_hasListedExtension h]
  constructor
  · rintro ⟨stem, ext, hstem, -, hn, hlisted⟩
    exact ⟨stem, ext, hstem, hn, hlisted⟩
  · rintro ⟨stem, ext, hstem, hn, hlisted⟩
    refine ⟨stem, ext, hstem, fun hmem => hplain _ hlisted ?_, hn, hlisted⟩
    rw [String.toList_ofList]
    exact List.mem_map.mpr ⟨'.', hmem, by decide⟩

theorem isDir_of_fileName?_eq_none {p : Path} {l : Location} {e : Entry} (hd : d.Regular)
    (hp : p.fileName? = none) (h : d.entryAt p true = .ok (l, e)) : d.isDir p = true := by
  rw [Disk.entryAt_eq_ok] at h
  obtain ⟨rfl, he⟩ := Disk.resolve_taken hd h
  obtain ⟨-, -, hcross, -⟩ := (Disk.resolve_eq_ok hd).mp h
  rcases Disk.hasDir_lead_or hd.tree (hd.hasDir_start _) hcross with hdir | ⟨_, n, -, -, hn, hhere, hup⟩
  · rw [Disk.moving_steps] at hdir
    obtain rfl : e = .directory := Option.some.inj (he.symm.trans hdir)
    exact Disk.isDir_eq_true_iff.mpr ⟨_, h⟩
  · rw [Path.fileName?_of_getLast?_steps hn hhere hup] at hp
    cases hp

theorem moduleNameOf_congr {d' : Disk} (hd : d.Regular) (hd' : d'.Regular) (hcwd : d'.cwd = d.cwd)
    (hdir : d'.isDir repo = d.isDir repo) : moduleNameOf d' repo = moduleNameOf d repo := by
  have hplace : ∀ {d : Disk}, d.Regular → d.directoryName repo = repo.fileName?.getD
      (if d.isDir repo then (repo.destination d.cwd).getLast?.getD "" else "") := by
    intro d hd
    rw [Disk.directoryName]
    cases hn : repo.fileName? with
    | some name => rfl
    | none =>
      have hcwd : d.hasCwd = true := by simpa [Disk.hasCwd, Tree.HasDir] using hd.cwd
      cases he : d.entryAt repo true with
      | error cause =>
        have hno : ¬ d.isDir repo = true := by
          rw [Disk.isDir_eq_true_iff]
          rintro ⟨l, hl⟩
          rw [Disk.entryAt_eq_ok.mpr hl] at he
          cases he
        simp [hno]
      | ok entry =>
        obtain ⟨l, e⟩ := entry
        obtain ⟨rfl, -⟩ := Disk.resolve_taken hd (Disk.entryAt_eq_ok.mp he)
        simp [isDir_of_fileName?_eq_none hd hn he, hcwd]
  rw [moduleNameOf, moduleNameOf, hplace hd, hplace hd', hdir, hcwd]

end GrammarHeaders
