import GrammarHeaders.Proofs.GrammarSources
import GrammarHeaders.Proofs.PathOrder
import GrammarHeaders.Proofs.PathsBelow

namespace GrammarHeaders

/-- A tree as a file system has it, also with links, where every entry is in a directory. -/
structure Tree.Grounded (t : Tree) : Prop extends t.Proper where
  parent : ∀ {l n e}, t.get? (l ++ [n]) = some e → t.HasDir l

namespace Tree

variable {t t' : Tree} {l : Location} {names : List String} {n : String} {e : Entry}

theorem Grounded.of_entries (hnd : ([] :: t.entries.map Prod.fst).Nodup)
    (h : ∀ entry ∈ t.entries, t.get? entry.1.dropLast = some .directory ∧ ∀ n ∈ entry.1.getLast?, IsName n) :
    t.Grounded where
  toProper := .of_entries hnd fun entry hmem => (h entry hmem).2
  parent he := by
    rw [get?_of_ne_nil (append_name_ne_nil _ _)] at he
    simpa [HasDir] using (h _ (mem_of_find? he)).1

theorem get?_of_perm (hnd : ([] :: t.entries.map Prod.fst).Nodup) (h : t'.entries.Perm t.entries) :
    t'.get? l = t.get? l := by
  by_cases hl : l = []
  · rw [hl]
    rfl
  have hkeys := (List.nodup_cons.mp hnd).2
  rw [get?_of_ne_nil hl, get?_of_ne_nil hl]
  cases he : find? l t.entries with
  | none =>
    rw [find?_eq_none_iff] at he ⊢
    exact fun hmem => he ((h.map Prod.fst).mem_iff.mp hmem)
  | some e => exact find?_of_mem ((h.map Prod.fst).nodup_iff.mpr hkeys) (h.mem_iff.mpr (mem_of_find? he))

theorem Grounded.of_perm (ht : t.Grounded) (h : t'.entries.Perm t.entries) : t'.Grounded where
  nodup := ((h.map Prod.fst).cons []).nodup_iff.mpr ht.nodup
  name he := ht.name (get?_of_perm ht.nodup h ▸ he)
  parent he := (get?_of_perm ht.nodup h).trans (ht.parent (get?_of_perm ht.nodup h ▸ he))

end Tree

namespace Path

variable {dir : Path} {as bs : List String}

theorem components_foldl (hdir : dir.text ≠ "") {names : List String} (hn : ∀ n ∈ names, IsName n) :
    (names.foldl (· / ·) dir).components = dir.components ++ names.map .name := by
  induction names generalizing dir with
  | nil => simp
  | cons n names ih =>
    obtain ⟨hn, hnames⟩ := List.forall_mem_cons.mp hn
    rw [List.foldl_cons, ih (text_div_ne_empty hn dir) hnames, components_div hdir hn, List.append_assoc]
    rfl

theorem compareComponents_append (front as bs : List Component) :
    compareComponents (front ++ as) (front ++ bs) = compareComponents as bs := by
  induction front with
  | nil => rfl
  | cons c front ih =>
    have hc : c.compare c = .eq := Std.ReflCmp.compare_self
    rw [List.cons_append, List.cons_append, compareComponents, hc, ih]
    rfl

theorem compareComponents_names :
    compareComponents (as.map .name) (bs.map .name) = .lt ↔ as < bs := by
  induction as generalizing bs with
  | nil => cases bs <;> simp [compareComponents]
  | cons a as ih =>
    cases bs with
    | nil => simp [compareComponents]
    | cons b bs =>
      have hlt : compare a b = .lt ↔ a < b := compareOfLessAndEq_eq_lt
      rw [List.map_cons, List.map_cons, compareComponents, Ordering.then_eq_lt, ih, List.cons_lt_cons_iff]
      show compare a b = .lt ∨ compare a b = .eq ∧ as < bs ↔ _
      rw [hlt, Std.compare_eq_iff_eq]

end Path

variable {s : Session} {d d' : Disk} {dir : Path} {extensions : List String} {recursive : Bool} {l : Location}
  {names : List String}

/-- What a walk is to find. The names lead from the directory to a file, at the right depth and with an
extension that is listed. -/
structure Sought (d : Disk) (dir : Path) (extensions : List String) (recursive : Bool) (names : List String) :
    Prop where
  file : ∃ l, d.resolve dir.text true = .ok (.taken l .directory) ∧ names ≠ [] ∧ d.tree.HasFile (l ++ names)
  depth : recursive = false → names.length = 1
  extension : ∀ n ∈ names.getLast?, HasListedExtension extensions n

/-- A walk below the directory comes to every entry there, since no folder with something in it has a path that is
too long. -/
def Disk.WalksAll (d : Disk) (dir : Path) : Prop :=
  ∀ l, d.resolve dir.text true = .ok (.taken l .directory) → ∀ names e, names ≠ [] →
    d.tree.get? (l ++ names) = some e → opens dir names.dropLast = true

theorem Tree.Grounded.isName_of_hasFile {t : Tree} (ht : t.Grounded) (h : t.HasFile (l ++ names)) :
    ∀ n ∈ names, IsName n := by
  obtain ⟨content, executable, hget⟩ := h
  exact fun n hn => Tree.isName_of_mem_of_parent ht.parent ht.name hget hn

/-- The names of the files that a walk finds below a directory, in the order of their paths. -/
def walkedNames (d : Disk) (l : Location) (dir : Path) (extensions : List String) (recursive : Bool) :
    List (List String) :=
  (((d.tree.fileNames l).filter fun names =>
      (recursive || names.length == 1) && Disk.opens dir names.dropLast).mergeSort
    fun as bs => (as.foldl (· / ·) dir).le (bs.foldl (· / ·) dir)).filter
    fun names => hasExtension (names.foldl (· / ·) dir) extensions

theorem foundFiles_eq_map (hl : d.resolve dir.text true = .ok (.taken l .directory)) :
    foundFiles d dir extensions recursive =
      (walkedNames d l dir extensions recursive).map fun names => names.foldl (· / ·) dir := by
  have hsort (walk : List (List String)) :
      (walk.mergeSort fun as bs => (as.foldl (· / ·) dir).le (bs.foldl (· / ·) dir)).map
          (fun names => names.foldl (· / ·) dir) =
        (walk.map fun names => names.foldl (· / ·) dir).mergeSort Path.le :=
    List.map_mergeSort fun _ _ _ _ => rfl
  rw [foundFiles_of_resolve hl, Disk.pathsOf, walkedNames, ← hsort, List.filter_map]
  rfl

theorem mem_walkedNames_iff (hd : d.tree.Grounded) (hl : d.resolve dir.text true = .ok (.taken l .directory)) :
    names ∈ walkedNames d l dir extensions recursive ↔
      Sought d dir extensions recursive names ∧ Disk.opens dir names.dropLast = true := by
  have hext : d.tree.HasFile (l ++ names) → names ≠ [] →
      (hasExtension (names.foldl (· / ·) dir) extensions = true ↔
        ∀ n ∈ names.getLast?, HasListedExtension extensions n) := by
    intro hfile hne
    obtain ⟨front, n, rfl⟩ := (List.eq_nil_or_concat names).resolve_left hne
    rw [List.concat_eq_append] at hfile ⊢
    have hname := hd.isName_of_hasFile hfile n (by simp)
    rw [List.foldl_append, List.foldl_cons, List.foldl_nil,
      hasExtension_iff_hasListedExtension (Path.fileName?_div hname _)]
    simp
  simp only [walkedNames, List.mem_filter, List.mem_mergeSort, mem_fileNames_of_proper hd.toProper,
    Bool.and_eq_true, Bool.or_eq_true, beq_iff_eq]
  constructor
  · rintro ⟨⟨⟨hne, hfile⟩, hdepth, hopens⟩, hlisted⟩
    exact ⟨⟨⟨l, hl, hne, hfile⟩, fun hr => hdepth.resolve_left (by simp [hr]), (hext hfile hne).mp hlisted⟩, hopens⟩
  · rintro ⟨⟨⟨k, hk, hne, hfile⟩, hdepth, hlisted⟩, hopens⟩
    obtain ⟨rfl, -⟩ := Disk.Place.taken.inj (Except.ok.inj (hl.symm.trans hk))
    refine ⟨⟨⟨hne, hfile⟩, ?_, hopens⟩, (hext hfile hne).mpr hlisted⟩
    cases recursive with
    | true => exact .inl rfl
    | false => exact .inr (hdepth rfl)

theorem compareComponents_foldl {as bs : List String} (hdir : dir.text ≠ "") (ha : ∀ n ∈ as, IsName n)
    (hb : ∀ n ∈ bs, IsName n) :
    Path.compareComponents (as.foldl (· / ·) dir).components (bs.foldl (· / ·) dir).components = .lt ↔ as < bs := by
  rw [Path.components_foldl hdir ha, Path.components_foldl hdir hb, Path.compareComponents_append,
    Path.compareComponents_names]

theorem pairwise_le_walkedNames :
    (walkedNames d l dir extensions recursive).Pairwise
      fun as bs => (as.foldl (· / ·) dir).le (bs.foldl (· / ·) dir) = true := by
  have htrans : ∀ as bs cs : List String, (as.foldl (· / ·) dir).le (bs.foldl (· / ·) dir) = true →
      (bs.foldl (· / ·) dir).le (cs.foldl (· / ·) dir) = true →
      (as.foldl (· / ·) dir).le (cs.foldl (· / ·) dir) = true :=
    fun _ _ _ h h' => Path.le_trans h h'
  rw [walkedNames]
  exact (List.pairwise_mergeSort htrans (fun _ _ => Path.le_total _ _) _).filter _

theorem nodup_walkedNames (hnd : ([] :: d.tree.entries.map Prod.fst).Nodup) :
    (walkedNames d l dir extensions recursive).Nodup := by
  rw [walkedNames]
  exact ((List.mergeSort_perm _ _).nodup_iff.mpr ((Tree.nodup_fileNames_of_nodup hnd l).filter _)).filter _

theorem pairwise_walkedNames (hd : d.tree.Grounded) (hl : d.resolve dir.text true = .ok (.taken l .directory)) :
    (walkedNames d l dir extensions recursive).Pairwise (· < ·) := by
  have hdir : dir.text ≠ "" := (Disk.pathFault?_eq_none.mp (Disk.pathFault?_of_resolve hl)).2.1
  have hnames : ∀ as ∈ walkedNames d l dir extensions recursive, ∀ n ∈ as, IsName n := fun as has => by
    obtain ⟨k, -, -, hfile⟩ := ((mem_walkedNames_iff hd hl).mp has).1.file
    exact hd.isName_of_hasFile hfile
  refine (pairwise_le_walkedNames.and (nodup_walkedNames hd.nodup)).imp_of_mem fun {as bs} ha hb hab => ?_
  obtain ⟨hle, hne⟩ := hab
  refine (compareComponents_foldl hdir (hnames as ha) (hnames bs hb)).mp ?_
  cases hc : Path.compareComponents (as.foldl (· / ·) dir).components (bs.foldl (· / ·) dir).components with
  | lt => rfl
  | eq =>
    have hsame := Path.compareComponents_eq_eq_iff.mp hc
    rw [Path.components_foldl hdir (hnames as ha), Path.components_foldl hdir (hnames bs hb)] at hsame
    have hinj : Function.Injective Path.Component.name := fun _ _ h => Path.Component.name.inj h
    exact absurd (hinj.list_map (List.append_cancel_left hsame)) hne
  | gt =>
    rw [Path.le, hc] at hle
    cases hle

theorem eq_of_pairwise_lt {walk walk' : List (List String)} (h : walk.Pairwise (· < ·))
    (h' : walk'.Pairwise (· < ·)) (hmem : ∀ names, names ∈ walk ↔ names ∈ walk') : walk = walk' := by
  have hnodup {walk : List (List String)} (h : walk.Pairwise (· < ·)) : walk.Nodup :=
    h.imp fun {as bs} hlt => by
      rintro rfl
      exact List.lt_irrefl as hlt
  exact List.Perm.eq_of_pairwise (fun _ _ _ _ hlt hgt => absurd hgt (List.lt_asymm hlt)) h h'
    ((List.perm_ext_iff_of_nodup (hnodup h) (hnodup h')).mpr hmem)

theorem exists_walk (hd : d.tree.Grounded) (dir : Path) (extensions : List String) (recursive : Bool) :
    ∃ walk : List (List String),
      foundFiles d dir extensions recursive = walk.map (fun names => names.foldl (· / ·) dir) ∧
      (∀ names, names ∈ walk ↔
        Sought d dir extensions recursive names ∧ Disk.opens dir names.dropLast = true) ∧
      walk.Pairwise (· < ·) := by
  by_cases hdir : d.isDir dir = true
  · obtain ⟨l, hl⟩ := Disk.isDir_eq_true_iff.mp hdir
    exact ⟨_, foundFiles_eq_map hl, fun _ => mem_walkedNames_iff hd hl, pairwise_walkedNames hd hl⟩
  · refine ⟨[], foundFiles_of_not_isDir hdir, fun names => ?_, .nil⟩
    simp only [List.not_mem_nil, false_iff, not_and]
    rintro ⟨⟨l, hl, -⟩, -, -⟩
    exact absurd (Disk.isDir_eq_true_iff.mpr ⟨l, hl⟩) hdir

theorem Sought.of_perm (hnd : ([] :: d.tree.entries.map Prod.fst).Nodup) (hcwd : d'.cwd = d.cwd)
    (h : d'.tree.entries.Perm d.tree.entries) (hn : Sought d dir extensions recursive names) :
    Sought d' dir extensions recursive names where
  file := by
    obtain ⟨l, hl, hne, content, executable, hfile⟩ := hn.file
    have hkeeps : Disk.Keeps d d' := ⟨hcwd, fun k e hk => (Tree.get?_of_perm hnd h).trans hk⟩
    exact ⟨l, hkeeps.resolve hl, hne, content, executable, (Tree.get?_of_perm hnd h).trans hfile⟩
  depth := hn.depth
  extension := hn.extension

/-- The files that are found below a directory are just the files there that are sought, each of them once
and in the order of paths. A folder is passed over only if it cannot be opened. The order in which entries
are listed makes no difference. -/
theorem findFiles_lists_exactly {ε : Type} (hs : s.disk.tree.Grounded) (dir : Path) (extensions : List String)
    (recursive : Bool) :
    ∃ (walk : List (List String)) (t : Session),
      Stage.start (findFiles dir extensions recursive : Stage ε (List Path)) s =
        (.ok (walk.map fun names => names.foldl (· / ·) dir), t) ∧
      (∀ names, names ∈ walk ↔
        Sought s.disk dir extensions recursive names ∧ Disk.opens dir names.dropLast = true) ∧
      (s.disk.WalksAll dir → ∀ names, names ∈ walk ↔ Sought s.disk dir extensions recursive names) ∧
      walk.Pairwise (· < ·) ∧
      (walk.map fun names => names.foldl (· / ·) dir).Pairwise
        (fun p q => Path.compareComponents p.components q.components = .lt) ∧
      ∀ s' : Session, s'.disk.cwd = s.disk.cwd → s'.disk.tree.entries.Perm s.disk.tree.entries →
        ∃ t', Stage.start (findFiles dir extensions recursive : Stage ε (List Path)) s' =
          (.ok (walk.map fun names => names.foldl (· / ·) dir), t') := by
  obtain ⟨walk, hwalk, hmem, hpairwise⟩ := exists_walk hs dir extensions recursive
  obtain ⟨t, ht, -⟩ := start_findFiles ε dir extensions recursive s
  rw [hwalk] at ht
  refine ⟨walk, t, ht, hmem, fun hall names => ?_, hpairwise, ?_, fun s' hcwd hperm => ?_⟩
  · rw [hmem]
    refine and_iff_left_of_imp fun hn => ?_
    obtain ⟨l, hl, hne, content, executable, hfile⟩ := hn.file
    exact hall l hl names _ hne hfile
  · rw [List.pairwise_map]
    refine hpairwise.imp_of_mem fun {as bs} ha hb hlt => ?_
    obtain ⟨l, hl, -, hfile⟩ := ((hmem as).mp ha).1.file
    obtain ⟨k, hk, -, hfile'⟩ := ((hmem bs).mp hb).1.file
    have hdir : dir.text ≠ "" := (Disk.pathFault?_eq_none.mp (Disk.pathFault?_of_resolve hl)).2.1
    exact (compareComponents_foldl hdir (hs.isName_of_hasFile hfile) (hs.isName_of_hasFile hfile')).mpr hlt
  · obtain ⟨walk', hwalk', hmem', hpairwise'⟩ := exists_walk (hs.of_perm hperm) dir extensions recursive
    obtain ⟨t', ht', -⟩ := start_findFiles ε dir extensions recursive s'
    have hsame : walk' = walk := by
      refine eq_of_pairwise_lt hpairwise' hpairwise fun names => ?_
      rw [hmem, hmem']
      refine and_congr_left fun _ => ⟨fun hn => ?_, fun hn => ?_⟩
      · exact hn.of_perm (hs.of_perm hperm).nodup hcwd.symm hperm.symm
      · exact hn.of_perm hs.nodup hcwd hperm
    rw [hwalk', hsame] at ht'
    exact ⟨t', ht'⟩

/-- Headers at two depths, beside a link to one, a folder that is called like one and a file whose name
is only an extension. The dash is before the slash in the order of characters. -/
def dashedDisk : Disk where
  tree.entries := [(["b"], .directory), (["b", "a-b.H"], .file (.text []) false), (["b", "a"], .directory),
    (["b", "a", "x.h"], .file (.text []) false), (["b", "l.h"], .link "a/x.h"), (["b", "f.h"], .directory),
    (["b", "f.h", "y.Hpp"], .file (.text []) false), (["b", ".h"], .file (.text []) false)]

theorem findFiles_lists_exactly_dashed :
    dashedDisk.tree.Grounded ∧ dashedDisk.WalksAll ⟨"b"⟩ ∧
    ∀ tree : Tree, tree.entries.Perm dashedDisk.tree.entries →
      ∃ t, Stage.start (findFiles ⟨"b"⟩ headerExtensions true : Action (List Path)) ⟨⟨tree, []⟩, [], []⟩ =
        (.ok [⟨"b/a/x.h"⟩, ⟨"b/a-b.H"⟩, ⟨"b/f.h/y.Hpp"⟩], t) := by
  have hs : dashedDisk.tree.Grounded := .of_entries (by decide +kernel) (by decide +kernel)
  have hl : dashedDisk.resolve "b" true = .ok (.taken ["b"] .directory) := by decide +kernel
  have hfiles : dashedDisk.tree.fileNames ["b"] = [["a-b.H"], ["a", "x.h"], ["f.h", "y.Hpp"], [".h"]] := by
    decide +kernel
  obtain ⟨walk, -, -, hmem, -, hpairwise, -, hsame⟩ :=
    findFiles_lists_exactly (ε := Failure) (s := ⟨dashedDisk, [], []⟩) hs ⟨"b"⟩ headerExtensions true
  have hwalk : walk = [["a", "x.h"], ["a-b.H"], ["f.h", "y.Hpp"]] := by
    refine eq_of_pairwise_lt hpairwise (by decide +kernel) fun names => ?_
    rw [hmem, ← mem_walkedNames_iff hs hl]
    simp only [walkedNames, List.mem_filter, List.mem_mergeSort, hfiles, List.mem_cons, List.not_mem_nil, or_false]
    constructor
    · rintro ⟨⟨rfl | rfl | rfl | rfl, -⟩, hlisted⟩
      · exact .inr (.inl rfl)
      · exact .inl rfl
      · exact .inr (.inr rfl)
      · exact absurd hlisted (by decide +kernel)
    · rintro (rfl | rfl | rfl) <;> decide +kernel
  refine ⟨hs, fun l hl' names e hne he => ?_, fun tree htree => ?_⟩
  · obtain ⟨rfl, -⟩ := Disk.Place.taken.inj (Except.ok.inj (hl.symm.trans hl'))
    rw [Tree.get?_of_ne_nil (by simp)] at he
    have hall : ∀ entry ∈ dashedDisk.tree.entries, Disk.opens ⟨"b"⟩ (entry.1.drop 1).dropLast = true := by
      decide +kernel
    exact hall _ (Tree.mem_of_find? he)
  · obtain ⟨t, ht⟩ := hsame ⟨⟨tree, []⟩, [], []⟩ rfl htree
    rw [hwalk] at ht
    exact ⟨t, ht⟩

end GrammarHeaders
