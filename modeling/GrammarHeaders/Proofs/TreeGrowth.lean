import GrammarHeaders.Proofs.Destinations
import Mathlib.Data.List.Induction

namespace GrammarHeaders

namespace Tree

variable {t u v : Tree} {l k : Location} {n : String} {e : Entry}

def HasDir (t : Tree) (l : Location) : Prop := t.get? l = some .directory

instance (t : Tree) (l : Location) : Decidable (t.HasDir l) := inferInstanceAs (Decidable (_ = _))

def HasFile (t : Tree) (l : Location) : Prop := ∃ content executable, t.get? l = some (.file content executable)

instance : (e : Entry) → Decidable (∀ target, e ≠ .link target)
  | .link target => .isFalse fun h => h target rfl
  | .file .. | .directory | .device _ => .isTrue (by simp)

/-- A tree as a file system has it, without links. -/
structure Regular (t : Tree) : Prop where
  /-- No location has two entries, and the root has none of its own. -/
  nodup : ([] :: t.entries.map Prod.fst).Nodup
  parent : ∀ {l n e}, t.get? (l ++ [n]) = some e → t.HasDir l
  name : ∀ {l n e}, t.get? (l ++ [n]) = some e → IsName n
  noLink : ∀ l target, t.get? l ≠ some (.link target)

theorem find?_eq_none_iff {entries : List (Location × Entry)} :
    find? l entries = none ↔ l ∉ entries.map Prod.fst := by
  induction entries with
  | nil => simp [find?]
  | cons entry rest ih =>
    obtain ⟨m, old⟩ := entry
    by_cases h : m = l
    · simp [find?, h]
    · simp [find?, h, ih, Ne.symm h]

theorem find?_of_mem {entries : List (Location × Entry)} (hnd : (entries.map Prod.fst).Nodup)
    (h : (l, e) ∈ entries) : find? l entries = some e := by
  induction entries with
  | nil => cases h
  | cons entry rest ih =>
    obtain ⟨m, old⟩ := entry
    rw [List.map_cons, List.nodup_cons] at hnd
    rcases List.mem_cons.mp h with he | h
    · obtain ⟨rfl, rfl⟩ := Prod.mk.inj he
      simp [find?]
    · have hne : m ≠ l := fun hm => hnd.1 (hm ▸ List.mem_map.mpr ⟨(l, e), h, rfl⟩)
      rw [find?, if_neg hne]
      exact ih hnd.2 h

theorem mem_of_find? {entries : List (Location × Entry)} (h : find? l entries = some e) :
    (l, e) ∈ entries := by
  induction entries with
  | nil => cases h
  | cons entry rest ih =>
    obtain ⟨m, old⟩ := entry
    rw [find?] at h
    split at h
    · rename_i hm
      obtain rfl := Option.some.inj h
      exact hm ▸ List.mem_cons_self
    · exact List.mem_cons_of_mem _ (ih h)

theorem get?_of_ne_nil (hl : l ≠ []) : t.get? l = find? l t.entries := if_neg hl

theorem append_name_ne_nil (l : Location) (n : String) : l ++ [n] ≠ [] := by simp

theorem get?_set_of_ne (hf : e.FitsAt (l ++ [n])) (h : l ++ [n] ≠ k) :
    (t.set (l ++ [n]) e hf).get? k = t.get? k := by
  rw [get?_set _ _ _ _ _ (append_name_ne_nil _ _), if_neg h]

theorem fitsAt_of_get? (h : t.get? l = some e) : e.FitsAt l := by
  by_cases hl : l = []
  · subst hl
    exact Option.some.inj h ▸ trivial
  · rw [get?_of_ne_nil hl] at h
    exact t.fits _ (mem_of_find? h)

theorem get?_ne_device (hn : '.' ∈ n.toList) (d : Device) : t.get? (l ++ [n]) ≠ some (.device d) := by
  intro h
  have hplace : l ++ [n] = d.place := fitsAt_of_get? h
  have hlast := congrArg List.getLast? hplace
  rw [List.getLast?_concat] at hlast
  cases d with
  | stream number =>
    obtain rfl := Option.some.inj hlast
    have hdigit := Nat.isDigit_of_mem_toDigits (by decide) (by decide)
      (show '.' ∈ Nat.toDigits 10 number by simpa [toString, Nat.repr] using hn)
    exact absurd hdigit (by decide)
  | null | zero | full =>
    obtain rfl := Option.some.inj hlast
    exact absurd hn (by decide)

theorem isName_of_mem_of_parent (hparent : ∀ {l n e}, t.get? (l ++ [n]) = some e → t.HasDir l)
    (hname : ∀ {l n e}, t.get? (l ++ [n]) = some e → IsName n) {names : List String}
    (h : t.get? (l ++ names) = some e) (hn : n ∈ names) : IsName n := by
  induction names using List.reverseRecOn generalizing e with
  | nil => cases hn
  | append_singleton front last ih =>
    rw [← List.append_assoc] at h
    rcases List.mem_append.mp hn with hn | hn
    · exact ih (hparent h) hn
    · obtain rfl := List.mem_singleton.mp hn
      exact hname h

namespace Regular

theorem of_entries (hnd : ([] :: t.entries.map Prod.fst).Nodup)
    (h : ∀ entry ∈ t.entries, t.get? entry.1.dropLast = some .directory ∧
      (∀ n ∈ entry.1.getLast?, IsName n) ∧ ∀ target, entry.2 ≠ .link target) : t.Regular where
  nodup := hnd
  parent he := by
    rw [get?_of_ne_nil (append_name_ne_nil _ _)] at he
    simpa [HasDir] using (h _ (mem_of_find? he)).1
  name he := by
    rw [get?_of_ne_nil (append_name_ne_nil _ _)] at he
    exact (h _ (mem_of_find? he)).2.1 _ (by simp)
  noLink l target he := by
    by_cases hl : l = []
    · simp [hl, get?] at he
    · rw [get?_of_ne_nil hl] at he
      exact (h _ (mem_of_find? he)).2.2 target rfl

theorem hasDir_above (ht : t.Regular) {names : List String} (hne : names ≠ [])
    (h : t.get? (l ++ names) = some e) : t.HasDir l := by
  induction names using List.reverseRecOn generalizing e with
  | nil => exact absurd rfl hne
  | append_singleton front n ih =>
    rw [← List.append_assoc] at h
    by_cases hf : front = []
    · simpa [hf] using ht.parent h
    · exact ih hf (ht.parent h)

theorem hasDir_of_prefix (ht : t.Regular) (hk : t.HasDir k) (h : l <+: k) : t.HasDir l := by
  obtain ⟨names, rfl⟩ := h
  by_cases hne : names = []
  · simpa [hne] using hk
  · exact ht.hasDir_above hne hk

theorem isName_of_mem (ht : t.Regular) {names : List String} (h : t.get? (l ++ names) = some e)
    (hn : n ∈ names) : IsName n := isName_of_mem_of_parent ht.parent ht.name h hn

end Regular

/-- The names that lead from a location to the files below it. -/
def fileNames (t : Tree) (l : Location) : List (List String) :=
  (t.below l).filterMap fun (names, e) => match e with
    | .file .. => some names
    | _ => none

/-- What an entry adds to the files below a location. -/
def fileName? (l : Location) : Location × Entry → Option (List String)
  | (k, .file ..) => if l.isPrefixOf k ∧ k ≠ l then some (k.drop l.length) else none
  | _ => none

theorem fileNames_eq (t : Tree) (l : Location) : t.fileNames l = t.entries.filterMap (fileName? l) := by
  rw [fileNames, below, List.filterMap_filterMap]
  congr 1
  funext ⟨k, e⟩
  dsimp only
  by_cases h : l.isPrefixOf k ∧ k ≠ l
  · rw [if_pos h]
    cases e <;> simp [fileName?, h]
  · rw [if_neg h]
    cases e <;> simp only [fileName?, if_neg h, Option.bind_none]

theorem fileName?_eq_some_iff {entry : Location × Entry} {names : List String} :
    fileName? l entry = some names ↔
      names ≠ [] ∧ ∃ content executable, entry = (l ++ names, .file content executable) := by
  constructor
  · intro h
    obtain ⟨k, e⟩ := entry
    cases e with
    | file content executable =>
      rw [fileName?] at h
      split at h
      · rename_i hl
        obtain ⟨rest, rfl⟩ := List.isPrefixOf_iff_prefix.mp hl.1
        rw [List.drop_left] at h
        obtain rfl := Option.some.inj h
        exact ⟨fun hr => hl.2 (by simp [hr]), content, executable, rfl⟩
      · cases h
    | directory | link target | device device => cases h
  · rintro ⟨hne, content, executable, rfl⟩
    simp [fileName?, hne]

theorem mem_fileNames_of_nodup (hnd : ([] :: t.entries.map Prod.fst).Nodup) {names : List String} :
    names ∈ t.fileNames l ↔ names ≠ [] ∧ t.HasFile (l ++ names) := by
  rw [fileNames_eq, List.mem_filterMap]
  constructor
  · rintro ⟨entry, hmem, h⟩
    obtain ⟨hne, content, executable, rfl⟩ := fileName?_eq_some_iff.mp h
    refine ⟨hne, content, executable, ?_⟩
    rw [get?_of_ne_nil (by simp [hne])]
    exact find?_of_mem (List.nodup_cons.mp hnd).2 hmem
  · rintro ⟨hne, content, executable, h⟩
    rw [get?_of_ne_nil (by simp [hne])] at h
    exact ⟨_, mem_of_find? h, fileName?_eq_some_iff.mpr ⟨hne, content, executable, rfl⟩⟩

theorem mem_fileNames (ht : t.Regular) {names : List String} :
    names ∈ t.fileNames l ↔ names ≠ [] ∧ t.HasFile (l ++ names) := mem_fileNames_of_nodup ht.nodup

theorem nodup_fileNames_of_nodup (hnd : ([] :: t.entries.map Prod.fst).Nodup) (l : Location) :
    (t.fileNames l).Nodup := by
  have hkeys := (List.nodup_cons.mp hnd).2
  rw [List.Nodup, List.pairwise_map] at hkeys
  rw [fileNames_eq, List.Nodup, List.pairwise_filterMap]
  refine hkeys.imp fun hne names h names' h' heq => hne ?_
  obtain ⟨-, content, executable, rfl⟩ := fileName?_eq_some_iff.mp h
  obtain ⟨-, content', executable', rfl⟩ := fileName?_eq_some_iff.mp h'
  rw [heq]

theorem nodup_fileNames (ht : t.Regular) (l : Location) : (t.fileNames l).Nodup :=
  nodup_fileNames_of_nodup ht.nodup l

theorem filterMap_replace {α : Type} {f : Location × Entry → Option α}
    {entries : List (Location × Entry)}
    (hold : ∀ old, find? l entries = some old → f (l, e) = f (l, old))
    (hnew : find? l entries = none → f (l, e) = none) :
    (replace l e entries).filterMap f = entries.filterMap f := by
  induction entries with
  | nil => simp [replace, hnew rfl]
  | cons entry rest ih =>
    obtain ⟨m, old⟩ := entry
    by_cases h : m = l
    · subst h
      rw [replace, if_pos rfl, List.filterMap_cons, List.filterMap_cons, hold old (by simp [find?])]
    · simp only [find?, if_neg h] at hold hnew
      rw [replace, if_neg h, List.filterMap_cons, List.filterMap_cons, ih hold hnew]

theorem replace_of_not_found {entries : List (Location × Entry)} (h : find? l entries = none) :
    replace l e entries = entries ++ [(l, e)] := by
  induction entries with
  | nil => rfl
  | cons entry rest ih =>
    obtain ⟨m, old⟩ := entry
    rw [find?] at h
    split at h
    · cases h
    · rename_i hm
      rw [replace, if_neg hm, ih h, List.cons_append]

theorem fileNames_set_free (hl : l ≠ []) (h : t.get? l = none) (hf : e.FitsAt l) (k : Location) :
    (t.set l e hf).fileNames k = t.fileNames k ++ (fileName? k (l, e)).toList := by
  rw [get?_of_ne_nil hl] at h
  rw [fileNames_eq, fileNames_eq, entries_set, replace_of_not_found h, List.filterMap_append]
  cases hf : fileName? k (l, e) <;> simp [hf]

theorem fileNames_set_file (hl : l ≠ []) (h : t.HasFile l) (content : Content) (executable : Bool)
    (k : Location) : (t.set l (.file content executable)).fileNames k = t.fileNames k := by
  obtain ⟨c, x, hc⟩ := h
  rw [get?_of_ne_nil hl] at hc
  rw [fileNames_eq, fileNames_eq]
  refine filterMap_replace (fun old hold => ?_) (fun hnone => ?_)
  · obtain rfl := Option.some.inj (hc.symm.trans hold)
    rfl
  · exact absurd (hc.symm.trans hnone) (by simp)

theorem map_fst_replace (l : Location) (e : Entry) (entries : List (Location × Entry)) :
    (replace l e entries).map Prod.fst =
      if find? l entries = none then entries.map Prod.fst ++ [l] else entries.map Prod.fst := by
  induction entries with
  | nil => rfl
  | cons entry rest ih =>
    obtain ⟨m, old⟩ := entry
    by_cases h : m = l
    · simp [replace, find?, h]
    · simp only [replace, find?, if_neg h, List.map_cons, ih]
      split <;> rfl

theorem eq_of_find?_eq {a b : List (Location × Entry)} (hkeys : a.map Prod.fst = b.map Prod.fst)
    (hnd : (a.map Prod.fst).Nodup) (h : ∀ k, find? k a = find? k b) : a = b := by
  induction a generalizing b with
  | nil =>
    cases b with
    | nil => rfl
    | cons _ _ => cases hkeys
  | cons entry a ih =>
    cases b with
    | nil => cases hkeys
    | cons entry' b =>
      obtain ⟨m, e⟩ := entry
      obtain ⟨m', e'⟩ := entry'
      obtain ⟨rfl, hk⟩ := List.cons.inj hkeys
      rw [List.map_cons, List.nodup_cons] at hnd
      have he : e = e' := by simpa [find?] using h m
      have hrest : ∀ k, find? k a = find? k b := by
        intro k
        by_cases hm : m = k
        · subst hm
          rw [find?_eq_none_iff.mpr hnd.1, find?_eq_none_iff.mpr (hk ▸ hnd.1)]
        · simpa [find?, hm] using h k
      rw [he, ih hk hnd.2 hrest]

/-- The tree grows by directories at some locations and by files at others. -/
inductive Grows (dirs files : Location → Prop) (t : Tree) : Tree → Prop
  | refl : Grows dirs files t t
  | mkdir {u : Tree} {l : Location} {n : String} : Grows dirs files t u → u.HasDir l → IsName n → u.get? (l ++ [n]) = none →
      dirs (l ++ [n]) → Grows dirs files t (u.set (l ++ [n]) .directory)
  | write {u : Tree} {l : Location} {n : String} (content : Content) (executable : Bool) :
      Grows dirs files t u → u.HasDir l → IsName n →
      (u.get? (l ++ [n]) = none ∨ u.HasFile (l ++ [n])) → files (l ++ [n]) →
      Grows dirs files t (u.set (l ++ [n]) (.file content executable))

namespace Grows

variable {dirs files dirs' files' : Location → Prop}

theorem mono (h : Grows dirs files t u) (hd : ∀ l, dirs l → dirs' l) (hf : ∀ l, files l → files' l) :
    Grows dirs' files' t u := by
  induction h with
  | refl => exact .refl
  | mkdir _ hp hn hfree hl ih => exact .mkdir ih hp hn hfree (hd _ hl)
  | write content executable _ hp hn hfree hl ih => exact .write content executable ih hp hn hfree (hf _ hl)

theorem trans (h : Grows dirs files t u) (h' : Grows dirs files u v) : Grows dirs files t v := by
  induction h' with
  | refl => exact h
  | mkdir _ hp hn hfree hl ih => exact .mkdir ih hp hn hfree hl
  | write content executable _ hp hn hfree hl ih => exact .write content executable ih hp hn hfree hl

theorem get?_ne_none (h : Grows dirs files t u) (hl : t.get? l ≠ none) : u.get? l ≠ none := by
  induction h with
  | refl => exact hl
  | mkdir _ _ _ _ _ ih | write _ _ _ _ _ _ _ ih =>
    rw [get?_set _ _ _ _ _ (append_name_ne_nil _ _)]
    split
    · simp
    · exact ih

theorem changed (h : Grows dirs files t u) (hne : u.get? l ≠ t.get? l) :
    files l ∧ (t.get? l = none ∨ t.HasFile l) ∧ u.HasFile l ∨
      dirs l ∧ t.get? l = none ∧ u.HasDir l := by
  induction h with
  | refl => exact absurd rfl hne
  | @mkdir u m n hg _ _ hfree hd ih =>
    by_cases he : m ++ [n] = l
    · subst he
      refine .inr ⟨hd, ?_, ?_⟩
      · by_contra hsome
        exact hg.get?_ne_none hsome hfree
      · rw [HasDir, get?_set _ _ _ _ _ (append_name_ne_nil _ _), if_pos rfl]
    · rw [get?_set_of_ne _ he] at hne
      simpa only [HasFile, HasDir, get?_set_of_ne _ he] using ih hne
  | @write u m n content executable _ _ _ hfree hf ih =>
    by_cases he : m ++ [n] = l
    · subst he
      refine .inl ⟨hf, ?_, ?_⟩
      · by_cases hsame : u.get? (m ++ [n]) = t.get? (m ++ [n])
        · simpa only [HasFile, hsame] using hfree
        · exact (ih hsame).elim (fun hfile => hfile.2.1) fun hdir => .inl hdir.2.1
      · rw [HasFile, get?_set _ _ _ _ _ (append_name_ne_nil _ _), if_pos rfl]
        exact ⟨_, _, rfl⟩
    · rw [get?_set_of_ne _ he] at hne
      simpa only [HasFile, HasDir, get?_set_of_ne _ he] using ih hne

theorem get?_eq (h : Grows dirs files t u) (hd : ¬ dirs l) (hf : ¬ files l) : u.get? l = t.get? l := by
  by_contra hne
  obtain ⟨hfile, -⟩ | ⟨hdir, -⟩ := h.changed hne
  · exact hf hfile
  · exact hd hdir

theorem get?_eq_or_hasFile (h : Grows dirs files t u) (hd : ¬ dirs l) :
    u.get? l = t.get? l ∨ (t.get? l = none ∨ t.HasFile l) ∧ u.HasFile l := by
  by_cases hsame : u.get? l = t.get? l
  · exact .inl hsame
  · obtain ⟨-, hwritten⟩ | ⟨hdir, -⟩ := h.changed hsame
    · exact .inr hwritten
    · exact absurd hdir hd

theorem get?_of_some (h : Grows dirs files t u) (hf : ¬ files l) (hl : t.get? l = some e) :
    u.get? l = some e := by
  by_contra hne
  obtain ⟨hfile, -⟩ | ⟨-, hnone, -⟩ := h.changed fun hsame => hne (hsame.trans hl)
  · exact hf hfile
  · exact absurd (hl.symm.trans hnone) (by simp)

theorem hasDir (h : Grows dirs files t u) (hl : t.HasDir l) : u.HasDir l := by
  by_contra hne
  obtain ⟨-, hbefore, -⟩ | ⟨-, hnone, -⟩ := h.changed fun hsame => hne (hsame.trans hl)
  · rw [HasFile, hl] at hbefore
    simp at hbefore
  · exact absurd (hl.symm.trans hnone) (by simp)

theorem hasFile (h : Grows dirs files t u) (hl : t.HasFile l) : u.HasFile l := by
  by_cases hsame : u.get? l = t.get? l
  · rwa [HasFile, hsame]
  · obtain ⟨-, -, hafter⟩ | ⟨-, hnone, -⟩ := h.changed hsame
    · exact hafter
    · obtain ⟨content, executable, hl⟩ := hl
      exact absurd (hl.symm.trans hnone) (by simp)

theorem hasDir_iff (h : Grows dirs files t u) (hd : ¬ dirs l) : u.HasDir l ↔ t.HasDir l := by
  refine ⟨fun hu => ?_, h.hasDir⟩
  by_contra hne
  obtain ⟨-, -, _, _, hfile⟩ | ⟨hdir, -⟩ := h.changed fun hsame => hne (hsame.symm.trans hu)
  · exact absurd (hu.symm.trans hfile) (by simp)
  · exact hd hdir

theorem hasFile_of (h : Grows dirs files t u) (hf : ¬ files l) (hl : u.HasFile l) : t.HasFile l := by
  by_cases hsame : u.get? l = t.get? l
  · rwa [HasFile, ← hsame]
  · obtain ⟨hfile, -⟩ | ⟨-, -, hdir⟩ := h.changed hsame
    · exact absurd hfile hf
    · obtain ⟨content, executable, hl⟩ := hl
      exact absurd (hl.symm.trans hdir) (by simp)

theorem fileNames_eq (h : Grows dirs files t u) (hf : ∀ k, files k → l <+: k → t.HasFile k) :
    u.fileNames l = t.fileNames l := by
  induction h with
  | refl => rfl
  | mkdir _ _ _ hfree _ ih =>
    rw [fileNames_set_free (append_name_ne_nil _ _) hfree, ih]
    simp [fileName?]
  | @write u m n content executable hg _ _ hfree hk ih =>
    by_cases hl : l <+: m ++ [n]
    · rw [fileNames_set_file (append_name_ne_nil _ _) (hg.hasFile (hf _ hk hl)), ih]
    · have hnone : fileName? l (m ++ [n], .file content executable) = none :=
        if_neg fun hp => hl (List.isPrefixOf_iff_prefix.mp hp.1)
      rcases hfree with hfree | hfree
      · rw [fileNames_set_free (append_name_ne_nil _ _) hfree, ih, hnone]
        simp
      · rw [fileNames_set_file (append_name_ne_nil _ _) hfree, ih]

theorem restrict (h : Grows dirs files t u) (hd : ∀ l, dirs l → t.HasDir l ∨ dirs' l) :
    Grows dirs' files t u := by
  induction h with
  | refl => exact .refl
  | mkdir hg hp hn hfree hl ih =>
    rcases hd _ hl with hdir | hl
    · exact absurd (hfree.symm.trans (hg.hasDir hdir)) (by simp)
    · exact .mkdir ih hp hn hfree hl
  | write content executable _ hp hn hfree hl ih => exact .write content executable ih hp hn hfree hl

theorem made (h : Grows dirs files t u) : Grows (fun l => dirs l ∧ u.HasDir l) files t u := by
  induction h with
  | refl => exact .refl
  | @mkdir u l n hg hp hn hfree hl ih =>
    have hstep : Grows dirs files u (u.set (l ++ [n]) .directory) := .mkdir .refl hp hn hfree hl
    have hnew : (u.set (l ++ [n]) .directory).HasDir (l ++ [n]) := by
      rw [HasDir, get?_set _ _ _ _ _ (append_name_ne_nil _ _), if_pos rfl]
    exact .mkdir (ih.mono (fun _ hk => ⟨hk.1, hstep.hasDir hk.2⟩) fun _ => id) hp hn hfree ⟨hl, hnew⟩
  | @write u l n content executable hg hp hn hfree hl ih =>
    have hstep : Grows dirs files u (u.set (l ++ [n]) (.file content executable)) :=
      .write content executable .refl hp hn hfree hl
    exact .write content executable (ih.mono (fun _ hk => ⟨hk.1, hstep.hasDir hk.2⟩) fun _ => id) hp hn hfree hl

theorem keys_prefix (h : Grows dirs files t u) :
    t.entries.map Prod.fst <+: u.entries.map Prod.fst := by
  have hset : ∀ (u : Tree) (l : Location) (e : Entry) (hf : e.FitsAt l),
      u.entries.map Prod.fst <+: (u.set l e hf).entries.map Prod.fst := by
    intro u l e hf
    rw [set, map_fst_replace]
    split
    · exact List.prefix_append _ _
    · exact List.prefix_refl _
  induction h with
  | refl => exact List.prefix_refl _
  | mkdir _ _ _ _ _ ih => exact ih.trans (hset _ _ _ _)
  | write content executable _ _ _ _ _ ih => exact ih.trans (hset _ _ _ _)

theorem nodup_set (hu : ([] :: u.entries.map Prod.fst).Nodup) (hl : l ≠ []) (hf : e.FitsAt l) :
    ([] :: (u.set l e hf).entries.map Prod.fst).Nodup := by
  rw [set, map_fst_replace]
  split
  · rename_i hfree
    rw [find?_eq_none_iff] at hfree
    rw [← List.cons_append, List.nodup_append]
    refine ⟨hu, by simp, fun a ha b hb => ?_⟩
    obtain rfl := List.mem_singleton.mp hb
    rintro rfl
    rcases List.mem_cons.mp ha with h | h
    · exact hl h
    · exact hfree h
  · exact hu

theorem regular_set (hu : u.Regular) (hp : u.HasDir l) (hn : IsName n)
    (hfree : ¬ u.HasDir (l ++ [n])) (he : ∀ target, e ≠ .link target) (hf : e.FitsAt (l ++ [n])) :
    (u.set (l ++ [n]) e hf).Regular where
  nodup := nodup_set hu.nodup (append_name_ne_nil _ _) hf
  parent {k m e'} h := by
    have hk : u.HasDir k := by
      rw [get?_set _ _ _ _ _ (append_name_ne_nil _ _)] at h
      split at h
      · rename_i heq
        exact (List.append_inj' heq rfl).1 ▸ hp
      · exact hu.parent h
    have hne : l ++ [n] ≠ k := fun heq => hfree (heq ▸ hk)
    rw [HasDir, get?_set_of_ne _ hne]
    exact hk
  name {k m e'} h := by
    rw [get?_set _ _ _ _ _ (append_name_ne_nil _ _)] at h
    split at h
    · rename_i heq
      exact List.singleton_inj.mp (List.append_inj' heq rfl).2 ▸ hn
    · exact hu.name h
  noLink k target h := by
    rw [get?_set _ _ _ _ _ (append_name_ne_nil _ _)] at h
    split at h
    · exact he target (Option.some.inj h)
    · exact hu.noLink k target h

theorem not_hasDir_of_free (h : u.get? l = none ∨ u.HasFile l) : ¬ u.HasDir l := by
  intro hd
  rw [HasFile, hd] at h
  simp at h

theorem regular (h : Grows dirs files t u) (ht : t.Regular) : u.Regular := by
  induction h with
  | refl => exact ht
  | mkdir _ hp hn hfree _ ih =>
    exact regular_set ih hp hn (not_hasDir_of_free (.inl hfree)) (by simp) _
  | write content executable _ hp hn hfree _ ih =>
    exact regular_set ih hp hn (not_hasDir_of_free hfree) (by simp) _

theorem eq_of_get?_eq (h : Grows dirs files t u) (ht : t.Regular) (hget : ∀ l, u.get? l = t.get? l) :
    u = t := by
  obtain ⟨more, hmore⟩ := h.keys_prefix
  have hu := (h.regular ht).nodup
  rw [← hmore] at hu
  have hnil : more = [] := by
    rw [List.eq_nil_iff_forall_not_mem]
    intro k hk
    have hne : k ≠ [] := by
      rintro rfl
      exact (List.nodup_cons.mp hu).1 (List.mem_append_right _ hk)
    have hnew : k ∉ t.entries.map Prod.fst := fun hold =>
      (List.nodup_append.mp (List.nodup_cons.mp hu).2).2.2 k hold k hk rfl
    have hin : k ∈ u.entries.map Prod.fst := hmore ▸ List.mem_append_right _ hk
    have hg := hget k
    rw [get?_of_ne_nil hne, get?_of_ne_nil hne, find?_eq_none_iff.mpr hnew,
      find?_eq_none_iff] at hg
    exact hg hin
  rw [hnil, List.append_nil] at hmore hu
  have hentries : u.entries = t.entries := by
    refine eq_of_find?_eq hmore.symm (hmore ▸ (List.nodup_cons.mp hu).2) fun k => ?_
    by_cases hk : k = []
    · rw [hk, find?_eq_none_iff.mpr (List.nodup_cons.mp hu).1,
        find?_eq_none_iff.mpr (hmore ▸ (List.nodup_cons.mp hu).1)]
    · rw [← get?_of_ne_nil hk, ← get?_of_ne_nil hk, hget]
  exact Tree.ext hentries

end Grows

end Tree

end GrammarHeaders
