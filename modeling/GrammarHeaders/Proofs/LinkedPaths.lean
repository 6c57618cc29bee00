import GrammarHeaders.Proofs.DiskChanges

namespace GrammarHeaders

namespace Tree

variable {t t' t'' : Tree} {l : Location} {files files' : Location → Prop}

/-- A file can be put at the location: there is one, or nothing yet, right in a directory. -/
def Admits (t : Tree) (l : Location) : Prop :=
  t.HasFile l ∨ t.get? l = none ∧ ∃ parent n, l = parent ++ [n] ∧ t.HasDir parent

/-- Files are written at given locations only, and nothing else changes. -/
def Fills (files : Location → Prop) (t t' : Tree) : Prop :=
  ∀ l, t'.get? l = t.get? l ∨ files l ∧ t.Admits l ∧ t'.HasFile l

theorem Admits.ne_nil (h : t.Admits l) : l ≠ [] := by
  rintro rfl
  obtain ⟨_, _, hroot⟩ | ⟨hroot, -⟩ := h <;> simp [get?] at hroot

theorem Admits.not_hasDir (h : t.Admits l) : ¬ t.HasDir l := by
  intro hdir
  obtain ⟨_, _, hfile⟩ | ⟨hfree, -⟩ := h
  · exact absurd (hdir.symm.trans hfile) (by simp)
  · exact absurd (hdir.symm.trans hfree) (by simp)

theorem fills_set_file (h : t.Admits l) (content : Content) (executable : Bool) :
    Fills (· = l) t (t.set l (.file content executable)) := by
  intro k
  rw [HasFile, get?_set _ _ _ _ _ h.ne_nil]
  by_cases hk : l = k
  · rw [if_pos hk]
    exact .inr ⟨hk.symm, hk ▸ h, content, executable, rfl⟩
  · rw [if_neg hk]
    exact .inl rfl

namespace Fills

theorem refl (files : Location → Prop) (t : Tree) : Fills files t t := fun _ => .inl rfl

theorem mono (h : Fills files t t') (hf : ∀ l, files l → files' l) : Fills files' t t' :=
  fun l => (h l).imp_right fun hl => ⟨hf l hl.1, hl.2⟩

theorem hasDir_iff (h : Fills files t t') : t'.HasDir l ↔ t.HasDir l := by
  obtain hsame | ⟨-, hadmits, _, _, hfile⟩ := h l
  · rw [HasDir, HasDir, hsame]
  · refine ⟨fun hdir => absurd (hdir.symm.trans hfile) (by simp), fun hdir => absurd hdir hadmits.not_hasDir⟩

theorem admits (h : Fills files t t') (hl : t'.Admits l) : t.Admits l := by
  obtain hsame | ⟨-, hadmits, -⟩ := h l
  · rw [Admits, HasFile, hsame] at hl
    obtain hfile | ⟨hfree, parent, n, hlast, hparent⟩ := hl
    · exact .inl hfile
    · exact .inr ⟨hfree, parent, n, hlast, h.hasDir_iff.mp hparent⟩
  · exact hadmits

theorem trans (h : Fills files t t') (h' : Fills files t' t'') : Fills files t t'' := by
  intro l
  obtain hsame | ⟨hf, hadmits, hfile⟩ := h' l
  · rw [HasFile, hsame]
    exact h l
  · exact .inr ⟨hf, h.admits hadmits, hfile⟩

theorem get?_eq (h : Fills files t t') (hl : ¬ files l) : t'.get? l = t.get? l :=
  (h l).resolve_right fun hf => hl hf.1

theorem not_device (h : Fills files t t') (hl : ∀ device, t.get? l ≠ some (.device device))
    (device : Device) : t'.get? l ≠ some (.device device) := by
  obtain hsame | ⟨-, -, _, _, hfile⟩ := h l
  · rw [hsame]
    exact hl device
  · simp [hfile]

end Fills

/-- What is there stays as it is. -/
def Keeps (t t' : Tree) : Prop := ∀ l e, t.get? l = some e → t'.get? l = some e

end Tree

namespace Disk

variable {d d' d'' : Disk} {t t' : Tree} {p : Path} {l here : Location} {names : List String}
  {followLast : Bool} {place : Place} {e : Entry} {files files' : Location → Prop}
  {onLink onLink' : Location → List String → Except Cause Place}

def Place.location : Place → Location
  | .taken l _ => l
  | .free l => l

/-- What is in another tree at the place. The path to a directory need not end with its name, and so
the directory can have been removed. -/
def Place.inTree (t : Tree) : Place → Place
  | .taken l .directory => .taken l .directory
  | .taken l _ => placeAt t l
  | .free l => placeAt t l

/-- What a path that leads to the place has met there. -/
def Place.Met (t : Tree) : Place → Prop
  | .taken l e => e = .directory ∨ t.get? l = some e
  | .free l => t.get? l = none ∧ ∃ parent n, l = parent ++ [n] ∧ t.HasDir parent

theorem location_placeAt (t : Tree) (l : Location) : (placeAt t l).location = l := by
  unfold placeAt
  split <;> rfl

theorem Place.location_inTree (t : Tree) (place : Place) :
    (place.inTree t).location = place.location := by
  unfold inTree
  split
  · rfl
  · exact location_placeAt t _
  · exact location_placeAt t _

theorem inTree_of_ne_directory (he : e ≠ .directory) : (Place.taken l e).inTree t = placeAt t l := by
  cases e <;> first | rfl | exact absurd rfl he

theorem placeAt_of_get? (h : t.get? l = some e) : placeAt t l = .taken l e := by
  rw [placeAt, h]

/-- Go on by a name that is neither a point nor `..`, and follow the rest from there. -/
def followName (t : Tree) (followLast : Bool) (onLink : Location → List String → Except Cause Place)
    (here : Location) (name : String) (rest : List String) : Except Cause Place :=
  match t.get? (here ++ [name]) with
  | none =>
    if rest.isEmpty ∧ t.get? here = some .directory then .ok (.free (here ++ [name])) else .error .notFound
  | some .directory => followWith t followLast onLink (here ++ [name]) rest
  | some (.file content executable) =>
    if rest.isEmpty then .ok (.taken (here ++ [name]) (.file content executable)) else .error .notADirectory
  | some (.device device) =>
    if rest.isEmpty then .ok (.taken (here ++ [name]) (.device device)) else .error .notADirectory
  | some (.link target) =>
    if rest.isEmpty && !followLast then .ok (.taken (here ++ [name]) (.link target))
    else if target = "" then .error .notFound
    else onLink (startOf here target) (steps target ++ rest)

theorem followWith_cons (here : Location) (name : String) (rest : List String) :
    (∃ there, ∀ t followLast onLink, followWith t followLast onLink here (name :: rest) =
      followWith t followLast onLink there rest) ∨
    (∀ t followLast onLink, followWith t followLast onLink here (name :: rest) = .error .nameTooLong) ∨
    ∀ t followLast onLink, followWith t followLast onLink here (name :: rest) =
      followName t followLast onLink here name rest := by
  by_cases hhere : name = "."
  · exact .inl ⟨here, fun t followLast onLink => by rw [followWith, if_pos hhere]⟩
  · by_cases hup : name = ".."
    · exact .inl ⟨here.dropLast, fun t followLast onLink => by rw [followWith, if_neg hhere, if_pos hup]⟩
    · by_cases hlong : nameLimit < name.utf8ByteSize
      · refine .inr (.inl fun t followLast onLink => ?_)
        rw [followWith, if_neg hhere, if_neg hup, if_pos hlong]
      · refine .inr (.inr fun t followLast onLink => ?_)
        rw [followWith, if_neg hhere, if_neg hup, if_neg hlong]
        rfl

theorem met_of_followName {name : String} {rest : List String}
    (hlink : ∀ here names place, onLink here names = .ok place → place.Met t)
    (hrest : followWith t followLast onLink (here ++ [name]) rest = .ok place → place.Met t)
    (h : followName t followLast onLink here name rest = .ok place) : place.Met t := by
  rw [followName] at h
  cases he : t.get? (here ++ [name]) with
  | none =>
    rw [he] at h
    dsimp only at h
    split at h
    · rename_i hroom
      obtain rfl := Except.ok.inj h
      exact ⟨he, here, name, rfl, hroom.2⟩
    · cases h
  | some e =>
    rw [he] at h
    cases e with
    | directory => exact hrest h
    | file content executable | device device =>
      dsimp only at h
      split at h
      · obtain rfl := Except.ok.inj h
        exact .inr he
      · cases h
    | link target =>
      dsimp only at h
      split at h
      · obtain rfl := Except.ok.inj h
        exact .inr he
      · split at h
        · cases h
        · exact hlink _ _ _ h

theorem met_of_followWith
    (hlink : ∀ here names place, onLink here names = .ok place → place.Met t)
    (h : followWith t followLast onLink here names = .ok place) : place.Met t := by
  induction names generalizing here with
  | nil =>
    obtain rfl := Except.ok.inj h
    exact .inl rfl
  | cons name rest ih =>
    obtain ⟨there, hmove⟩ | hlong | hname := followWith_cons here name rest
    · exact ih (hmove _ _ _ ▸ h)
    · cases (hlong _ _ _).symm.trans h
    · exact met_of_followName hlink ih (hname _ _ _ ▸ h)

theorem met_of_follow {links : Nat} (h : follow t followLast links here names = .ok place) :
    place.Met t := by
  induction links generalizing here names place with
  | zero => cases h
  | succ links ih => exact met_of_followWith (fun _ _ _ => ih) h

theorem met_of_resolve (h : d.resolve p.text followLast = .ok place) : place.Met d.tree := by
  cases hf : pathFault? p.text with
  | some cause =>
    rw [resolve_of_fault hf] at h
    cases h
  | none =>
    rw [resolve_of_no_fault hf] at h
    exact met_of_followWith (fun _ _ _ => met_of_follow) h

theorem get?_of_resolve (he : e ≠ .directory) (h : d.resolve p.text followLast = .ok (.taken l e)) :
    d.tree.get? l = some e :=
  (met_of_resolve h).resolve_left he

theorem followName_of_fills {name : String} {rest : List String} (h : t.Fills files t')
    (hlink : ∀ here names, (onLink' here names).toOption =
      (onLink here names).toOption.map (Place.inTree t'))
    (hrest : (followWith t' followLast onLink' (here ++ [name]) rest).toOption =
      (followWith t followLast onLink (here ++ [name]) rest).toOption.map (Place.inTree t')) :
    (followName t' followLast onLink' here name rest).toOption =
      (followName t followLast onLink here name rest).toOption.map (Place.inTree t') := by
  have hroom : t'.get? here = some .directory ↔ t.get? here = some .directory := h.hasDir_iff
  rw [followName, followName]
  obtain hsame | ⟨-, hadmits, content', executable', hfile'⟩ := h (here ++ [name])
  · rw [hsame]
    simp only [hroom]
    cases he : t.get? (here ++ [name]) with
    | none =>
      dsimp only
      split
      · simp [Except.toOption, Place.inTree, placeAt, hsame, he]
      · rfl
    | some e =>
      cases e with
      | directory => exact hrest
      | file content executable | device device =>
        dsimp only
        split
        · simp [Except.toOption, Place.inTree, placeAt, hsame, he]
        · rfl
      | link target =>
        dsimp only
        split
        · simp [Except.toOption, Place.inTree, placeAt, hsame, he]
        · split
          · rfl
          · exact hlink _ _
  · -- a file has been written at the next location, new or in the place of another one
    rw [hfile']
    obtain ⟨content, executable, hfile⟩ | ⟨hfree, parent, n, hlast, hparent⟩ := hadmits
    · rw [hfile]
      dsimp only
      split
      · simp [Except.toOption, Place.inTree, placeAt, hfile']
      · rfl
    · obtain rfl := (List.append_inj' hlast rfl).1
      have hdir : t.get? here = some .directory := hparent
      rw [hfree]
      simp only [hdir, and_true]
      split
      · simp [Except.toOption, Place.inTree, placeAt, hfile']
      · rfl

/-- Where files have been written, names lead to the same places. Only the reason why they lead
nowhere can be another one. -/
theorem followWith_of_fills (h : t.Fills files t')
    (hlink : ∀ here names, (onLink' here names).toOption =
      (onLink here names).toOption.map (Place.inTree t')) :
    (followWith t' followLast onLink' here names).toOption =
      (followWith t followLast onLink here names).toOption.map (Place.inTree t') := by
  induction names generalizing here with
  | nil => rfl
  | cons name rest ih =>
    obtain ⟨there, hmove⟩ | hlong | hname := followWith_cons here name rest
    · rw [hmove, hmove]
      exact ih
    · rw [hlong, hlong]
      rfl
    · rw [hname, hname]
      exact followName_of_fills h hlink ih

theorem follow_of_fills (h : t.Fills files t') (links : Nat) :
    (follow t' followLast links here names).toOption =
      (follow t followLast links here names).toOption.map (Place.inTree t') := by
  induction links generalizing here names with
  | zero => rfl
  | succ links ih => exact followWith_of_fills h fun _ _ => ih

theorem followWith_of_keeps (h : t.Keeps t')
    (hlink : ∀ here names, onLink here names = .ok (.taken l e) → onLink' here names = .ok (.taken l e))
    (hf : followWith t followLast onLink here names = .ok (.taken l e)) :
    followWith t' followLast onLink' here names = .ok (.taken l e) := by
  induction names generalizing here with
  | nil => exact hf
  | cons name rest ih =>
    obtain ⟨there, hmove⟩ | hlong | hname := followWith_cons here name rest
    · rw [hmove] at hf ⊢
      exact ih hf
    · cases (hlong _ _ _).symm.trans hf
    · rw [hname, followName] at hf ⊢
      cases he : t.get? (here ++ [name]) with
      | none =>
        rw [he] at hf
        dsimp only at hf
        split at hf <;> cases hf
      | some next =>
        rw [he] at hf
        rw [h _ _ he]
        cases next with
        | directory => exact ih hf
        | file content executable | device device => exact hf
        | link target =>
          dsimp only at hf ⊢
          split
          · rename_i hlast
            rwa [if_pos hlast] at hf
          · rename_i hlast
            rw [if_neg hlast] at hf
            split
            · rename_i hempty
              rwa [if_pos hempty] at hf
            · rename_i hempty
              rw [if_neg hempty] at hf
              exact hlink _ _ hf

theorem follow_of_keeps (h : t.Keeps t') {links : Nat}
    (hf : follow t followLast links here names = .ok (.taken l e)) :
    follow t' followLast links here names = .ok (.taken l e) := by
  induction links generalizing here names with
  | zero => cases hf
  | succ links ih => exact followWith_of_keeps h (fun _ _ => ih) hf

structure Fills (files : Location → Prop) (d d' : Disk) : Prop where
  cwd : d'.cwd = d.cwd
  tree : d.tree.Fills files d'.tree

namespace Fills

theorem refl (files : Location → Prop) (d : Disk) : Fills files d d := ⟨rfl, .refl files d.tree⟩

theorem mono (h : Fills files d d') (hf : ∀ l, files l → files' l) : Fills files' d d' :=
  ⟨h.cwd, h.tree.mono hf⟩

theorem trans (h : Fills files d d') (h' : Fills files d' d'') : Fills files d d'' :=
  ⟨h'.cwd.trans h.cwd, h.tree.trans h'.tree⟩

theorem resolve (h : Fills files d d') (p : Path) (followLast : Bool) :
    (d'.resolve p.text followLast).toOption =
      (d.resolve p.text followLast).toOption.map (Place.inTree d'.tree) := by
  cases hf : pathFault? p.text with
  | some cause =>
    rw [resolve_of_fault hf, resolve_of_fault hf]
    rfl
  | none =>
    rw [resolve_of_no_fault hf, resolve_of_no_fault hf, h.cwd]
    exact followWith_of_fills h.tree fun _ _ => follow_of_fills h.tree _

end Fills

/-- The location that a path leads to, through links at its end too. -/
def location? (d : Disk) (p : Path) : Option Location :=
  (d.resolve p.text true).toOption.map Place.location

theorem Fills.location?_eq (h : Fills files d d') (p : Path) : d'.location? p = d.location? p := by
  rw [location?, location?, h.resolve, Option.map_map]
  congr 1
  exact funext fun place => place.location_inTree d'.tree

theorem resolve_of_toOption (h : (d.resolve p.text followLast).toOption = some place) :
    d.resolve p.text followLast = .ok place := by
  cases hr : d.resolve p.text followLast with
  | error cause => rw [hr] at h; cases h
  | ok place' =>
    rw [hr] at h
    exact congrArg Except.ok (Option.some.inj h)

theorem Fills.resolve_taken (h : Fills files d d') (he : e ≠ .directory)
    (hr : d.resolve p.text followLast = .ok (.taken l e)) :
    d'.resolve p.text followLast = .ok (placeAt d'.tree l) := by
  refine resolve_of_toOption ?_
  rw [h.resolve, hr, ← inTree_of_ne_directory he]
  rfl

structure Keeps (d d' : Disk) : Prop where
  cwd : d'.cwd = d.cwd
  tree : d.tree.Keeps d'.tree

namespace Keeps

theorem refl (d : Disk) : Keeps d d := ⟨rfl, fun _ _ h => h⟩

theorem trans (h : Keeps d d') (h' : Keeps d' d'') : Keeps d d'' :=
  ⟨h'.cwd.trans h.cwd, fun l e hl => h'.tree l e (h.tree l e hl)⟩

theorem resolve (h : Keeps d d') (hr : d.resolve p.text followLast = .ok (.taken l e)) :
    d'.resolve p.text followLast = .ok (.taken l e) := by
  cases hf : pathFault? p.text with
  | some cause =>
    rw [resolve_of_fault hf] at hr
    cases hr
  | none =>
    rw [resolve_of_no_fault hf] at hr ⊢
    rw [h.cwd]
    exact followWith_of_keeps h.tree (fun _ _ => follow_of_keeps h.tree) hr

end Keeps

theorem makeDir_keeps (h : d.makeDir p = .ok d') : Keeps d d' := by
  unfold makeDir at h
  split at h
  · cases h
  · cases h
  · rename_i l hr
    obtain rfl := Except.ok.inj h
    obtain ⟨hfree, parent, n, rfl, -⟩ := met_of_resolve (p := ⟨dropEndSlashes p.text⟩) hr
    refine ⟨rfl, fun k e hk => ?_⟩
    rw [Tree.get?_set_of_ne _ fun hl => ?_]
    · exact hk
    · rw [hl] at hfree
      exact absurd (hfree.symm.trans hk) (by simp)

theorem makeOrKeep_keeps {result : Except Cause Unit} (h : d.makeOrKeep p = (result, d')) :
    Keeps d d' := by
  unfold makeOrKeep at h
  split at h
  · rename_i hm
    obtain ⟨-, rfl⟩ := Prod.mk.inj h
    exact makeDir_keeps hm
  · obtain ⟨rfl, -⟩ := unlessPresent_eq h
    exact .refl _

theorem makeDirs_keeps {paths : List Path} {result : Except Cause Unit}
    (h : d.makeDirs paths = (result, d')) : Keeps d d' := by
  induction paths generalizing d d' result with
  | nil =>
    obtain ⟨-, rfl⟩ := Prod.mk.inj h
    exact .refl _
  | cons q parents ih =>
    by_cases htrivial : q.text = "" ∨ q.parent? = none
    · rw [makeDirs, if_pos htrivial] at h
      obtain ⟨-, rfl⟩ := Prod.mk.inj h
      exact .refl _
    · by_cases hm : d.makeDir q = .error .notFound
      · rw [makeDirs_of_notFound htrivial hm] at h
        rcases hps : d.makeDirs parents with ⟨r, d₁⟩
        rw [hps] at h
        cases r with
        | error cause =>
          obtain ⟨-, rfl⟩ := Prod.mk.inj h
          exact ih hps
        | ok _ => exact (ih hps).trans (makeOrKeep_keeps h)
      · rw [makeDirs_of_ne_notFound htrivial hm] at h
        exact makeOrKeep_keeps h

theorem writable_eq_file {executable : Bool} (h : d.writable p = .ok (.file l executable)) :
    d.location? p = some l ∧ d.tree.Admits l := by
  obtain ⟨k, hr, he⟩ | ⟨k, content, mode, hr, he⟩ | ⟨k, device, hr, he⟩ := writable_cases h
  · obtain ⟨rfl, -⟩ := Target.file.inj he
    exact ⟨by rw [location?, hr]; rfl, .inr (met_of_resolve hr)⟩
  · obtain ⟨rfl, -⟩ := Target.file.inj he
    exact ⟨by rw [location?, hr]; rfl, .inl ⟨_, _, get?_of_resolve (by simp) hr⟩⟩
  · cases he

theorem writable_eq_device {device : Device} (h : d.writable p = .ok (.device device)) :
    ∃ l, d.location? p = some l ∧ d.tree.get? l = some (.device device) := by
  obtain ⟨_, _, he⟩ | ⟨_, _, _, _, he⟩ | ⟨l, _, hr, he⟩ := writable_cases h
  · cases he
  · cases he
  · obtain rfl := Target.device.inj he
    exact ⟨l, by rw [location?, hr]; rfl, get?_of_resolve (by simp) hr⟩

theorem write_fills {content : Content} (h : d.write p content = .ok d') :
    Fills (fun l => d.location? p = some l) d d' := by
  obtain ⟨l, executable, hw, rfl⟩ | ⟨-, -, -, rfl⟩ := write_eq_ok h
  · obtain ⟨hl, hadmits⟩ := writable_eq_file hw
    exact ⟨rfl, (Tree.fills_set_file hadmits content executable).mono fun _ hk => hk ▸ hl⟩
  · exact .refl _ _

theorem copy_fills {source : Path} (h : d.copy source p = .ok d') :
    Fills (fun l => d.location? p = some l) d d' := by
  obtain ⟨k, content, executable, -, ⟨l, executable', hw, rfl⟩ | ⟨-, -, -, rfl⟩⟩ := copy_eq_ok h
  · obtain ⟨hl, hadmits⟩ := writable_eq_file hw
    exact ⟨rfl, (Tree.fills_set_file hadmits _ executable).mono fun _ hk => hk ▸ hl⟩
  · exact .refl _ _

/-- Where a copy has gone, unless a device has taken it. A file that is copied onto itself is
emptied. -/
theorem copy_eq_ok_of_location? {source : Path} (hl : d.location? p = some l)
    (hplain : ∀ device, d.tree.get? l ≠ some (.device device)) (h : d.copy source p = .ok d') :
    ∃ k content executable, d.resolve source.text true = .ok (.taken k (.file content executable)) ∧
      d'.tree.get? l = some (.file (if k = l then .text [] else content) executable) := by
  obtain ⟨k, content, executable, hr, ⟨l', executable', hw, rfl⟩ | ⟨device, hw, -, -⟩⟩ := copy_eq_ok h
  · obtain ⟨hl', hadmits⟩ := writable_eq_file hw
    obtain rfl := Option.some.inj (hl.symm.trans hl')
    refine ⟨k, content, executable, hr, ?_⟩
    rw [Tree.get?_set _ _ _ _ _ hadmits.ne_nil, if_pos rfl]
  · obtain ⟨l', hl', hdevice⟩ := writable_eq_device hw
    obtain rfl := Option.some.inj (hl.symm.trans hl')
    exact absurd hdevice (hplain device)

theorem exists_of_readText {text : Text} (h : d.readText p = .ok text) :
    ∃ l e, d.resolve p.text true = .ok (.taken l e) := by
  rw [readText, readContent, entryAt] at h
  cases hr : d.resolve p.text true with
  | error cause =>
    rw [hr] at h
    cases h
  | ok place =>
    cases place with
    | free l =>
      rw [hr] at h
      cases h
    | taken l e => exact ⟨l, e, rfl⟩

theorem content_of_readText {content : Content} {executable : Bool} {text : Text}
    (hl : d.location? p = some l) (hf : d.tree.get? l = some (.file content executable))
    (h : d.readText p = .ok text) : content = .text text := by
  obtain ⟨k, e, hr⟩ := exists_of_readText h
  rw [location?, hr] at hl
  obtain rfl := Option.some.inj hl
  rw [readText, readContent, entryAt, hr] at h
  cases e with
  | directory => cases h
  | link target => cases h
  | device device => exact absurd (hf.symm.trans (get?_of_resolve (by simp) hr)) (by simp)
  | file content' executable' =>
    have hsame := hf.symm.trans (get?_of_resolve (by simp) hr)
    simp only [Option.some.injEq, Entry.file.injEq] at hsame
    obtain ⟨rfl, -⟩ := hsame
    cases content with
    | text t => exact congrArg Content.text (Except.ok.inj h)
    | binary bytes => cases h
    | program name => cases h

theorem get?_of_write_file {content new : Content} {executable : Bool} (hl : d.location? p = some l)
    (hf : d.tree.get? l = some (.file content executable)) (h : d.write p new = .ok d') :
    d'.tree.get? l = some (.file new executable) := by
  obtain ⟨k, executable', hw, rfl⟩ | ⟨device, hw, -, -⟩ := write_eq_ok h
  · obtain ⟨hk, hadmits⟩ := writable_eq_file hw
    obtain rfl := Option.some.inj (hl.symm.trans hk)
    have hmode : executable' = executable := by
      obtain ⟨k, hr, he⟩ | ⟨k, content, mode, hr, he⟩ | ⟨k, device, hr, he⟩ := writable_cases hw
      · obtain ⟨rfl, -⟩ := Target.file.inj he
        exact absurd ((met_of_resolve hr).1.symm.trans hf) (by simp)
      · obtain ⟨rfl, rfl⟩ := Target.file.inj he
        have hsame := hf.symm.trans (get?_of_resolve (by simp) hr)
        simp only [Option.some.injEq, Entry.file.injEq] at hsame
        exact hsame.2.symm
      · cases he
    rw [Tree.get?_set _ _ _ _ _ hadmits.ne_nil, if_pos rfl, hmode]
  · obtain ⟨k, hk, hdevice⟩ := writable_eq_device hw
    obtain rfl := Option.some.inj (hl.symm.trans hk)
    exact absurd (hf.symm.trans hdevice) (by simp)

theorem location?_of_resolve {place : Place} (hd : d.Regular)
    (h : d.resolve p.text true = .ok place) : d.location? p = some (p.destination d.cwd) := by
  rw [location?, h]
  cases place with
  | free l => exact congrArg some (resolve_free hd h).1
  | taken l e => exact congrArg some (resolve_taken hd h).1

theorem readText_eq_ok {text : Text} (hd : d.Regular) (hf : d.tree.HasFile (p.destination d.cwd))
    (h : d.readText p = .ok text) : (∃ place, d.resolve p.text true = .ok place) ∧
      ∃ executable, d.tree.get? (p.destination d.cwd) = some (.file (.text text) executable) := by
  obtain ⟨content, executable, hfile⟩ := hf
  obtain ⟨l, e, hr⟩ := exists_of_readText h
  obtain rfl := content_of_readText (location?_of_resolve hd hr) hfile h
  exact ⟨⟨_, hr⟩, executable, hfile⟩

theorem get?_of_write {content before : Content} {executable : Bool} (hd : d.Regular)
    (hf : d.tree.get? (p.destination d.cwd) = some (.file before executable))
    (h : d.write p content = .ok d') :
    d'.tree.get? (p.destination d.cwd) = some (.file content executable) := by
  obtain ⟨target, hw⟩ : ∃ target, d.writable p = .ok target := by
    obtain ⟨_, _, hw, -⟩ | ⟨_, hw, -⟩ := write_eq_ok h <;> exact ⟨_, hw⟩
  obtain ⟨place, hr⟩ := exists_of_writable hw
  exact get?_of_write_file (location?_of_resolve hd hr) hf h

theorem get?_of_write_name {content : Content} {front : Location} {n : String} (hd : d.Regular)
    (hl : p.destination d.cwd = front ++ [n]) (hn : '.' ∈ n.toList) (h : d.write p content = .ok d') :
    ∃ executable, d'.tree.get? (p.destination d.cwd) = some (.file content executable) := by
  obtain ⟨l, executable, hw, rfl⟩ | ⟨device, hw, -, -⟩ := write_eq_ok h
  · obtain ⟨rfl, hin, -⟩ := writable_file hd hw
    exact ⟨executable, by rw [Tree.get?_set _ _ _ _ _ hin.ne_nil, if_pos rfl]⟩
  · exact absurd (hl ▸ device_of_writable hd hw) (Tree.get?_ne_device hn device)

end Disk

end GrammarHeaders
