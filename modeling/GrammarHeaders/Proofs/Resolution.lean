import GrammarHeaders.Proofs.TreeGrowth

namespace GrammarHeaders

namespace Disk

/-- A disk with a regular tree, whose current directory is there. -/
structure Regular (d : Disk) : Prop where
  tree : d.tree.Regular
  cwd : d.tree.HasDir d.cwd

/-- What a path meets that leads to a location. -/
def placeAt (t : Tree) (l : Location) : Place :=
  match t.get? l with
  | some e => .taken l e
  | none => .free l

section Follow

variable {t t' : Tree} {followLast followLast' : Bool} {here : Location} {names : List String}
  {onLink onLink' : Location → List String → Except Cause Place} {place : Place}

theorem hasDir_dropLast (ht : t.Regular) (h : t.HasDir here) : t.HasDir here.dropLast :=
  ht.hasDir_of_prefix h (List.dropLast_prefix here)

/-- The names that move. -/
def moving (names : List String) : List String := names.filter (· ≠ ".")

@[simp] theorem moving_nil : moving [] = [] := rfl

theorem moving_here (rest : List String) : moving ("." :: rest) = moving rest := by
  simp [moving]

theorem moving_cons {name : String} (h : name ≠ ".") (rest : List String) :
    moving (name :: rest) = name :: moving rest := by
  simp [moving, h]

theorem followWith_congr (ht : t.Regular) (ht' : t'.Regular) (hd : t.HasDir here)
    (hd' : t'.HasDir here)
    (h : ∀ l ∈ Location.entered here (moving names), t'.get? l = t.get? l) :
    followWith t' followLast' onLink' here names = followWith t followLast onLink here names := by
  induction names generalizing here with
  | nil => rfl
  | cons name rest ih =>
    rw [followWith, followWith]
    by_cases hhere : name = "."
    · rw [if_pos hhere, if_pos hhere]
      rw [hhere, moving_here] at h
      exact ih hd hd' h
    · rw [if_neg hhere, if_neg hhere]
      rw [moving_cons hhere, Location.entered] at h
      by_cases hup : name = ".."
      · rw [if_pos hup, if_pos hup]
        rw [if_pos hup] at h
        exact ih (hasDir_dropLast ht hd) (hasDir_dropLast ht' hd') h
      · rw [if_neg hup, if_neg hup]
        rw [if_neg hup] at h
        obtain ⟨hnext, hrest⟩ := List.forall_mem_cons.mp h
        dsimp only
        rw [hnext, hd, hd']
        split
        · rfl
        · cases he : t.get? (here ++ [name]) with
          | none => rfl
          | some e =>
            cases e with
            | directory => exact ih he (hnext.trans he) hrest
            | file content executable => rfl
            | device device => rfl
            | link target => exact absurd he (ht.noLink _ _)

/-- The locations that must be directories, because more steps follow. -/
def crossed : Location → List String → List Location
  | _, [] => []
  | here, name :: rest =>
    if name = "." then crossed here rest
    else if name = ".." then crossed here.dropLast rest
    else if rest = [] then []
    else (here ++ [name]) :: crossed (here ++ [name]) rest

/-- The name is not too long to be asked for. -/
def isShort (name : String) : Prop :=
  name = "." ∨ name = ".." ∨ name.utf8ByteSize ≤ nameLimit

/-- A path leads to its destination, if every name is short and every location on the way is a
directory. -/
theorem followWith_eq_ok (ht : t.Regular) (hd : t.HasDir here) :
    followWith t followLast onLink here names = .ok place ↔
      (∀ n ∈ names, isShort n) ∧ (∀ l ∈ crossed here names, t.HasDir l) ∧
        place = placeAt t (Location.lead here (moving names)) := by
  induction names generalizing here with
  | nil =>
    have hp : placeAt t here = .taken here .directory := by
      simp [placeAt, show t.get? here = some .directory from hd]
    simp [followWith, crossed, Location.lead, hp, eq_comm]
  | cons name rest ih =>
    rw [followWith, crossed, List.forall_mem_cons]
    by_cases hhere : name = "."
    · simp only [if_pos hhere]
      rw [hhere, moving_here, ih hd]
      simp [isShort]
    · simp only [if_neg hhere]
      rw [moving_cons hhere, Location.lead]
      by_cases hup : name = ".."
      · simp only [if_pos hup]
        rw [ih (hasDir_dropLast ht hd)]
        simp [isShort, hup]
      · simp only [if_neg hup]
        have hshort : isShort name ↔ ¬ nameLimit < name.utf8ByteSize := by
          simp [isShort, hhere, hup]
        by_cases hlong : nameLimit < name.utf8ByteSize
        · simp [hshort, hlong]
        · rw [if_neg hlong, hshort]
          have hplace : ∀ e, t.get? (here ++ [name]) = some e →
              placeAt t (here ++ [name]) = .taken (here ++ [name]) e := fun e he => by
            simp [placeAt, he]
          cases he : t.get? (here ++ [name]) with
          | none =>
            have hdir : ¬ t.HasDir (here ++ [name]) := by simp [Tree.HasDir, he]
            have hhd : t.get? here = some .directory := hd
            by_cases hr : rest = []
            · subst hr
              simp [hhd, hlong, Location.lead, placeAt, he, eq_comm]
            · simp [hr, hdir]
          | some e =>
            cases e with
            | directory =>
              have hdir : t.HasDir (here ++ [name]) := he
              dsimp only
              rw [ih hdir]
              by_cases hr : rest = []
              · simp [hr, hlong, crossed]
              · simp [hr, hlong, hdir]
            | file content executable | device device =>
              have hdir : ¬ t.HasDir (here ++ [name]) := by simp [Tree.HasDir, he]
              by_cases hr : rest = []
              · simp [hr, hlong, Location.lead, hplace _ he, eq_comm]
              · simp [hr, hdir]
            | link target => exact absurd he (ht.noLink _ _)

theorem forall_isShort_moving :
    (∀ n ∈ moving names, isShort n) ↔ ∀ n ∈ names, isShort n := by
  refine ⟨fun h n hn => ?_, fun h n hn => h n (List.mem_filter.mp hn).1⟩
  by_cases hhere : n = "."
  · exact .inl hhere
  · exact h n (List.mem_filter.mpr ⟨hn, by simpa using hhere⟩)

theorem followWith_eq_error {cause : Cause} (ht : t.Regular) (hd : t.HasDir here)
    (h : ∀ l ∈ crossed here names, t.HasDir l)
    (he : followWith t followLast onLink here names = .error cause) : cause = .nameTooLong := by
  induction names generalizing here with
  | nil => cases he
  | cons name rest ih =>
    rw [followWith] at he
    rw [crossed] at h
    by_cases hhere : name = "."
    · rw [if_pos hhere] at he h
      exact ih hd h he
    · rw [if_neg hhere] at he h
      by_cases hup : name = ".."
      · rw [if_pos hup] at he h
        exact ih (hasDir_dropLast ht hd) h he
      · rw [if_neg hup] at he h
        split at he
        · exact (Except.error.inj he).symm
        · by_cases hr : rest = []
          · have hhd : t.get? here = some .directory := hd
            subst hr
            cases hnext : t.get? (here ++ [name]) with
            | none => simp [hnext, hhd] at he
            | some e =>
              cases e with
              | directory => simp [hnext, followWith] at he
              | file content executable => simp [hnext] at he
              | device device => simp [hnext] at he
              | link target => exact absurd hnext (ht.noLink _ _)
          · rw [if_neg hr] at h
            obtain ⟨hdir, hrest⟩ := List.forall_mem_cons.mp h
            rw [Tree.HasDir] at hdir
            simp only [hdir] at he
            exact ih hdir hrest he

theorem crossed_append_name {n : String} (hhere : n ≠ ".") (hup : n ≠ "..") (front : List String) :
    crossed here (front ++ [n]) = Location.entered here (moving front) := by
  induction front generalizing here with
  | nil => simp [crossed, Location.entered, hhere, hup]
  | cons name rest ih =>
    have hne : rest ++ [n] ≠ [] := by simp
    rw [List.cons_append, crossed]
    by_cases hh : name = "."
    · rw [if_pos hh, hh, moving_here, ih]
    · rw [if_neg hh, moving_cons hh, Location.entered, if_neg hne, ih, ih]

theorem crossed_subset_entered : crossed here names ⊆ Location.entered here (moving names) := by
  induction names generalizing here with
  | nil => exact List.Subset.refl _
  | cons name rest ih =>
    rw [crossed]
    by_cases hhere : name = "."
    · rw [if_pos hhere, hhere, moving_here]
      exact ih
    · rw [if_neg hhere, moving_cons hhere, Location.entered]
      by_cases hup : name = ".."
      · rw [if_pos hup, if_pos hup]
        exact ih
      · rw [if_neg hup, if_neg hup]
        split
        · exact List.nil_subset _
        · exact List.cons_subset_cons _ ih

theorem mem_crossed_or_eq_lead {l : Location} (h : l ∈ Location.entered here (moving names)) :
    l ∈ crossed here names ∨ l = Location.lead here (moving names) := by
  induction names generalizing here with
  | nil => cases h
  | cons name rest ih =>
    rw [crossed]
    by_cases hhere : name = "."
    · rw [hhere, moving_here] at h ⊢
      simpa using ih h
    · rw [moving_cons hhere, Location.entered] at h
      rw [moving_cons hhere, Location.lead, if_neg hhere]
      by_cases hup : name = ".."
      · rw [if_pos hup] at h
        rw [if_pos hup, if_pos hup]
        exact ih h
      · rw [if_neg hup] at h
        rw [if_neg hup, if_neg hup]
        by_cases hr : rest = []
        · subst hr
          exact .inr (by simpa [Location.entered, Location.lead] using h)
        · rw [if_neg hr]
          rcases List.mem_cons.mp h with rfl | h
          · exact .inl List.mem_cons_self
          · exact (ih h).imp_left (List.mem_cons_of_mem _)

theorem hasDir_lead_or (ht : t.Regular) (hd : t.HasDir here)
    (h : ∀ l ∈ crossed here names, t.HasDir l) :
    t.HasDir (Location.lead here (moving names)) ∨
      ∃ parent n, Location.lead here (moving names) = parent ++ [n] ∧ t.HasDir parent ∧
        names.getLast? = some n ∧ n ≠ "." ∧ n ≠ ".." := by
  induction names generalizing here with
  | nil => exact .inl hd
  | cons name rest ih =>
    have hlater : ∀ {there : Location}, (∃ parent n, there = parent ++ [n] ∧ t.HasDir parent ∧
        rest.getLast? = some n ∧ n ≠ "." ∧ n ≠ "..") →
        ∃ parent n, there = parent ++ [n] ∧ t.HasDir parent ∧
          (name :: rest).getLast? = some n ∧ n ≠ "." ∧ n ≠ ".." := by
      rintro there ⟨parent, n, he, hp, hn, hne⟩
      exact ⟨parent, n, he, hp, by simp [List.getLast?_cons, hn], hne⟩
    rw [crossed] at h
    by_cases hhere : name = "."
    · subst hhere
      rw [if_pos rfl] at h
      rw [moving_here]
      exact (ih hd h).imp_right hlater
    · rw [if_neg hhere] at h
      rw [moving_cons hhere, Location.lead]
      by_cases hup : name = ".."
      · rw [if_pos hup] at h
        rw [if_pos hup]
        exact (ih (hasDir_dropLast ht hd) h).imp_right hlater
      · rw [if_neg hup] at h
        rw [if_neg hup]
        by_cases hr : rest = []
        · subst hr
          exact .inr ⟨here, name, rfl, hd, rfl, hhere, hup⟩
        · rw [if_neg hr] at h
          obtain ⟨hnext, hrest⟩ := List.forall_mem_cons.mp h
          exact (ih hnext hrest).imp_right hlater

theorem hasDir_lead (ht : t.Regular) (hd : t.HasDir here)
    (h : ∀ l ∈ Location.entered here names, t.HasDir l) : t.HasDir (Location.lead here names) := by
  induction names generalizing here with
  | nil => exact hd
  | cons name rest ih =>
    rw [Location.entered] at h
    rw [Location.lead]
    by_cases hup : name = ".."
    · rw [if_pos hup] at h
      rw [if_pos hup]
      exact ih (hasDir_dropLast ht hd) h
    · rw [if_neg hup] at h
      rw [if_neg hup]
      obtain ⟨hnext, hrest⟩ := List.forall_mem_cons.mp h
      exact ih hnext hrest

end Follow

section Resolve

variable {d d' : Disk} {p : Path} {text : String} {followLast followLast' : Bool} {place : Place}
  {l : Location}

/-- Why a path cannot be asked for at all. -/
def pathFault? (text : String) : Option Cause :=
  if text.toList.contains '\x00' then some .zeroInPath
  else if text = "" then some .notFound
  else if pathLimit ≤ text.utf8ByteSize then some .nameTooLong
  else none

theorem pathFault?_eq_none : pathFault? text = none ↔
    '\x00' ∉ text.toList ∧ text ≠ "" ∧ text.utf8ByteSize < pathLimit := by
  unfold pathFault?
  split
  · rename_i hzero
    simp_all
  · split
    · simp_all
    · split
      · rename_i hlong
        simp only [reduceCtorEq, false_iff]
        exact fun h => absurd h.2.2 (by omega)
      · simp_all

theorem pathFault?_of_div {n : String} (hn : IsName n) (hp : p.text ≠ "")
    (h : pathFault? (p / n).text = none) : pathFault? p.text = none := by
  obtain ⟨more, hmore⟩ : ∃ more : String, (p / n).text = p.text ++ more := by
    rw [Path.div_eq hn]
    split
    · exact ⟨n, rfl⟩
    · exact ⟨"/" ++ n, String.append_assoc⟩
  rw [hmore, pathFault?_eq_none, String.toList_append, List.mem_append, not_or,
    String.utf8ByteSize_append] at h
  exact pathFault?_eq_none.mpr ⟨h.1.1, hp, by omega⟩

theorem resolve_of_fault {cause : Cause} (h : pathFault? text = some cause) :
    d.resolve text followLast = .error cause := by
  unfold pathFault? at h
  unfold resolve
  split at h
  · rename_i hc
    rw [if_pos hc, Option.some.inj h]
  · rename_i hc
    rw [if_neg hc]
    split at h
    · rename_i hc
      rw [if_pos hc, Option.some.inj h]
    · rename_i hc
      rw [if_neg hc]
      split at h
      · rename_i hc
        rw [if_pos hc, Option.some.inj h]
      · cases h

theorem resolve_of_no_fault (h : pathFault? text = none) :
    d.resolve text followLast = followWith d.tree followLast (follow d.tree followLast linkLimit)
      (startOf d.cwd text) (steps text) := by
  unfold pathFault? at h
  unfold resolve
  split at h
  · cases h
  · rename_i hc
    rw [if_neg hc]
    split at h
    · cases h
    · rename_i hc
      rw [if_neg hc]
      split at h
      · cases h
      · rename_i hc
        rw [if_neg hc, follow]

theorem Regular.hasDir_start (hd : d.Regular) (text : String) : d.tree.HasDir (startOf d.cwd text) := by
  rw [startOf]
  split
  · rfl
  · exact hd.cwd

theorem moving_steps (text : String) : moving (steps text) = (⟨text⟩ : Path).trail :=
  Path.filter_steps text

theorem resolve_congr (hd : d.Regular) (hd' : d'.Regular) (hcwd : d'.cwd = d.cwd)
    (h : ∀ l ∈ p.entered d.cwd, d'.tree.get? l = d.tree.get? l) :
    d'.resolve p.text followLast' = d.resolve p.text followLast := by
  cases hf : pathFault? p.text with
  | some cause => rw [resolve_of_fault hf, resolve_of_fault hf]
  | none =>
    have hstart := hd'.hasDir_start p.text
    rw [resolve_of_no_fault hf, resolve_of_no_fault hf]
    rw [hcwd] at hstart ⊢
    refine followWith_congr hd.tree hd'.tree (hd.hasDir_start _) hstart ?_
    rw [moving_steps]
    exact h

theorem resolve_eq_ok (hd : d.Regular) : d.resolve p.text followLast = .ok place ↔
    pathFault? p.text = none ∧ (∀ n ∈ steps p.text, isShort n) ∧
      (∀ l ∈ crossed (startOf d.cwd p.text) (steps p.text), d.tree.HasDir l) ∧
        place = placeAt d.tree (p.destination d.cwd) := by
  cases hf : pathFault? p.text with
  | some cause => simp [resolve_of_fault hf]
  | none =>
    rw [resolve_of_no_fault hf, followWith_eq_ok hd.tree (hd.hasDir_start _), moving_steps]
    simp [Path.destination]

theorem resolve_of_hasDir (followLast' : Bool) (hd : d.Regular) (hd' : d'.Regular) (hcwd : d'.cwd = d.cwd)
    (hdirs : ∀ l, d.tree.HasDir l → d'.tree.HasDir l) (h : d.resolve p.text followLast = .ok place) :
    d'.resolve p.text followLast' = .ok (placeAt d'.tree (p.destination d.cwd)) := by
  obtain ⟨hf, hshort, hcross, -⟩ := (resolve_eq_ok hd).mp h
  refine (resolve_eq_ok hd').mpr ⟨hf, hshort, ?_, ?_⟩
  · rw [hcwd]
    exact fun l hl => hdirs l (hcross l hl)
  · rw [hcwd]

theorem placeAt_eq_taken {t : Tree} {e : Entry} {l' : Location} (h : placeAt t l = .taken l' e) :
    l' = l ∧ t.get? l = some e := by
  unfold placeAt at h
  split at h
  · rename_i he
    obtain ⟨rfl, rfl⟩ := Place.taken.inj h
    exact ⟨rfl, he⟩
  · cases h

theorem placeAt_eq_free {t : Tree} {l' : Location} (h : placeAt t l = .free l') :
    l' = l ∧ t.get? l = none := by
  unfold placeAt at h
  split at h
  · cases h
  · rename_i he
    obtain rfl := Place.free.inj h
    exact ⟨rfl, he⟩

theorem entryAt_eq_ok {e : Entry} :
    d.entryAt p followLast = .ok (l, e) ↔ d.resolve p.text followLast = .ok (.taken l e) := by
  unfold entryAt
  cases d.resolve p.text followLast with
  | error cause => simp
  | ok place => cases place <;> simp

theorem isDir_eq_true_iff : d.isDir p = true ↔ ∃ l, d.resolve p.text true = .ok (.taken l .directory) := by
  unfold isDir entryAt
  cases d.resolve p.text true with
  | error cause => simp
  | ok place =>
    cases place with
    | free l => simp
    | taken l e => cases e <;> simp

/-- A path leads through directories only and ends in one. -/
structure Leads (d : Disk) (p : Path) : Prop where
  short : ∀ n ∈ p.trail, isShort n
  entered : ∀ l ∈ p.entered d.cwd, d.tree.HasDir l

theorem Leads.hasDir (hd : d.Regular) (h : d.Leads p) : d.tree.HasDir (p.destination d.cwd) :=
  hasDir_lead hd.tree (hd.hasDir_start p.text) h.entered

theorem Leads.hasDir_of_mem_exits {l : Location} (hd : d.Regular) (h : d.Leads p)
    (hl : l ∈ p.exits d.cwd) : d.tree.HasDir l := by
  rcases Location.prefix_or_mem_entered_of_mem_exits hl with hl | hl
  · exact hd.tree.hasDir_of_prefix (hd.hasDir_start p.text) hl
  · exact h.entered l hl

theorem Leads.of_div {n : String} (hn : IsName n) (h : d.Leads (p / n)) : d.Leads p where
  short m hm := h.short m (by rw [Path.trail_div hn]; exact List.mem_append_left _ hm)
  entered l hl := h.entered l (by rw [Path.entered_div hn]; exact List.mem_append_left _ hl)

theorem isDir_iff (hd : d.Regular) : d.isDir p = true ↔ pathFault? p.text = none ∧ d.Leads p := by
  have hshort : (∀ n ∈ steps p.text, isShort n) ↔ ∀ n ∈ p.trail, isShort n := by
    rw [← forall_isShort_moving, moving_steps]
  rw [isDir_eq_true_iff]
  simp only [resolve_eq_ok hd, hshort]
  constructor
  · rintro ⟨l, hf, hs, hcross, hplace⟩
    refine ⟨hf, hs, fun k hk => ?_⟩
    rw [Path.entered, ← moving_steps] at hk
    rcases mem_crossed_or_eq_lead hk with hk | rfl
    · exact hcross k hk
    · rw [moving_steps]
      exact (placeAt_eq_taken hplace.symm).2
  · rintro ⟨hf, hleads⟩
    have hdir := hleads.hasDir hd
    refine ⟨p.destination d.cwd, hf, hleads.short, fun k hk => hleads.entered k ?_, ?_⟩
    · have hk' := crossed_subset_entered hk
      rwa [moving_steps] at hk'
    · rw [Tree.HasDir] at hdir
      rw [placeAt, hdir]

end Resolve

end Disk

end GrammarHeaders
