import GrammarHeaders.Proofs.RootStage

namespace GrammarHeaders

variable {o : Options} {s t u : Session} {d : Disk} {repo : Path}

namespace Location

/-- Neither of two locations is at or above the other. -/
def Apart (k l : Location) : Prop := ¬ k <+: l ∧ ¬ l <+: k

instance (k l : Location) : Decidable (Apart k l) := inferInstanceAs (Decidable (_ ∧ _))

theorem Apart.not_prefix_both {k l m : Location} (h : Apart k l) (hk : k <+: m) : ¬ l <+: m :=
  fun hl => (List.prefix_or_prefix_of_prefix hk hl).elim h.1 h.2

end Location

def accepted (claims : List (Except Failure Path)) : List Path := claims.filterMap Except.toOption

theorem mem_accepted {claims : List (Except Failure Path)} :
    repo ∈ accepted claims ↔ .ok repo ∈ claims := by
  rw [accepted, List.mem_filterMap]
  constructor
  · rintro ⟨claim, hc, he⟩
    cases claim with
    | error failure => cases he
    | ok r => exact Option.some.inj he ▸ hc
  · exact fun h => ⟨_, h, rfl⟩

theorem accepted_map_ok (order : List Path) : accepted (order.map .ok) = order := by
  induction order with
  | nil => rfl
  | cons repo rest ih => simpa [accepted, Except.toOption] using ih

theorem assignNames_spec (d : Disk) (taken : List (String × Path)) (repos : List Path) :
    (accepted (assignNames d taken repos)).Pairwise
        (fun a b => moduleNameOf d a ≠ moduleNameOf d b) ∧
      ∀ repo ∈ accepted (assignNames d taken repos),
        repo ∈ repos ∧ taken.lookup (moduleNameOf d repo) = none := by
  induction repos generalizing taken with
  | nil => exact ⟨.nil, nofun⟩
  | cons repo rest ih =>
    rw [assignNames]
    split
    · obtain ⟨hpair, hmem⟩ := ih taken
      exact ⟨hpair, fun r hr => ⟨List.mem_cons_of_mem _ (hmem r hr).1, (hmem r hr).2⟩⟩
    · rename_i hfree
      obtain ⟨hpair, hmem⟩ := ih (taken ++ [(moduleNameOf d repo, repo)])
      have hsplit : ∀ r ∈ accepted (assignNames d (taken ++ [(moduleNameOf d repo, repo)]) rest),
          taken.lookup (moduleNameOf d r) = none ∧ moduleNameOf d repo ≠ moduleNameOf d r := by
        intro r hr
        have hl := (hmem r hr).2
        rw [List.lookup_append, Option.or_eq_none_iff] at hl
        refine ⟨hl.1, fun he => ?_⟩
        simp [he] at hl
      constructor
      · exact List.pairwise_cons.mpr ⟨fun r hr => (hsplit r hr).2, hpair⟩
      · exact List.forall_mem_cons.mpr ⟨⟨List.mem_cons_self, hfree⟩,
          fun r hr => ⟨List.mem_cons_of_mem _ (hmem r hr).1, (hsplit r hr).1⟩⟩

/-- What a grammar comes to when it is processed alone, without a binding generator. -/
def alone (o : Options) (u : Session) (repo : Path) : Except Failure (LanguageHeader × Outcome) :=
  (Stage.start (processGrammar repo o.headersOut o.config) u).1.map fun header => (header, .skipped)

theorem alone_eq_of_sameOutcome {result : Except Failure (LanguageHeader × Outcome)}
    (h : SameOutcome (fun a b => a = (b, .skipped)) result
      (Stage.start (processGrammar repo o.headersOut o.config) u).1) : result = alone o u repo := by
  rw [alone]
  generalize (Stage.start (processGrammar repo o.headersOut o.config) u).1 = result' at h
  cases result <;> cases result'
  · exact congrArg _ h
  · exact h.elim
  · exact h.elim
  · exact congrArg _ h

def diskAlone (o : Options) (u : Session) (repo : Path) : Disk :=
  (Stage.start (processGrammar repo o.headersOut o.config) u).2.disk

theorem not_publishes_both {a b : Path} {l : Location} (hne : moduleNameOf d a ≠ moduleNameOf d b)
    (ha : Publishes o d a l) : ¬ Publishes o d b l := by
  rintro hb
  rcases ha with ⟨-, rfl⟩ | ⟨-, rfl⟩ <;> rcases hb with ⟨-, hb⟩ | ⟨-, hb⟩ <;>
    have hb := List.append_cancel_left hb <;> simp_all

/-- A disk on which some grammars have been worked on, each with what it leaves when it is alone. -/
structure Progress (o : Options) (u : Session) (done : List Path) (d : Disk) : Prop where
  grows : Disk.Grows (fun l => ∃ repo ∈ done, MakesDir o u.disk repo l)
    (fun l => ∃ repo ∈ done, WritesFile o u.disk repo l) u.disk d
  published : ∀ repo ∈ done, ∀ l, Publishes o u.disk repo l →
    d.tree.get? l = (diskAlone o u repo).tree.get? l

/-- A grammar that others cannot disturb: it has its checkout apart from the headers, and its path
leaves no directory by `..` that is only there when another one has been processed. -/
structure Separate (o : Options) (u : Session) (others : List Path) (repo : Path) : Prop where
  apart : (repo.destination u.disk.cwd).Apart (o.headersOut.destination u.disk.cwd)
  exits : ∀ l ∈ repo.exits u.disk.cwd, ∀ other ∈ others,
    (diskAlone o u other).tree.HasDir l → u.disk.tree.HasDir l

theorem publishes_below {l : Location} (h : Publishes o d repo l) :
    o.headersOut.destination d.cwd <+: l := by
  rcases h with ⟨-, rfl⟩ | ⟨-, rfl⟩ <;> exact List.prefix_append _ _

theorem Progress.mem_done {done : List Path} {l : Location}
    (h : (∃ r ∈ done, MakesDir o d r l) ∨ ∃ r ∈ done, WritesFile o d r l) :
    ∃ r ∈ done, Publishes o d r l := by
  rcases h with ⟨r, hr, hl⟩ | ⟨r, hr, hl⟩
  · exact ⟨r, hr, .inl hl⟩
  · exact ⟨r, hr, .inr hl⟩

theorem Progress.spared {done : List Path} (h : Progress o u done d) (hu : u.disk.Regular)
    (hrepo : Separate o u done repo) : Spared repo u.disk d where
  regular := hu
  grows := by
    refine ⟨_, _, h.grows, fun l hl hbelow => ?_⟩
    obtain ⟨r, -, hl⟩ := mem_done hl
    exact hrepo.apart.not_prefix_both hbelow (publishes_below hl)
  exits l hl hdir := by
    by_cases hm : ∃ r ∈ done, MakesDir o u.disk r l
    · obtain ⟨r, hr, hm⟩ := hm
      exact hrepo.exits l hl r hr ((h.published r hr l (.inl hm)).symm.trans hdir)
    · exact (h.grows.tree.hasDir_iff hm).mp hdir

theorem Progress.step {done : List Path} (h : Progress o u done s.disk) (hu : u.disk.Regular)
    (hout : u.disk.Leads o.headersOut) (hrepo : Separate o u done repo)
    (hnames : ∀ other ∈ done, moduleNameOf u.disk other ≠ moduleNameOf u.disk repo) :
    (Stage.start (runModule o Generator.none repo) s).1 = alone o u repo ∧
      Progress o u (repo :: done) (Stage.start (runModule o Generator.none repo) s).2.disk := by
  have hspared := h.spared hu hrepo
  have harea : ∀ l, Publishes o u.disk repo l → u.disk.tree.get? l = s.disk.tree.get? l := by
    intro l hl
    have hnot : ∀ r ∈ done, ¬ Publishes o u.disk r l := fun r hr hr' => not_publishes_both (hnames r hr) hr' hl
    refine (h.grows.tree.get?_eq (fun hm => ?_) fun hw => ?_).symm
    · obtain ⟨r, hr, hm⟩ := hm
      exact hnot r hr (.inl hm)
    · obtain ⟨r, hr, hw⟩ := hw
      exact hnot r hr (.inr hw)
  obtain ⟨hresult, hdisk⟩ := runModule_spared hspared (.refl repo hu) hout harea
  have hrun := runModule_grows repo (h.grows.regular hu) (h.grows.leads hout)
  have hmakes : ∀ l, MakesDir o s.disk repo l → MakesDir o u.disk repo l := fun l hl => by
    rw [MakesDir, hspared.moduleNameOf, hspared.cwd] at hl
    exact hl
  have hwrites : ∀ l, WritesFile o s.disk repo l → WritesFile o u.disk repo l := fun l hl => by
    rw [WritesFile, hspared.moduleNameOf, hspared.cwd] at hl
    exact hl
  refine ⟨alone_eq_of_sameOutcome hresult, ?_, ?_⟩
  · refine (h.grows.mono ?_ ?_).trans (hrun.mono ?_ ?_)
    · rintro l ⟨r, hr, hl⟩
      exact ⟨r, List.mem_cons_of_mem _ hr, hl⟩
    · rintro l ⟨r, hr, hl⟩
      exact ⟨r, List.mem_cons_of_mem _ hr, hl⟩
    · exact fun l hl => ⟨repo, List.mem_cons_self, hmakes l hl⟩
    · exact fun l hl => ⟨repo, List.mem_cons_self, hwrites l hl⟩
  · intro r hr l hl
    rcases List.mem_cons.mp hr with rfl | hr
    · exact hdisk l hl
    · have hnot := not_publishes_both (hnames r hr) hl
      rw [hrun.tree.get?_eq (fun hm => hnot (.inl (hmakes l hm))) fun hw => hnot (.inr (hwrites l hw))]
      exact h.published r hr l hl

theorem Progress.of_mem_iff {done done' : List Path} (h : Progress o u done d)
    (hmem : ∀ repo, repo ∈ done ↔ repo ∈ done') : Progress o u done' d where
  grows := h.grows.mono (fun _ ⟨r, hr, hl⟩ => ⟨r, (hmem r).mp hr, hl⟩)
    fun _ ⟨r, hr, hl⟩ => ⟨r, (hmem r).mp hr, hl⟩
  published r hr := h.published r ((hmem r).mpr hr)

theorem Separate.mono {others others' : List Path} (h : Separate o u others repo)
    (hsub : others' ⊆ others) : Separate o u others' repo :=
  ⟨h.apart, fun l hl other ho => h.exits l hl other (hsub ho)⟩

theorem runModules_progress {claims : List (Except Failure Path)} {done all : List Path}
    (hu : u.disk.Regular) (hout : u.disk.Leads o.headersOut) (hdone : done ⊆ all)
    (hall : accepted claims ⊆ all) (hsep : ∀ repo ∈ accepted claims, Separate o u all repo)
    (hpair : (accepted claims).Pairwise fun a b => moduleNameOf u.disk a ≠ moduleNameOf u.disk b)
    (hnew : ∀ a ∈ done, ∀ b ∈ accepted claims, moduleNameOf u.disk a ≠ moduleNameOf u.disk b)
    (h : Progress o u done s.disk) :
    ∃ t, Stage.start (runModules o Generator.none claims) s =
        (.ok (claims.map fun claim => claim.bind (alone o u)), t) ∧
      Progress o u (done ++ accepted claims) t.disk := by
  induction claims generalizing s done with
  | nil => exact ⟨s, rfl, by simpa [accepted] using h⟩
  | cons claim rest ih =>
    cases claim with
    | error failure =>
      obtain ⟨t, ht, hprogress⟩ := ih hdone hall hsep hpair hnew h
      exact ⟨t, start_runModules_error ht, hprogress⟩
    | ok repo =>
      have haccepted : accepted (.ok repo :: rest) = repo :: accepted rest := rfl
      rw [haccepted] at hall hsep hpair hnew ⊢
      obtain ⟨hrepo, hrest⟩ := List.forall_mem_cons.mp hsep
      obtain ⟨hfirst, hpair⟩ := List.pairwise_cons.mp hpair
      obtain ⟨hresult, hprogress⟩ := h.step hu hout (hrepo.mono hdone)
        fun a ha => hnew a ha repo List.mem_cons_self
      obtain ⟨t, ht, hprogress⟩ := ih
        (List.cons_subset.mpr ⟨hall List.mem_cons_self, hdone⟩)
        (fun r hr => hall (List.mem_cons_of_mem _ hr)) hrest hpair
        (List.forall_mem_cons.mpr ⟨hfirst, fun a ha b hb => hnew a ha b (List.mem_cons_of_mem _ hb)⟩)
        hprogress
      refine ⟨t, start_runModules_ok (Prod.ext hresult rfl) ht, hprogress.of_mem_iff fun r => ?_⟩
      simp only [List.mem_append, List.mem_cons]
      tauto

theorem Progress.get?_eq {done : List Path} {d' : Disk} (h : Progress o u done d)
    (h' : Progress o u done d') (l : Location) : d'.tree.get? l = d.tree.get? l := by
  by_cases hl : ∃ repo ∈ done, Publishes o u.disk repo l
  · obtain ⟨repo, hr, hl⟩ := hl
    rw [h.published repo hr l hl, h'.published repo hr l hl]
  · have hm : ¬ ∃ repo ∈ done, MakesDir o u.disk repo l := fun ⟨r, hr, hm⟩ => hl ⟨r, hr, .inl hm⟩
    have hw : ¬ ∃ repo ∈ done, WritesFile o u.disk repo l := fun ⟨r, hr, hw⟩ => hl ⟨r, hr, .inr hw⟩
    rw [h.grows.tree.get?_eq hm hw, h'.grows.tree.get?_eq hm hw]

theorem Action.readText_of_updateInPlace {α : Type} {p : Path} {transform : Text → Text × α}
    {result : Bool × α} (hs : s.disk.Regular)
    (h : Stage.start (Action.updateInPlace p transform) s = (.ok result, t)) :
    ∃ text, t.disk.readText p = .ok text := by
  unfold Action.updateInPlace at h
  obtain ⟨before, s₁, hread, h⟩ := Stage.start_bind_eq_ok.mp h
  obtain ⟨hbefore, rfl⟩ := Action.start_readText_eq_ok.mp hread
  dsimp only at h
  split at h
  · obtain ⟨-, rfl⟩ := Prod.mk.inj h
    exact ⟨before, hbefore⟩
  · obtain ⟨_, s₂, hwrite, h⟩ := Stage.start_bind_eq_ok.mp h
    obtain ⟨-, rfl⟩ := Prod.mk.inj h
    rw [Action.writeText, Action.start_change] at hwrite
    split at hwrite
    · rename_i d hw
      obtain ⟨-, rfl⟩ := Prod.mk.inj hwrite
      rcases Disk.readText_of_write hs hw with hr | hsame
      · exact ⟨_, hr⟩
      · exact ⟨before, hsame ▸ hbefore⟩
    · cases hwrite

theorem processGrammar_eq_ok {header : LanguageHeader} (hu : u.disk.Regular)
    (h : Stage.start (processGrammar repo o.headersOut o.config) u = (.ok header, t)) :
    ModuleName.isIdentifierFragment (moduleNameOf u.disk repo) = true ∧
      header.headerPath = Header.outputPath o.headersOut (moduleNameOf u.disk repo) ∧
      ∃ text, t.disk.readText header.headerPath = .ok text := by
  cases hd : Stage.start (LanguageModule.discover repo) u with
  | mk result v =>
    have hv := LanguageModule.reads_discover repo u
    rw [hd] at hv
    cases result with
    | error fault =>
      rw [start_processGrammar_of_error hd] at h
      cases h
    | ok m =>
      have hm := LanguageModule.discover_eq_ok hu hd
      rw [start_processGrammar_of_ok hd] at h
      obtain ⟨_, v₁, hlog, h⟩ := Stage.start_bind_eq_ok.mp h
      have hv₁ : v₁.disk.Regular := by
        obtain ⟨-, rfl⟩ := Prod.mk.inj hlog
        exact hv ▸ hu
      obtain ⟨path, v₂, hwrite, h⟩ := Stage.start_bind_eq_ok.mp h
      obtain rfl := gives_writeLanguageHeader _ _ _ _ _ _ hwrite
      have hg := grows_writeLanguageHeader m o.headersOut o.config v₁ hv₁ rfl
      rw [hwrite] at hg
      obtain ⟨result, v₃, hupdate, h⟩ := Stage.start_bind_eq_ok.mp h
      obtain ⟨_, v₄, hlog, h⟩ := Stage.start_bind_eq_ok.mp h
      obtain ⟨-, rfl⟩ := Prod.mk.inj hlog
      obtain ⟨hheader, rfl⟩ := Prod.mk.inj h
      obtain rfl := Except.ok.inj hheader
      obtain ⟨text, ht⟩ := Action.readText_of_updateInPlace (hg.regular hv₁) hupdate
      exact ⟨hm.name ▸ hm.isIdentifier, by rw [← hm.name], text, ht⟩

theorem Progress.readText_header {done : List Path} {header : LanguageHeader} {outcome : Outcome}
    (h : Progress o u done d) (hu : u.disk.Regular) (hout : u.disk.Leads o.headersOut)
    (hrepo : repo ∈ done) (hok : alone o u repo = .ok (header, outcome)) :
    ∃ text, (diskAlone o u repo).readText header.headerPath = .ok text ∧
      d.readText header.headerPath = .ok text := by
  have halone := processGrammar_grows repo hu hout
  cases hp : Stage.start (processGrammar repo o.headersOut o.config) u with
  | mk result t =>
    rw [alone, hp] at hok
    cases result with
    | error failure => cases hok
    | ok header' =>
      obtain ⟨rfl, -⟩ := Prod.mk.inj (Except.ok.inj hok)
      obtain ⟨hid, hpath, text, htext⟩ := processGrammar_eq_ok hu hp
      have hdisk : diskAlone o u repo = t.disk := by rw [diskAlone, hp]
      rw [hp, ← hdisk] at halone
      have hentered : ∀ l ∈ header'.headerPath.entered u.disk.cwd,
          d.tree.get? l = (diskAlone o u repo).tree.get? l := by
        intro l hl
        rw [hpath, entered_outputPath (isName_of_isIdentifierFragment hid)] at hl
        rcases List.mem_append.mp hl with hl | hl
        · have hdir := hout.entered l hl
          exact (h.grows.tree.hasDir hdir).trans (halone.tree.hasDir hdir).symm
        · refine h.published repo hrepo l ?_
          rcases List.mem_cons.mp hl with hl | hl
          · exact .inl ⟨hid, hl⟩
          · exact .inr ⟨hid, List.mem_singleton.mp hl⟩
      have hagree : Disk.Agree u.disk.cwd (· ∈ header'.headerPath.entered u.disk.cwd) (fun _ => False)
          (diskAlone o u repo) d :=
        ⟨halone.regular hu, h.grows.regular hu, halone.cwd, h.grows.cwd, hentered, nofun⟩
      have hread := hagree.readText fun _ => id
      exact ⟨text, hdisk ▸ htext, hread.trans (hdisk ▸ htext)⟩

/-- The result of a claim: its own failure, or what its grammar has come to. -/
def resultOf (results : List (Path × Except Failure (LanguageHeader × Outcome))) :
    Except Failure Path → Option (Except Failure (LanguageHeader × Outcome))
  | .error failure => some (.error failure)
  | .ok repo => results.lookup repo

/-- The results of all claims, in the order of the claims. -/
def gather (results : List (Path × Except Failure (LanguageHeader × Outcome)))
    (claims : List (Except Failure Path)) : Option (List (Except Failure (LanguageHeader × Outcome))) :=
  claims.mapM (resultOf results)

theorem lookup_zip_map {α β : Type} [DecidableEq α] (f : α → β) {keys : List α} {a : α} (h : a ∈ keys) :
    (keys.zip (keys.map f)).lookup a = some (f a) := by
  induction keys with
  | nil => cases h
  | cons key rest ih =>
    rw [List.map_cons, List.zip_cons_cons]
    by_cases hk : a = key
    · rw [hk, List.lookup_cons_self]
    · have hne : (a == key) = false := by simpa using hk
      rw [List.lookup_cons, hne]
      exact ih ((List.mem_cons.mp h).resolve_left hk)

theorem gather_eq {f : Path → Except Failure (LanguageHeader × Outcome)} {order : List Path}
    {claims : List (Except Failure Path)} (h : ∀ repo, .ok repo ∈ claims → repo ∈ order) :
    gather (order.zip (order.map f)) claims = some (claims.map fun claim => claim.bind f) := by
  rw [gather]
  induction claims with
  | nil => rfl
  | cons claim rest ih =>
    have hclaim : resultOf (order.zip (order.map f)) claim = some (claim.bind f) := by
      cases claim with
      | error failure => rfl
      | ok repo => exact lookup_zip_map f (h repo List.mem_cons_self)
    rw [List.mapM_cons, hclaim, ih fun repo hr => h repo (List.mem_cons_of_mem _ hr)]
    rfl

/-- Grammars that have got their names are run in some order, from where the root stage has left the
disk. -/
structure Undisturbed (o : Options) (u : Session) (claims : List (Except Failure Path))
    (order : List Path) : Prop where
  /-- Each grammar comes to what processing it alone comes to. -/
  results : (Stage.start (runModules o Generator.none (order.map .ok)) u).1 =
    .ok (order.map (alone o u))
  /-- The results can be given in the order of the claims, and the pipeline, which goes through the
  claims themselves, has the same. -/
  gathered : ∃ inOrder, gather (order.zip (order.map (alone o u))) claims = some inOrder ∧
    (Stage.start (runModules o Generator.none claims) u).1 = .ok inOrder
  /-- In the end the disk is the one that the pipeline leaves. -/
  disk : ∀ l, (Stage.start (runModules o Generator.none (order.map .ok)) u).2.disk.tree.get? l =
    (Stage.start (runModules o Generator.none claims) u).2.disk.tree.get? l
  /-- Every header is there and is the one that its grammar writes alone. -/
  headers : ∀ repo ∈ order, ∀ header outcome, alone o u repo = .ok (header, outcome) →
    ∃ text, (diskAlone o u repo).readText header.headerPath = .ok text ∧
      (Stage.start (runModules o Generator.none (order.map .ok)) u).2.disk.readText header.headerPath =
        .ok text

/-- After a root stage that has succeeded, grammars do not disturb each other, whatever the order
they are worked on: their checkouts are apart from the headers, and no path of theirs leaves by `..`
a directory that comes with one of them. -/
theorem modules_undisturbed {root : RootLibrary} {outcome : Outcome} {headers : List Path}
    {order : List Path} (hs : s.disk.Regular)
    (hroot : Stage.start (rootStage o Generator.none) s = (.ok (root, outcome, headers), u))
    (hsep : ∀ repo ∈ accepted (assignNames u.disk [(root.name, root.repo)] o.grammarRepos),
      Separate o u (accepted (assignNames u.disk [(root.name, root.repo)] o.grammarRepos)) repo)
    (horder : order.Perm (accepted (assignNames u.disk [(root.name, root.repo)] o.grammarRepos))) :
    Undisturbed o u (assignNames u.disk [(root.name, root.repo)] o.grammarRepos) order := by
  obtain ⟨hgrows, hdir⟩ := rootStage_grows hs hroot
  have hname := isName_of_isIdentifierFragment (start_rootStage_eq_ok hroot).1.isIdentifier
  have hu := hgrows.regular hs
  have hout := ((Disk.isDir_iff hu).mp hdir).2.of_div hname
  obtain ⟨hpair, -⟩ := assignNames_spec u.disk [(root.name, root.repo)] o.grammarRepos
  generalize hclaims : assignNames u.disk [(root.name, root.repo)] o.grammarRepos = claims at *
  have hstart : Progress o u [] u.disk := ⟨.refl _ _ _, nofun⟩
  -- any list of the same grammars is worked off with the same progress
  have hrun : ∀ claims' : List (Except Failure Path), (accepted claims').Perm (accepted claims) →
      ∃ t, Stage.start (runModules o Generator.none claims') u =
          (.ok (claims'.map fun claim => claim.bind (alone o u)), t) ∧
        Progress o u (accepted claims) t.disk := by
    intro claims' hperm
    have hin : ∀ repo ∈ accepted claims', repo ∈ accepted claims := fun repo => hperm.mem_iff.mp
    have hpair' := hperm.symm.pairwise hpair fun hne he => hne he.symm
    obtain ⟨t, ht, hprogress⟩ := runModules_progress hu hout (List.nil_subset _) hin
      (fun repo hr => hsep repo (hin repo hr)) hpair' nofun hstart
    exact ⟨t, ht, hprogress.of_mem_iff fun repo => by simp [hperm.mem_iff]⟩
  obtain ⟨t, ht, hprogress⟩ := hrun (order.map .ok) (by rw [accepted_map_ok]; exact horder)
  obtain ⟨w, hw, hprogress'⟩ := hrun claims (List.Perm.refl _)
  have hmap : (order.map (.ok : Path → Except Failure Path)).map (fun claim => claim.bind (alone o u)) =
      order.map (alone o u) := by
    rw [List.map_map]
    rfl
  refine ⟨?_, ⟨_, gather_eq fun repo hr => ?_, ?_⟩, fun l => ?_, fun repo hr header outcome hok => ?_⟩
  · rw [ht, hmap]
  · exact horder.mem_iff.mpr (mem_accepted.mpr hr)
  · rw [hw]
  · rw [ht, hw]
    exact hprogress'.get?_eq hprogress l
  · rw [ht]
    exact hprogress.readText_header hu hout (horder.mem_iff.mp hr) hok

def toyParser (factory : String) : Content :=
  .text (Marker.guardToken ++ ['\n'] ++ Marker.signatureOpening ++ factory.toList ++
    Marker.signatureClosing ++ ['{'] ++ Marker.endingOpening ++ ['\n', '}'])

def toyDisk : Disk where
  tree.entries := [(["core"], .directory), (["core", "a.h"], .file (.text []) false),
    (["j"], .directory), (["j", "src"], .directory),
    (["j", "src", "parser.c"], .file (toyParser "tree_sitter_j") false),
    (["k"], .directory), (["k", "src"], .directory),
    (["k", "src", "parser.c"], .file (toyParser "tree_sitter_k") false)]

theorem regular_toyDisk : toyDisk.Regular :=
  ⟨.of_entries (by decide +kernel) (by decide +kernel), rfl⟩

def toyOptions (grammars : List Path) : Options where
  rootRepo := ⟨"core"⟩
  grammarRepos := grammars
  bindingsOut := ⟨"b"⟩
  headersOut := ⟨"h"⟩
  smokeTestOut := none
  config := { exportMacro := ⟨"E", "A", "B", "C", "D"⟩, layout := { rootIncludeDir := ⟨"."⟩ } }

def toyRoot : RootLibrary := ⟨"core", ⟨"core"⟩, ⟨"core/."⟩, [⟨"core/./a.h"⟩]⟩

def toySession (grammars : List Path) : Session :=
  (Stage.start (rootStage (toyOptions grammars) Generator.none) ⟨toyDisk, [], []⟩).2

def sideBySide : List Path := [⟨"j"⟩, ⟨"k"⟩]

def climbing : List Path := [⟨"j"⟩, ⟨"h/j/../../k"⟩]

theorem modules_undisturbed_toy :
    Undisturbed (toyOptions sideBySide) (toySession sideBySide) (sideBySide.map .ok) [⟨"k"⟩, ⟨"j"⟩] ∧
      ∀ repo ∈ sideBySide, (alone (toyOptions sideBySide) (toySession sideBySide) repo).isOk = true := by
  refine ⟨?_, by decide +kernel⟩
  have hroot : (Stage.start (rootStage (toyOptions sideBySide) Generator.none) ⟨toyDisk, [], []⟩).1 =
      .ok (toyRoot, .skipped, [⟨"h/core/a.h"⟩]) := by decide +kernel
  have hclaims : assignNames (toySession sideBySide).disk [(toyRoot.name, toyRoot.repo)]
      (toyOptions sideBySide).grammarRepos = sideBySide.map .ok := by decide +kernel
  have hpaths : ∀ repo ∈ sideBySide,
      (repo.destination (toySession sideBySide).disk.cwd).Apart
        ((toyOptions sideBySide).headersOut.destination (toySession sideBySide).disk.cwd) ∧
        repo.exits (toySession sideBySide).disk.cwd = [] := by decide +kernel
  have haccepted : accepted (assignNames (toySession sideBySide).disk [(toyRoot.name, toyRoot.repo)]
      (toyOptions sideBySide).grammarRepos) = sideBySide := by rw [hclaims, accepted_map_ok]
  rw [← hclaims]
  refine modules_undisturbed regular_toyDisk (Prod.ext hroot rfl) (fun repo hr => ?_) ?_
  · rw [haccepted] at hr
    exact ⟨(hpaths repo hr).1, fun l hl => absurd hl (by simp [(hpaths repo hr).2])⟩
  · rw [haccepted]
    exact List.Perm.swap _ _ _

/-- It is not enough that the checkouts are apart from the headers: a grammar whose path leads
through the module directory of another one fails alone, but not after the other one. -/
theorem climbing_disturbed :
    toyDisk.Regular ∧
    (Stage.start (rootStage (toyOptions climbing) Generator.none) ⟨toyDisk, [], []⟩).1 =
      .ok (toyRoot, .skipped, [⟨"h/core/a.h"⟩]) ∧
    (∀ repo ∈ climbing, (repo.destination toyDisk.cwd).Apart
      ((toyOptions climbing).headersOut.destination toyDisk.cwd)) ∧
    assignNames (toySession climbing).disk [(toyRoot.name, toyRoot.repo)] climbing = climbing.map .ok ∧
    alone (toyOptions climbing) (toySession climbing) ⟨"h/j/../../k"⟩ =
      .error (.layout ⟨"h/j/../../k"⟩ (.directoryNotFound ⟨"h/j/../../k"⟩)) ∧
    (Stage.start (runModules (toyOptions climbing) Generator.none (climbing.map .ok))
        (toySession climbing)).1 =
      .ok [.ok (⟨"j", ⟨"h/j/j.h"⟩, 1⟩, .skipped), .ok (⟨"k", ⟨"h/k/k.h"⟩, 1⟩, .skipped)] :=
  ⟨regular_toyDisk, by decide +kernel, by decide +kernel, by decide +kernel, by decide +kernel,
    by decide +kernel⟩

end GrammarHeaders
