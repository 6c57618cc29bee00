import GrammarHeaders.Proofs.Schedules
import GrammarHeaders.Proofs.Turns

namespace GrammarHeaders

variable {d : Disk} {root : RootLibrary} {repos : List Path}

/-- The first that comes for a name: the root library comes before all grammars. -/
def FirstToCome (d : Disk) (root : RootLibrary) (repos : List Path) (name : String)
    (first : Path) : Prop :=
  name = root.name ∧ first = root.repo ∨
  name ≠ root.name ∧ ∃ before after, repos = before ++ first :: after ∧
    moduleNameOf d first = name ∧ ∀ repo ∈ before, moduleNameOf d repo ≠ name

/-- All that come for a name, in their order. -/
def comers (d : Disk) (root : RootLibrary) (repos : List Path) : List (String × Path) :=
  (root.name, root.repo) :: repos.map fun repo => (moduleNameOf d repo, repo)

theorem lookup_cons_of_ne {name key : String} (h : name ≠ key) (repo : Path)
    (rest : List (String × Path)) : ((key, repo) :: rest).lookup name = rest.lookup name := by
  rw [List.lookup_cons, beq_eq_false_iff_ne.2 h]

theorem lookup_map_eq_none {name : String} :
    (repos.map fun repo => (moduleNameOf d repo, repo)).lookup name = none ↔
      ∀ repo ∈ repos, moduleNameOf d repo ≠ name := by
  induction repos with
  | nil => simp
  | cons repo rest ih =>
    by_cases h : name = moduleNameOf d repo
    · simp [h]
    · have hne : moduleNameOf d repo ≠ name := fun he => h he.symm
      simp [lookup_cons_of_ne h, hne, ih]

theorem lookup_map_eq_some {name : String} {first : Path}
    (h : (repos.map fun repo => (moduleNameOf d repo, repo)).lookup name = some first) :
    ∃ before after, repos = before ++ first :: after ∧
      moduleNameOf d first = name ∧ ∀ repo ∈ before, moduleNameOf d repo ≠ name := by
  induction repos with
  | nil => cases h
  | cons repo rest ih =>
    by_cases hname : name = moduleNameOf d repo
    · subst hname
      simp only [List.map_cons, List.lookup_cons_self, Option.some.injEq] at h
      subst h
      exact ⟨[], rest, rfl, rfl, by simp⟩
    · have hne : moduleNameOf d repo ≠ name := fun he => hname he.symm
      rw [List.map_cons, lookup_cons_of_ne hname] at h
      obtain ⟨before, after, rfl, hfirst, hbefore⟩ := ih h
      exact ⟨repo :: before, after, rfl, hfirst, List.forall_mem_cons.2 ⟨hne, hbefore⟩⟩

theorem lookup_comers_eq_none {name : String} :
    (comers d root repos).lookup name = none ↔
      name ≠ root.name ∧ ∀ repo ∈ repos, moduleNameOf d repo ≠ name := by
  rw [← lookup_map_eq_none, comers]
  by_cases h : name = root.name
  · simp [h]
  · simp [lookup_cons_of_ne h, h]

theorem firstToCome_of_lookup {name : String} {first : Path}
    (h : (comers d root repos).lookup name = some first) : FirstToCome d root repos name first := by
  rw [comers] at h
  by_cases hname : name = root.name
  · refine .inl ⟨hname, ?_⟩
    simpa [hname, eq_comm] using h
  · rw [lookup_cons_of_ne hname] at h
    exact .inr ⟨hname, lookup_map_eq_some h⟩

/-- What a grammar gets that comes after all these. -/
def answer (d : Disk) (all : List (String × Path)) (repo : Path) : Except Failure Path :=
  match all.lookup (moduleNameOf d repo) with
  | some first => .error (.duplicateModule (moduleNameOf d repo) repo first)
  | none => .ok repo

/-- The names that are taken answer every question like all that have come so far. Whoever comes
for a taken name does not change the answer to any. -/
theorem getElem?_assignNames {taken all : List (String × Path)}
    (h : ∀ name, taken.lookup name = all.lookup name) (i : Nat) :
    (assignNames d taken repos)[i]? = repos[i]?.map
      (answer d (all ++ (repos.take i).map fun repo => (moduleNameOf d repo, repo))) := by
  induction repos generalizing taken all i with
  | nil => rfl
  | cons repo rest ih =>
    have hstep : ∀ name, (match taken.lookup (moduleNameOf d repo) with
          | some _ => taken
          | none => taken ++ [(moduleNameOf d repo, repo)]).lookup name =
        (all ++ [(moduleNameOf d repo, repo)]).lookup name := by
      intro name
      rw [List.lookup_append, ← h name]
      cases hfirst : taken.lookup (moduleNameOf d repo) with
      | none => rw [List.lookup_append]
      | some first =>
        by_cases hname : name = moduleNameOf d repo
        · simp [hname, hfirst]
        · simp [lookup_cons_of_ne hname]
    have hrest := ih hstep
    rw [assignNames]
    cases i with
    | zero =>
      simp only [List.take_zero, List.map_nil, List.append_nil, List.getElem?_cons_zero,
        Option.map_some, answer, h]
      cases all.lookup (moduleNameOf d repo) <;> simp
    | succ i =>
      specialize hrest i
      rw [List.append_assoc] at hrest
      simp only [List.take_succ_cons, List.map_cons, List.getElem?_cons_succ]
      cases hfirst : taken.lookup (moduleNameOf d repo) with
      | none => simpa [hfirst] using hrest
      | some first => simpa [hfirst] using hrest

/-- The answers to the grammars of a run. -/
abbrev entries (d : Disk) (root : RootLibrary) (repos : List Path) : List (Except Failure Path) :=
  assignNames d [(root.name, root.repo)] repos

theorem getElem?_entries (d : Disk) (root : RootLibrary) (repos : List Path) (i : Nat) :
    (entries d root repos)[i]? =
      repos[i]?.map (answer d (comers d root (repos.take i))) := by
  have hroot : ∀ name, [(root.name, root.repo)].lookup name = [(root.name, root.repo)].lookup name :=
    fun _ => rfl
  exact getElem?_assignNames hroot i

theorem answer_eq_ok_iff {i : Nat} {repo : Path} (h : repos[i]? = some repo) :
    (entries d root repos)[i]? = some (.ok repo) ↔ moduleNameOf d repo ≠ root.name ∧
      ∀ earlier ∈ repos.take i, moduleNameOf d earlier ≠ moduleNameOf d repo := by
  rw [← lookup_comers_eq_none, getElem?_entries, h, Option.map_some, answer]
  cases (comers d root (repos.take i)).lookup (moduleNameOf d repo) <;> simp

theorem answer_eq_error {i : Nat} {repo : Path} (h : repos[i]? = some repo)
    (hno : (entries d root repos)[i]? ≠ some (.ok repo)) :
    ∃ first, FirstToCome d root (repos.take i) (moduleNameOf d repo) first ∧
      (entries d root repos)[i]? =
        some (.error (.duplicateModule (moduleNameOf d repo) repo first)) := by
  rw [getElem?_entries, h, Option.map_some, answer] at hno ⊢
  cases hfirst : (comers d root (repos.take i)).lookup (moduleNameOf d repo) with
  | none => simp [hfirst] at hno
  | some first => exact ⟨first, firstToCome_of_lookup hfirst, rfl⟩

theorem getElem?_of_answer_ok {i : Nat} {repo : Path}
    (h : (entries d root repos)[i]? = some (.ok repo)) : repos[i]? = some repo := by
  rw [getElem?_entries, Option.map_eq_some_iff] at h
  obtain ⟨repo', hr, h⟩ := h
  unfold answer at h
  split at h
  · cases h
  · cases h
    exact hr

theorem name_ne_of_lt {i j : Nat} {repo other : Path} (hlt : i < j)
    (hi : (entries d root repos)[i]? = some (.ok repo))
    (hj : (entries d root repos)[j]? = some (.ok other)) :
    moduleNameOf d repo ≠ moduleNameOf d other := by
  have hmem : repo ∈ repos.take j := by
    refine List.mem_of_getElem? (i := i) ?_
    rw [List.getElem?_take_of_lt hlt, getElem?_of_answer_ok hi]
  exact ((answer_eq_ok_iff (getElem?_of_answer_ok hj)).1 hj).2 repo hmem

/-- A grammar is found under the name that it was given, if its path ends in a name or leads to the same
directory as it did then. -/
theorem LanguageModule.name_of_same_directory {s t : Session} {repo : Path} {m : LanguageModule}
    (h : Stage.start (LanguageModule.discover repo) s = (.ok m, t))
    (hsame : repo.fileName? = none → s.disk.directoryName repo = d.directoryName repo) :
    m.name = moduleNameOf d repo ∧ IsName m.name := by
  obtain ⟨hname, hid⟩ := LanguageModule.name_of_discover h
  refine ⟨hname.trans ?_, isName_of_isIdentifierFragment hid⟩
  cases hn : repo.fileName? with
  | none => rw [moduleNameOf, moduleNameOf, hsame hn]
  | some n => simp only [moduleNameOf, Disk.directoryName, hn]

theorem apart_of_ne {name other : String} (hne : name ≠ other) (hn : IsName name)
    (ho : IsName other) (out : Path) (here : Location) :
    ((out / name).destination here).Apart ((out / other).destination here) := by
  rw [Path.destination_div hn, Path.destination_div ho]
  constructor
  all_goals
    intro h
    have h := (List.prefix_append_right_inj _).1 h
    simp_all

/-- Names are given first come, first served, whether the earlier ones got theirs or not, and the
grammars that get a name have their headers in directories of their own. A path that does not end in a
name must lead to the same directory when the names are given and when the grammar is discovered. -/
theorem names_given_first_come (d : Disk) (root : RootLibrary) (repos : List Path) :
    (entries d root repos).length = repos.length ∧
    (∀ i repo, repos[i]? = some repo →
      ((entries d root repos)[i]? = some (.ok repo) ↔ moduleNameOf d repo ≠ root.name ∧
        ∀ earlier ∈ repos.take i, moduleNameOf d earlier ≠ moduleNameOf d repo) ∧
      ((entries d root repos)[i]? ≠ some (.ok repo) →
        ∃ first, FirstToCome d root (repos.take i) (moduleNameOf d repo) first ∧
          (entries d root repos)[i]? =
            some (.error (.duplicateModule (moduleNameOf d repo) repo first)))) ∧
    ∀ layout, (∃ s t, Stage.start (RootLibrary.discover root.repo layout) s = (.ok root, t)) →
      ∀ (out : Path) (here : Location) (i : Nat) (repo : Path) (m : LanguageModule) (s t : Session),
        (entries d root repos)[i]? = some (.ok repo) →
        Stage.start (LanguageModule.discover repo) s = (.ok m, t) →
        (repo.fileName? = none → s.disk.directoryName repo = d.directoryName repo) →
        (Header.outputPath out m.name).destination here =
          (out / m.name).destination here ++ [Header.fileName m.name] ∧
        ¬ (out / root.name).destination here <+: (Header.outputPath out m.name).destination here ∧
        ∀ (j : Nat) (other : Path) (m' : LanguageModule) (s' t' : Session), j ≠ i →
          (entries d root repos)[j]? = some (.ok other) →
          Stage.start (LanguageModule.discover other) s' = (.ok m', t') →
          (other.fileName? = none → s'.disk.directoryName other = d.directoryName other) →
          (Header.outputPath out m.name).destination here ≠
            (Header.outputPath out m'.name).destination here ∧
          ((out / m.name).destination here).Apart ((out / m'.name).destination here) := by
  refine ⟨length_assignNames .., fun i repo h => ⟨answer_eq_ok_iff h, answer_eq_error h⟩, ?_⟩
  rintro layout ⟨s, t, hroot⟩ out here i repo m u v hi hfound hsame
  have hrootName : IsName root.name :=
    isName_of_isIdentifierFragment (RootLibrary.discover_eq_ok hroot).1.isIdentifier
  obtain ⟨hname, hisName⟩ := LanguageModule.name_of_same_directory hfound hsame
  have hfree := (answer_eq_ok_iff (getElem?_of_answer_ok hi)).1 hi
  refine ⟨Path.destination_div (isName_fileName hisName) _ here, ?_, ?_⟩
  · rw [Header.outputPath, Path.destination_div (isName_fileName hisName)]
    refine (apart_of_ne ?_ hisName hrootName out here).not_prefix_both (List.prefix_append _ _)
    exact hname ▸ hfree.1
  · intro j other m' u' v' hne hj hfound' hsame'
    obtain ⟨hname', hisName'⟩ := LanguageModule.name_of_same_directory hfound' hsame'
    have hnames : m.name ≠ m'.name := by
      rw [hname, hname']
      rcases Nat.lt_or_gt_of_ne hne with hlt | hlt
      · exact (name_ne_of_lt hlt hj hi).symm
      · exact name_ne_of_lt hlt hi hj
    have hapart := apart_of_ne hnames hisName hisName' out here
    refine ⟨fun he => ?_, hapart⟩
    -- Both headers lie in their directories, so one location would be in both.
    refine hapart.not_prefix_both (m := (Header.outputPath out m.name).destination here) ?_ ?_
    · rw [Header.outputPath, Path.destination_div (isName_fileName hisName)]
      exact List.prefix_append _ _
    · rw [he, Header.outputPath, Path.destination_div (isName_fileName hisName')]
      exact List.prefix_append _ _

/-- Two grammars whose names are taken, by the root library and by the first grammar, and one by a path
that does not end in a name. -/
def contested : List Path := [⟨"j"⟩, ⟨"x/core"⟩, ⟨"k/src/.."⟩, ⟨"j-src"⟩]

theorem names_given_first_come_toy :
    (entries toyDisk toyRoot contested)[0]? = some (.ok ⟨"j"⟩) ∧
    (∃ first, FirstToCome toyDisk toyRoot [⟨"j"⟩, ⟨"x/core"⟩, ⟨"k/src/.."⟩] "j" first ∧
      (entries toyDisk toyRoot contested)[3]? =
        some (.error (.duplicateModule "j" ⟨"j-src"⟩ first))) ∧
    ∃ m m' t t', Stage.start (LanguageModule.discover ⟨"j"⟩) ⟨toyDisk, [], []⟩ = (.ok m, t) ∧
      Stage.start (LanguageModule.discover ⟨"k/src/.."⟩) ⟨toyDisk, [], []⟩ = (.ok m', t') ∧
      (Header.outputPath ⟨"h"⟩ m.name).destination [] ≠
        (Header.outputPath ⟨"h"⟩ m'.name).destination [] := by
  obtain ⟨-, hanswer, hplaces⟩ := names_given_first_come toyDisk toyRoot contested
  have hfirst : (entries toyDisk toyRoot contested)[0]? = some (.ok ⟨"j"⟩) := by decide +kernel
  have hthird : (entries toyDisk toyRoot contested)[2]? = some (.ok ⟨"k/src/.."⟩) := by
    decide +kernel
  refine ⟨hfirst, ?_, ?_⟩
  · have hname : moduleNameOf toyDisk ⟨"j-src"⟩ = "j" := by decide +kernel
    rw [← hname]
    exact (hanswer 3 ⟨"j-src"⟩ rfl).2 (by decide +kernel)
  · have hroot : (Stage.start (RootLibrary.discover ⟨"core"⟩ (toyOptions []).config.layout)
        ⟨toyDisk, [], []⟩).1 = .ok toyRoot := by decide +kernel
    have hj : (Stage.start (LanguageModule.discover ⟨"j"⟩) ⟨toyDisk, [], []⟩).1 =
        .ok ⟨"j", ⟨"j"⟩, ⟨"j/src"⟩, [⟨"j/src/parser.c"⟩]⟩ := by decide +kernel
    have hk : (Stage.start (LanguageModule.discover ⟨"k/src/.."⟩) ⟨toyDisk, [], []⟩).1 =
        .ok ⟨"k", ⟨"k/src/.."⟩, ⟨"k/src/../src"⟩, [⟨"k/src/../src/parser.c"⟩]⟩ := by decide +kernel
    refine ⟨_, _, _, _, Prod.ext hj rfl, Prod.ext hk rfl, ?_⟩
    exact ((hplaces _ ⟨_, _, Prod.ext hroot rfl⟩ ⟨"h"⟩ [] 0 _ _ _ _ hfirst (Prod.ext hj rfl)
      fun _ => rfl).2.2 2 _ _ _ _ (by decide) hthird (Prod.ext hk rfl) fun _ => rfl).1

/-- The path to the second grammar leads to the first one through the directory of its headers,
which is not there when the names are given. -/
def aliased : List Path := [⟨"j"⟩, ⟨"h/j/../../j/src/.."⟩]

/-- Grammars that have got different names can be discovered under the same one, each in its turn, and
then they share a header. -/
theorem accepted_share_header :
    ¬ ∀ (o : Options) (s : Session) (i j : Nat) (repo other : Path) (m m' : LanguageModule)
      (t t' : Session), i ≠ j →
      (Run.claims o Generator.none s)[i]? = some (.ok repo) →
      (Run.claims o Generator.none s)[j]? = some (.ok other) →
      Stage.start (LanguageModule.discover repo) (Run.turn o Generator.none s i) = (.ok m, t) →
      Stage.start (LanguageModule.discover other) (Run.turn o Generator.none s j) = (.ok m', t') →
      Header.outputPath o.headersOut m.name ≠ Header.outputPath o.headersOut m'.name := by
  intro hall
  have hclaims : Run.claims (toyOptions aliased) Generator.none ⟨toyDisk, [], []⟩ =
      aliased.map .ok := by decide +kernel
  have hfirst : (Stage.start (LanguageModule.discover ⟨"j"⟩)
      (Run.turn (toyOptions aliased) Generator.none ⟨toyDisk, [], []⟩ 0)).1 =
        .ok ⟨"j", ⟨"j"⟩, ⟨"j/src"⟩, [⟨"j/src/parser.c"⟩]⟩ := by decide +kernel
  have hsecond : (Stage.start (LanguageModule.discover ⟨"h/j/../../j/src/.."⟩)
      (Run.turn (toyOptions aliased) Generator.none ⟨toyDisk, [], []⟩ 1)).1 =
        .ok ⟨"j", ⟨"h/j/../../j/src/.."⟩, ⟨"h/j/../../j/src/../src"⟩,
          [⟨"h/j/../../j/src/../src/parser.c"⟩]⟩ := by decide +kernel
  exact hall (toyOptions aliased) ⟨toyDisk, [], []⟩ 0 1 ⟨"j"⟩ ⟨"h/j/../../j/src/.."⟩ _ _ _ _ (by decide)
    (by rw [hclaims]; rfl) (by rw [hclaims]; rfl) (Prod.ext hfirst rfl) (Prod.ext hsecond rfl) rfl

end GrammarHeaders
