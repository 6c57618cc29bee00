import GrammarHeaders.Proofs.PatchedTrees
import GrammarHeaders.Proofs.Requests

namespace GrammarHeaders

variable {o : Options} {g : Generator} {s t u : Session} {repo out path : Path} {m : LanguageModule}
  {config : Config} {failure : Failure} {name : String}

/-- The checkout of a grammar is at fault: its layout, a parser that is missing or cannot be read, or
the shape of its parser. -/
def Failure.OfCheckout (repo : Path) (layout : LayoutSettings) (s : Session) : Failure → Prop
  | .layout .. | .parserFileNotFound .. | .shape _ => True
  | .file .read path _ => ∃ m t, Stage.start (LanguageModule.discover repo) s = (.ok m, t) ∧
      m.parserFile layout = .ok path
  | _ => False

theorem writeLanguageHeader_eq_error
    (h : Stage.start (writeLanguageHeader m out config) s = (.error failure, t)) :
    Stage.start (extractHeader m config) s = (.error failure, t) ∨
      failure.OfHeader (Header.outputPath out m.name) := by
  rcases Stage.start_bind_eq_error.mp h with h | ⟨header, u, hheader, h⟩
  · exact .inl h
  · right
    rcases Stage.start_bind_eq_error.mp h with h | ⟨dir, v, hdir, h⟩
    · exact fails_ensureModuleDir _ _ _ _ _ _ h
    · obtain rfl := Action.gives_ensureModuleDir _ _ _ _ _ hdir
      rw [gives_extractHeader _ _ _ _ _ hheader] at h
      rcases Stage.start_bind_eq_error.mp h with h | ⟨_, w, -, h⟩
      · exact fails_writeText _ _ _ _ _ h
      · cases h

theorem hasExtension_outputPath (hn : IsName name) :
    hasExtension (Header.outputPath out name) sourceExtensions = false := by
  have hname : (Header.outputPath out name).fileName? = some (Header.fileName name) :=
    Path.fileName?_div (isName_fileName hn) _
  have hext : Path.extensionOf? (Header.fileName name) = some "h" := by
    refine Path.extensionOf?_eq_some_iff.mpr ⟨by decide, name.toList, ?_, ?_⟩
    · exact mt String.toList_eq_nil_iff.mp hn.ne_empty
    · simp [Header.fileName]
  rw [hasExtension, Path.extension?, hname, Option.bind_some, hext]
  decide

theorem LanguageModule.parserFile_ne_outputPath {layout : LayoutSettings}
    (hm : Stage.start (LanguageModule.discover repo) s = (.ok m, u)) (h : m.parserFile layout = .ok path) :
    path ≠ Header.outputPath out m.name := by
  rintro rfl
  obtain ⟨hid, -, -, rfl⟩ := start_discover_eq_ok hm
  have hsource := (List.mem_filter.mp (LanguageModule.mem_of_parserFile h)).2
  rw [hasExtension_outputPath (isName_of_isIdentifierFragment hid)] at hsource
  cases hsource

theorem Failure.OfCheckout.not_ofHeader {layout : LayoutSettings} (h : failure.OfCheckout repo layout s)
    (hm : Stage.start (LanguageModule.discover repo) s = (.ok m, u)) :
    ¬ failure.OfHeader (Header.outputPath out m.name) := by
  cases failure with
  | file action path cause =>
    cases action with
    | read =>
      obtain ⟨m', u', hm', hpath⟩ := h
      obtain rfl : m' = m := Except.ok.inj (congrArg Prod.fst (hm'.symm.trans hm))
      exact LanguageModule.parserFile_ne_outputPath hm hpath
    | write | copy => exact h.elim
  | layout | parserFileNotFound | shape => exact id
  | _ => exact h.elim

theorem disk_of_writeLanguageHeader (hc : failure.OfCheckout repo config.layout s)
    (hm : Stage.start (LanguageModule.discover repo) s = (.ok m, u)) {v : Session}
    (h : Stage.start (writeLanguageHeader m out config) v = (.error failure, t)) : t.disk = v.disk := by
  rcases writeLanguageHeader_eq_error h with h | h
  · have hreads := reads_extractHeader m config v
    rwa [h] at hreads
  · exact absurd h (hc.not_ofHeader hm)

theorem annotateLanguageHeader_ne_error (hc : failure.OfCheckout repo config.layout s)
    (hm : Stage.start (LanguageModule.discover repo) s = (.ok m, u)) {v w : Session}
    (hpath : Stage.start (writeLanguageHeader m out config) v = (.ok path, w)) {v' : Session} :
    Stage.start (annotateLanguageHeader m path config) v' ≠ (.error failure, t) := by
  intro h
  obtain rfl := gives_writeLanguageHeader _ _ _ _ _ _ hpath
  exact hc.not_ofHeader hm (fails_annotateLanguageHeader _ _ _ _ _ _ h)

theorem discover_bind_eq_error {α : Type} {k : LanguageModule → Action α}
    (h : Stage.start (Stage.within (.layout repo) (LanguageModule.discover repo) >>= k) s =
      (.error failure, t)) :
    t.disk = s.disk ∨ ∃ m u, Stage.start (LanguageModule.discover repo) s = (.ok m, u) ∧
      u.disk = s.disk ∧ Stage.start (k m) u = (.error failure, t) := by
  have hreads := LanguageModule.reads_discover repo s
  rcases Stage.start_bind_eq_error.mp h with h | ⟨m, u, hdiscover, h⟩
  · obtain ⟨fault, hfault, -⟩ := Stage.start_within_eq_error.mp h
    rw [hfault] at hreads
    exact .inl hreads
  · have hm := Stage.start_within_eq_ok.mp hdiscover
    rw [hm] at hreads
    exact .inr ⟨m, u, hm, hreads, h⟩

theorem disk_of_processGrammar (hc : failure.OfCheckout repo config.layout s)
    (h : Stage.start (processGrammar repo out config) s = (.error failure, t)) : t.disk = s.disk := by
  obtain hdisk | ⟨m, u, hm, hdisk, h⟩ := discover_bind_eq_error h
  · exact hdisk
  · rw [Stage.start_bind, Stage.start_log] at h
    rcases Stage.start_bind_eq_error.mp h with h | ⟨path, v, hpath, h⟩
    · exact (disk_of_writeLanguageHeader hc hm h).trans hdisk
    · exact absurd h (annotateLanguageHeader_ne_error hc hm hpath)

namespace Run

theorem disk_of_prepare (hc : failure.OfCheckout repo o.config.layout s)
    (h : Stage.start (prepare o repo) s = (.error failure, t)) : t.disk = s.disk := by
  obtain hdisk | ⟨m, u, hm, hdisk, h⟩ := discover_bind_eq_error h
  · exact hdisk
  · rcases Stage.start_bind_eq_error.mp h with h | ⟨path, v, -, h⟩
    · exact (disk_of_writeLanguageHeader hc hm h).trans hdisk
    · cases h

end Run

/-- The turn of a grammar fails and leaves no trace: the disk is as it was, nothing has been asked, and
the run would have been the same with every other generator. -/
structure NoTrace (o : Options) (repo : Path) (failure : Failure) (s t : Session) : Prop where
  disk : t.disk = s.disk
  asked : t.asked = s.asked
  anyGenerator : ∀ g, Stage.start (runModule o g repo) s = (.error failure, t)

/-- In its turn the generator is asked for a grammar, and the failure is its answer. -/
def Generator.Answers (o : Options) (g : Generator) (repo : Path) (failure : Failure) (s t : Session) :
    Prop :=
  ∃ m header u, Stage.start (Run.prepare o repo) s = (.ok (m, header), u) ∧
    Stage.start (g.ask (moduleRequest o m header)) u = (.error failure, t)

theorem Generator.not_answers_ofSettings {machine : Machine} {settings : BindingSettings}
    {layout : LayoutSettings} (hc : failure.OfCheckout repo layout s) :
    ¬ (ofSettings machine settings).Answers o repo failure s t := by
  rintro ⟨m, header, u, -, h⟩
  rw [start_ask] at h
  have hbindings := fails_ofSettings machine settings _ _ _ _ h
  cases failure with
  | bindingGeneration => exact hc
  | _ => exact hbindings

namespace Run

theorem noTrace_of_prepare (hc : failure.OfCheckout repo o.config.layout s)
    (h : Stage.start (prepare o repo) s = (.error failure, t)) : NoTrace o repo failure s t where
  disk := disk_of_prepare hc h
  asked := by
    have hsilent := silent_prepare o repo s
    rwa [h] at hsilent
  anyGenerator g := by
    rw [runModule_eq, Stage.start_bind_of_error h]

theorem noTrace_or_answers (hc : failure.OfCheckout repo o.config.layout s)
    (h : Stage.start (runModule o g repo) s = (.error failure, t)) :
    NoTrace o repo failure s t ∨ g.Answers o repo failure s t := by
  rw [runModule_eq] at h
  rcases Stage.start_bind_eq_error.mp h with h | ⟨⟨m, header⟩, u, hprepare, h⟩
  · exact .inl (noTrace_of_prepare hc h)
  · rcases Stage.start_bind_eq_error.mp h with h | ⟨outcome, v, -, h⟩
    · exact .inr ⟨m, header, u, hprepare, h⟩
    · obtain ⟨v', hm, hwrite⟩ := start_prepare_eq_ok hprepare
      rcases Stage.start_bind_eq_error.mp h with h | ⟨published, w, -, h⟩
      · exact absurd h (annotateLanguageHeader_ne_error hc hm hwrite)
      · cases h

end Run

/-- A grammar that fails for its checkout leaves no trace, alone and in its turn. Only a generator that
is not one of those that settings name could answer with such a failure itself. -/
theorem failed_grammar_leaves_no_trace (repo : Path) (s : Session) (failure : Failure) :
    (∀ out config t, Stage.start (processGrammar repo out config) s = (.error failure, t) →
      failure.OfCheckout repo config.layout s → t.disk = s.disk) ∧
    (∀ o g t, Stage.start (runModule o g repo) s = (.error failure, t) →
      failure.OfCheckout repo o.config.layout s →
        NoTrace o repo failure s t ∨ g.Answers o repo failure s t) ∧
    ∀ o machine t,
      Stage.start (runModule o (.ofSettings machine o.config.bindings) repo) s = (.error failure, t) →
      failure.OfCheckout repo o.config.layout s → NoTrace o repo failure s t := by
  refine ⟨fun out config t h hc => disk_of_processGrammar hc h,
    fun o g t h hc => Run.noTrace_or_answers hc h, fun o machine t h hc => ?_⟩
  exact (Run.noTrace_or_answers hc h).resolve_right (Generator.not_answers_ofSettings hc)

def renamedDisk : Disk where
  tree.entries := [(["core"], .directory), (["core", "a.h"], .file (.text []) false),
    (["j"], .directory), (["j", "src"], .directory),
    (["j", "src", "parser.c"], .file (toyParser "tree_sitter_x") false),
    (["h"], .directory), (["h", "j"], .directory),
    (["h", "j", "j.h"], .file (.text "DllExport".toList) false)]

def renamedOptions : Options :=
  let o := toyOptions [⟨"j"⟩]
  { o with config := { o.config with bindings := { generator := some ⟨"sh"⟩ } } }

def renamed : Failure :=
  .shape (.factoryNameMismatch "tree_sitter_j" "tree_sitter_x" ⟨"j/src/parser.c"⟩)

theorem failed_grammar_leaves_no_trace_renamed :
    ∃ (machine : Machine) (t t' : Session),
      Stage.start (processGrammar ⟨"j"⟩ ⟨"h"⟩ renamedOptions.config) ⟨renamedDisk, [], []⟩ =
        (.error renamed, t) ∧ t.disk = renamedDisk ∧
      Stage.start (runModule renamedOptions (.ofSettings machine renamedOptions.config.bindings) ⟨"j"⟩)
        ⟨renamedDisk, [], []⟩ = (.error renamed, t') ∧
      NoTrace renamedOptions ⟨"j"⟩ renamed ⟨renamedDisk, [], []⟩ t' := by
  let machine : Machine := ⟨[⟨"/bin"⟩], fun _ _ d => (.ok ⟨some 0, [], []⟩, d)⟩
  have hprocess : (Stage.start (processGrammar ⟨"j"⟩ ⟨"h"⟩ renamedOptions.config)
      ⟨renamedDisk, [], []⟩).1 = .error renamed := by decide +kernel
  have hrun : (Stage.start (runModule renamedOptions
      (.ofSettings machine renamedOptions.config.bindings) ⟨"j"⟩) ⟨renamedDisk, [], []⟩).1 =
        .error renamed := by decide +kernel
  obtain ⟨halone, -, hturn⟩ := failed_grammar_leaves_no_trace ⟨"j"⟩ ⟨renamedDisk, [], []⟩ renamed
  exact ⟨machine, _, _, Prod.ext hprocess rfl, halone _ _ _ (Prod.ext hprocess rfl) trivial,
    Prod.ext hrun rfl, hturn _ machine _ (Prod.ext hrun rfl) trivial⟩

end GrammarHeaders
