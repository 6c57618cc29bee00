import GrammarHeaders.Proofs.Confinement
import GrammarHeaders.Proofs.LinkedPaths
import GrammarHeaders.Proofs.ModuleNames
import GrammarHeaders.Proofs.WorkSteps

namespace GrammarHeaders

variable {o : Options} {g : Generator} {s t : Session} {d d' : Disk} {schedule : List Nat}
  {repo : Path} {m : LanguageModule} {header : Header} {w next : Work} {i j n : Nat}
  {here out : Location} {files : Location → Prop} {text : Text}

theorem prefix_outputPath {name : String} (h : IsName name) (out : Path) (here : Location) :
    out.destination here <+: (Header.outputPath out name).destination here := by
  rw [destination_outputPath h]
  exact List.prefix_append _ _

theorem destination_outputPath_ne {name other : String} (h : IsName name) (ho : IsName other)
    (hne : name ≠ other) (out : Path) (here : Location) :
    (Header.outputPath out name).destination here ≠ (Header.outputPath out other).destination here := by
  rw [destination_outputPath h, destination_outputPath ho]
  intro hsame
  exact hne (List.cons.inj (List.append_cancel_left hsame)).1

namespace LanguageModule

/-- A header is what the text makes that the parser has on a disk. -/
def Extracts (m : LanguageModule) (config : Config) (d : Disk) (header : Header) : Prop :=
  ∃ parser source declarations lines executable, m.parserFile config.layout = .ok parser ∧
    d.tree.get? (parser.destination d.cwd) = some (.file (.text source) executable) ∧
    Factory.extractDeclarations source m.factoryName config.nameCheck parser =
      .ok (declarations, lines) ∧
    header = Header.synthesize m.name (m.provenance parser) declarations (LineEnding.detect source)

theorem extracts_of_start {config : Config} (hs : s.disk.Regular)
    (hfiles : ∀ file ∈ m.sourceFiles, s.disk.tree.HasFile (file.destination s.disk.cwd))
    (h : Stage.start (extractHeader m config) s = (.ok header, t)) :
    m.Extracts config s.disk header := by
  obtain ⟨parser, source, declarations, lines, hparser, hread, hextract, rfl⟩ := extractHeader_eq_ok h
  obtain ⟨-, executable, hfile⟩ :=
    Disk.readText_eq_ok hs (hfiles parser (m.mem_of_parserFile hparser)) hread
  exact ⟨parser, source, declarations, lines, executable, hparser, hfile, hextract, rfl⟩

theorem Extracts.moduleName {config : Config} (h : m.Extracts config d header) :
    header.moduleName = m.name := by
  obtain ⟨_, _, _, _, _, -, -, -, rfl⟩ := h
  rfl

theorem Extracts.of_get?_eq {config : Config} (h : m.Extracts config d header)
    (hfiles : ∀ file ∈ m.sourceFiles,
      d'.tree.get? (file.destination d'.cwd) = d.tree.get? (file.destination d.cwd)) :
    m.Extracts config d' header := by
  obtain ⟨parser, source, declarations, lines, executable, hparser, hfile, hextract, hheader⟩ := h
  exact ⟨parser, source, declarations, lines, executable, hparser,
    (hfiles parser (m.mem_of_parserFile hparser)).trans hfile, hextract, hheader⟩

/-- The header of a module has a text on a disk. -/
def Shows (m : LanguageModule) (o : Options) (d : Disk) (text : Text) : Prop :=
  ∃ executable, d.tree.get? ((Header.outputPath o.headersOut m.name).destination d.cwd) =
    some (.file (.text text) executable)

theorem Shows.of_alters (h : m.Shows o d text) (ha : Disk.Alters out files d d')
    (hout : ¬ out <+: (Header.outputPath o.headersOut m.name).destination d.cwd)
    (hfiles : ¬ files ((Header.outputPath o.headersOut m.name).destination d.cwd)) :
    m.Shows o d' text := by
  obtain ⟨executable, hfile⟩ := h
  exact ⟨executable, ha.cwd ▸ ha.get?_of_some hout hfiles hfile⟩

theorem Shows.eq_of_readText {read : Text} (hd : d.Regular) (h : m.Shows o d text)
    (hread : d.readText (Header.outputPath o.headersOut m.name) = .ok read) : read = text := by
  obtain ⟨executable, hfile⟩ := h
  obtain ⟨l, e, hr⟩ := Disk.exists_of_readText hread
  exact (Content.text.inj (Disk.content_of_readText (Disk.location?_of_resolve hd hr) hfile hread)).symm

end LanguageModule

namespace Work

/-- The next call for a grammar may write a file there. -/
def Writes (here : Location) : Work → Location → Prop
  | placed _ path _, l => l = path.destination here
  | read _ path _ _, l => l = path.destination here
  | _, _ => False

theorem alters_advance (hg : g.StaysIn o.bindingsOut) (w : Work) :
    Stage.Alters here (o.bindingsOut.destination here) (w.Writes here) (w.advance o g) := by
  cases w with
  | waiting repo =>
    exact ((LanguageModule.reads_discover repo).within _).alters.bind fun _ =>
      (Stage.Reads.pure _).alters
  | found m => exact (reads_extractHeader m _).alters.bind fun _ => (Stage.Reads.pure _).alters
  | extracted m header =>
    exact (Action.grows_ensureModuleDir _ _).alters.bind fun _ => (Stage.Reads.pure _).alters
  | placed m path text =>
    exact (@Action.grows_writeText here (fun _ => False) path text).alters.bind fun _ =>
      (Stage.Reads.pure _).alters
  | written m path => exact (hg.alters_ask _).bind fun _ => (Stage.Reads.pure _).alters
  | bound m path outcome =>
    exact (Action.reads_readText path).alters.bind fun _ => (Stage.Reads.pure _).alters
  | read m path outcome text =>
    dsimp only [advance]
    split
    · exact (@Action.grows_writeText here (fun _ => False) path _).alters.bind fun _ =>
        (Stage.Reads.log _).alters.bind fun _ => (Stage.Reads.pure _).alters
    · exact (Stage.Reads.log _).alters.bind fun _ => (Stage.Reads.pure _).alters
  | ended result => exact (Stage.Reads.pure _).alters

theorem alters_stepped (hg : g.StaysIn o.bindingsOut) (w : Work) {u : Session} (hu : u.disk.Regular) :
    Disk.Alters (o.bindingsOut.destination u.disk.cwd) (w.Writes u.disk.cwd) u.disk
      (stepped o g (w, u)).2.disk := by
  rw [stepped_snd]
  exact alters_advance hg w u hu rfl

end Work

namespace Run

def order (o : Options) (g : Generator) (schedule : List Nat) (s : Session) : List Nat :=
  schedule ++ inTurn (claims o g s).length

/-- The works and the session after so many calls. -/
def moment (o : Options) (g : Generator) (schedule : List Nat) (s : Session) (n : Nat) :
    List Work × Session :=
  passes o g ((order o g schedule s).take n) ((claims o g s).map .ofClaim, afterRoot o g s)

theorem moment_succ_of_some (h : (order o g schedule s)[n]? = some i)
    (hw : (moment o g schedule s n).1[i]? = some w) : moment o g schedule s (n + 1) =
      ((moment o g schedule s n).1.set i (Work.stepped o g (w, (moment o g schedule s n).2)).1,
        (Work.stepped o g (w, (moment o g schedule s n).2)).2) := by
  rw [moment, passes_take_succ h]
  exact pass_of_some hw

theorem moment_succ_of_none (h : (order o g schedule s)[n]? = some i)
    (hw : (moment o g schedule s n).1[i]? = none) :
    moment o g schedule s (n + 1) = moment o g schedule s n := by
  rw [moment, passes_take_succ h]
  exact pass_of_none hw

/-- In a call for a grammar its module is found. -/
structure FoundAt (o : Options) (g : Generator) (schedule : List Nat) (s : Session) (k i : Nat)
    (repo : Path) (m : LanguageModule) : Prop where
  call : (order o g schedule s)[k]? = some i
  work : (moment o g schedule s k).1[i]? = some (.waiting repo)
  found : ∃ t, Stage.start (LanguageModule.discover repo) (moment o g schedule s k).2 = (.ok m, t)

/-- A path that does not end in a name, and leads to a directory when its grammar is looked for, has
led to one when the names were given, and so the grammar has been given the name that it is found
by. -/
def Foreseen (o : Options) (g : Generator) (schedule : List Nat) (s : Session) : Prop :=
  ∀ k i repo, (claims o g s)[i]? = some (.ok repo) → (order o g schedule s)[k]? = some i →
    (moment o g schedule s k).1[i]? = some (.waiting repo) → repo.fileName? = none →
    (moment o g schedule s k).2.disk.isDir repo = true → (afterRoot o g s).disk.isDir repo = true

/-- A module is that of a grammar: it has been found in the run, by the name that was given, and its
sources are files of the checkout. -/
structure Belongs (o : Options) (g : Generator) (schedule : List Nat) (s : Session) (i : Nat)
    (repo : Path) (m : LanguageModule) : Prop where
  found : ∃ k, FoundAt o g schedule s k i repo m
  name : m.name = moduleNameOf (afterRoot o g s).disk repo
  isName : IsName m.name
  sources : ∀ file ∈ m.sourceFiles, repo.destination s.disk.cwd <+: file.destination s.disk.cwd ∧
    (afterRoot o g s).disk.tree.HasFile (file.destination s.disk.cwd)

/-- How far the work on a grammar may have come, on a disk. -/
inductive Stands (o : Options) (g : Generator) (schedule : List Nat) (s : Session) (d : Disk)
    (i : Nat) : Except Failure Path → Work → Prop where
  | waiting {repo : Path} : Stands o g schedule s d i (.ok repo) (.waiting repo)
  | found {repo : Path} {m : LanguageModule} (hm : Belongs o g schedule s i repo m) :
      Stands o g schedule s d i (.ok repo) (.found m)
  | extracted {repo : Path} {m : LanguageModule} {header : Header}
      (hm : Belongs o g schedule s i repo m)
      (hheader : m.Extracts o.config (afterRoot o g s).disk header) :
      Stands o g schedule s d i (.ok repo) (.extracted m header)
  | placed {repo : Path} {m : LanguageModule} {header : Header}
      (hm : Belongs o g schedule s i repo m)
      (hheader : m.Extracts o.config (afterRoot o g s).disk header) :
      Stands o g schedule s d i (.ok repo)
        (.placed m (Header.outputPath o.headersOut m.name) header.text)
  | written {repo : Path} {m : LanguageModule} {header : Header}
      (hm : Belongs o g schedule s i repo m)
      (hheader : m.Extracts o.config (afterRoot o g s).disk header)
      (hshows : m.Shows o d header.text) :
      Stands o g schedule s d i (.ok repo) (.written m (Header.outputPath o.headersOut m.name))
  | bound {repo : Path} {m : LanguageModule} {outcome : Outcome}
      (hm : Belongs o g schedule s i repo m) :
      Stands o g schedule s d i (.ok repo)
        (.bound m (Header.outputPath o.headersOut m.name) outcome)
  | read {repo : Path} {m : LanguageModule} {outcome : Outcome} {text : Text}
      (hm : Belongs o g schedule s i repo m) :
      Stands o g schedule s d i (.ok repo)
        (.read m (Header.outputPath o.headersOut m.name) outcome text)
  | ended {claim : Except Failure Path} {result : ModuleResult} :
      Stands o g schedule s d i claim (.ended result)

/-- What has become of a header after the question, on a disk. -/
inductive Follows (o : Options) (d : Disk) (m : LanguageModule) (header : Header) : Work → Prop where
  | bound {outcome : Outcome} (h : m.Shows o d header.text) :
      Follows o d m header (.bound m (Header.outputPath o.headersOut m.name) outcome)
  | read {outcome : Outcome} (h : m.Shows o d header.text) :
      Follows o d m header (.read m (Header.outputPath o.headersOut m.name) outcome header.text)
  | published {result : LanguageHeader × Outcome}
      (h : m.Shows o d (o.config.languageAnnotator.annotate header.text).text) :
      Follows o d m header (.ended (.ok result))
  | failed {failure : Failure} : Follows o d m header (.ended (.error failure))

/-- A request of a run for the module of a grammar. The header of the module is there when the
generator is asked, and reads as it is extracted from what the parser is at that time. -/
structure AskedAt (o : Options) (g : Generator) (schedule : List Nat) (s : Session) (k i : Nat)
    (repo : Path) (m : LanguageModule) (header : Header) (a : Asked) : Prop where
  claim : (claims o g s)[i]? = some (.ok repo)
  module : Belongs o g schedule s i repo m
  call : (order o g schedule s)[k]? = some i
  work : (moment o g schedule s k).1[i]? =
    some (.written m (Header.outputPath o.headersOut m.name))
  request : a = (moduleRequest o m (Header.outputPath o.headersOut m.name)).asked
    (moment o g schedule s k).2.disk
  shows : m.Shows o (moment o g schedule s k).2.disk header.text
  texts : ∀ text, some text ∈ a.texts → text = header.text
  extracts : m.Extracts o.config (moment o g schedule s k).2.disk header

/-- A request has come at its time, and its header has been kept or annotated since. -/
def Kept (o : Options) (g : Generator) (schedule : List Nat) (s : Session) (n : Nat) (a : Asked) :
    Prop :=
  ∃ k i repo m header w, AskedAt o g schedule s k i repo m header a ∧
    (moment o g schedule s n).1[i]? = some w ∧
    Follows o (moment o g schedule s n).2.disk m header w

/-- What holds before every call: outside of the bindings only headers are written, the works stand as
they should, and each request is kept and the only one for its module. -/
structure Sound (o : Options) (g : Generator) (schedule : List Nat) (s : Session) (n : Nat) : Prop where
  alters : Disk.Alters (o.bindingsOut.destination s.disk.cwd)
    (o.headersOut.destination s.disk.cwd <+: ·) (afterRoot o g s).disk
    (moment o g schedule s n).2.disk
  works : ∀ i w, (moment o g schedule s n).1[i]? = some w → ∃ claim,
    (claims o g s)[i]? = some claim ∧
      Stands o g schedule s (moment o g schedule s n).2.disk i claim w
  asked : ∃ asks, (moment o g schedule s n).2.asked = (afterRoot o g s).asked ++ asks ∧
    (asks.map fun a => a.request.module).Nodup ∧ ∀ a ∈ asks, Kept o g schedule s n a

theorem cwd_afterRoot (h : o.Separates g s.disk) : (afterRoot o g s).disk.cwd = s.disk.cwd :=
  (rootStage_alters h.generator h.regular).cwd

def rootEntry (o : Options) (s : Session) : RootLibrary :=
  ⟨moduleNameOf s.disk o.rootRepo, o.rootRepo, ⟨""⟩, []⟩

theorem claims_eq_entries (o : Options) (g : Generator) (s : Session) :
    claims o g s = entries (afterRoot o g s).disk (rootEntry o s) o.grammarRepos := rfl

theorem mem_grammarRepos (h : (claims o g s)[i]? = some (.ok repo)) : repo ∈ o.grammarRepos := by
  rw [claims_eq_entries] at h
  exact List.mem_of_getElem? (getElem?_of_answer_ok h)

theorem foreseen_of_names (h : ∀ repo ∈ o.grammarRepos, repo.fileName? ≠ none) :
    Foreseen o g schedule s :=
  fun _ _ repo hi _ _ hnone _ => absurd hnone (h repo (mem_grammarRepos hi))

theorem Belongs.name_ne_root (hm : Belongs o g schedule s i repo m)
    (hi : (claims o g s)[i]? = some (.ok repo)) : m.name ≠ moduleNameOf s.disk o.rootRepo := by
  rw [hm.name]
  exact ((claims_spec o g s).2 repo (mem_accepted.mpr (List.mem_of_getElem? hi))).2

theorem Belongs.name_ne {other : Path} {m' : LanguageModule} (hm : Belongs o g schedule s i repo m)
    (hm' : Belongs o g schedule s j other m') (hi : (claims o g s)[i]? = some (.ok repo))
    (hj : (claims o g s)[j]? = some (.ok other)) (hne : i ≠ j) : m.name ≠ m'.name := by
  rw [hm.name, hm'.name]
  rw [claims_eq_entries] at hi hj
  rcases Nat.lt_or_gt_of_ne hne with hlt | hlt
  · exact name_ne_of_lt hlt hi hj
  · exact (name_ne_of_lt hlt hj hi).symm

theorem not_below_outputs {l : Location} (h : o.Separates g s.disk)
    (hi : (claims o g s)[i]? = some (.ok repo)) (hl : repo.destination s.disk.cwd <+: l) :
    ¬ o.bindingsOut.destination s.disk.cwd <+: l ∧ ¬ o.headersOut.destination s.disk.cwd <+: l :=
  ⟨(h.checkouts repo (mem_grammarRepos hi)).not_prefix_both hl,
    (h.grammars repo (mem_grammarRepos hi)).not_prefix_both hl⟩

theorem Belongs.header_not_below_bindings (hm : Belongs o g schedule s i repo m)
    (h : o.Separates g s.disk) : ¬ o.bindingsOut.destination s.disk.cwd <+:
      (Header.outputPath o.headersOut m.name).destination s.disk.cwd :=
  fun hout => h.bindings.not_prefix_both hout (prefix_outputPath hm.isName _ _)

theorem Belongs.get?_source (hm : Belongs o g schedule s i repo m) (h : o.Separates g s.disk)
    (hi : (claims o g s)[i]? = some (.ok repo))
    (hd : Disk.Alters (o.bindingsOut.destination s.disk.cwd) (o.headersOut.destination s.disk.cwd <+: ·)
      (afterRoot o g s).disk d) (file : Path) (hfile : file ∈ m.sourceFiles) :
    d.tree.get? (file.destination d.cwd) =
      (afterRoot o g s).disk.tree.get? (file.destination (afterRoot o g s).disk.cwd) := by
  obtain ⟨hbelow, content, executable, hget⟩ := hm.sources file hfile
  obtain ⟨hbindings, hheaders⟩ := not_below_outputs h hi hbelow
  rw [hd.cwd, cwd_afterRoot h, hget]
  exact hd.get?_of_some hbindings hheaders hget

theorem FoundAt.belongs (hm : FoundAt o g schedule s n i repo m) (h : o.Separates g s.disk)
    (hf : Foreseen o g schedule s) (hi : (claims o g s)[i]? = some (.ok repo))
    (hn : Disk.Alters (o.bindingsOut.destination s.disk.cwd) (o.headersOut.destination s.disk.cwd <+: ·)
      (afterRoot o g s).disk (moment o g schedule s n).2.disk) :
    Belongs o g schedule s i repo m := by
  obtain ⟨t, hfound⟩ := hm.found
  have hroot := rootStage_alters h.generator h.regular
  have hcwd : (moment o g schedule s n).2.disk.cwd = s.disk.cwd := hn.cwd.trans (cwd_afterRoot h)
  have hdiscovered := LanguageModule.discover_eq_ok hn.regular hfound
  refine ⟨⟨n, hm⟩, ?_, isName_of_isIdentifierFragment hdiscovered.isIdentifier, fun file hfile => ?_⟩
  · -- A path that ends in a name has it on every disk, any other one that of its directory.
    rw [hdiscovered.name]
    cases hname : repo.fileName? with
    | some name => simp only [moduleNameOf, Disk.directoryName, hname]
    | none =>
      refine moduleNameOf_congr hroot.regular hn.regular hn.cwd ?_
      rw [hdiscovered.isDir, hf n i repo hi hm.call hm.work hname hdiscovered.isDir]
  · obtain ⟨name, hname, rfl⟩ := hdiscovered.sources file hfile
    have hbelow : repo.destination s.disk.cwd <+: (repo / "src" / name).destination s.disk.cwd := by
      rw [Path.destination_div hname, Path.destination_div (by decide : IsName "src"),
        List.append_assoc]
      exact List.prefix_append _ _
    obtain ⟨hbindings, hheaders⟩ := not_below_outputs h hi hbelow
    refine ⟨hbelow, hn.hasFile_of hbindings hheaders ?_⟩
    rw [← hcwd]
    obtain ⟨-, -, -, rfl⟩ := LanguageModule.start_discover_eq_ok hfound
    exact (hasFile_of_mem_foundFiles hn.regular hfile).2

theorem Stands.advance {claim : Except Failure Path} {v : Session} (h : o.Separates g s.disk)
    (hf : Foreseen o g schedule s) (hn : Sound o g schedule s n)
    (hcall : (order o g schedule s)[n]? = some i)
    (hwork : (moment o g schedule s n).1[i]? = some w) (hi : (claims o g s)[i]? = some claim)
    (hw : Stands o g schedule s (moment o g schedule s n).2.disk i claim w)
    (hnext : w.Advances o g (moment o g schedule s n).2 next v) :
    Stands o g schedule s v.disk i claim next := by
  have hregular := hn.alters.regular
  cases hnext with
  | discover hfound =>
    cases hw with
    | waiting =>
      have hm : FoundAt o g schedule s n i _ _ := ⟨hcall, hwork, _, hfound⟩
      exact .found (hm.belongs h hf hi hn.alters)
  | extract hextract =>
    cases hw with
    | found hm =>
      have hsource := hm.get?_source h hi hn.alters
      refine .extracted hm ((LanguageModule.extracts_of_start hregular (fun file hfile => ?_)
        hextract).of_get?_eq fun file hfile => (hsource file hfile).symm)
      obtain ⟨-, content, executable, hget⟩ := hm.sources file hfile
      exact ⟨content, executable, (hsource file hfile).trans (cwd_afterRoot h ▸ hget)⟩
  | place hdir =>
    cases hw with
    | extracted hm hheader =>
      obtain rfl := Action.gives_ensureModuleDir _ _ _ _ _ hdir
      rw [hheader.moduleName]
      exact .placed hm hheader
  | write hwrite =>
    cases hw with
    | placed hm hheader =>
      have hwritten := Action.start_writeText_eq_ok hwrite
      obtain ⟨executable, hget⟩ := Disk.get?_of_write_name hregular
        (Path.destination_div (isName_fileName hm.isName) _ _) (by simp [Header.fileName]) hwritten
      have hcwd := (Disk.write_grows hregular hwritten).cwd
      exact .written hm hheader ⟨executable, hcwd.symm ▸ hget⟩
  | ask hask =>
    -- From here on it is `Follows` that says what becomes of the header, as it says for which request.
    cases hw with
    | written hm hheader hshows => exact .bound hm
  | read hread =>
    cases hw with
    | bound hm => exact .read hm
  | annotate hannotate => exact .ended
  | stay => exact .ended

theorem Stands.of_shows {claim : Except Failure Path} (hw : Stands o g schedule s d i claim w)
    (hkeep : ∀ repo m text, claim = .ok repo → Belongs o g schedule s i repo m → m.Shows o d text →
      m.Shows o d' text) : Stands o g schedule s d' i claim w := by
  cases hw with
  | waiting => exact .waiting
  | found hm => exact .found hm
  | extracted hm hheader => exact .extracted hm hheader
  | placed hm hheader => exact .placed hm hheader
  | written hm hheader hshows => exact .written hm hheader (hkeep _ _ _ rfl hm hshows)
  | bound hm => exact .bound hm
  | read hm => exact .read hm
  | ended => exact .ended

theorem Stands.writes {claim : Except Failure Path} {l : Location}
    (hw : Stands o g schedule s d i claim w) (hl : w.Writes here l) : ∃ repo m, claim = .ok repo ∧
      Belongs o g schedule s i repo m ∧ l = (Header.outputPath o.headersOut m.name).destination here := by
  cases hw with
  | placed hm hheader => exact ⟨_, _, rfl, hm, hl⟩
  | read hm => exact ⟨_, _, rfl, hm, hl⟩
  | waiting | found | extracted | written | bound | ended => cases hl

theorem Follows.of_shows (hw : Follows o d m header w)
    (hkeep : ∀ text, m.Shows o d text → m.Shows o d' text) : Follows o d' m header w := by
  cases hw with
  | bound h => exact .bound (hkeep _ h)
  | read h => exact .read (hkeep _ h)
  | published h => exact .published (hkeep _ h)
  | failed => exact .failed

theorem Follows.advance {u v : Session} (hu : u.disk.Regular) (hw : Follows o u.disk m header w)
    (hnext : w.Advances o g u next v) : Follows o v.disk m header next := by
  cases hnext with
  | read hread =>
    cases hw with
    | bound hshows =>
      obtain rfl := hshows.eq_of_readText hu hread
      exact .read hshows
  | annotate hannotate =>
    cases hw with
    | read hshows =>
      refine .published ?_
      obtain ⟨hsame, hdisk⟩ | hwrite := hannotate
      · rwa [hsame, hdisk]
      · obtain ⟨executable, hfile⟩ := hshows
        have hcwd := (Disk.write_grows hu hwrite).cwd
        exact ⟨executable, hcwd.symm ▸ Disk.get?_of_write hu hfile hwrite⟩
  | stay => exact hw
  | discover | extract | place | write | ask => cases hw

theorem Follows.stepped {u : Session} (hu : u.disk.Regular) (hw : Follows o u.disk m header w) :
    Follows o (Work.stepped o g (w, u)).2.disk m header (Work.stepped o g (w, u)).1 := by
  obtain ⟨failure, hfailure⟩ | hnext := Work.stepped_cases o g w u
  · rw [hfailure]
    exact .failed
  · exact hw.advance hu hnext

theorem Sound.alters_stepped (h : o.Separates g s.disk) (hn : Sound o g schedule s n) (w : Work) :
    Disk.Alters (o.bindingsOut.destination s.disk.cwd) (w.Writes s.disk.cwd)
      (moment o g schedule s n).2.disk
      (Work.stepped o g (w, (moment o g schedule s n).2)).2.disk := by
  have hstep := Work.alters_stepped h.generator w hn.alters.regular
  rwa [hn.alters.cwd, cwd_afterRoot h] at hstep

/-- A call for one grammar leaves the header of every other one as it is. -/
theorem Sound.keeps (h : o.Separates g s.disk) (hn : Sound o g schedule s n)
    (hwork : (moment o g schedule s n).1[i]? = some w) (hne : j ≠ i)
    (hj : (claims o g s)[j]? = some (.ok repo)) (hm : Belongs o g schedule s j repo m)
    (hshows : m.Shows o (moment o g schedule s n).2.disk text) :
    m.Shows o (Work.stepped o g (w, (moment o g schedule s n).2)).2.disk text := by
  obtain ⟨claim, hi, hstands⟩ := hn.works i w hwork
  have hcwd := hn.alters.cwd.trans (cwd_afterRoot h)
  refine hshows.of_alters (hn.alters_stepped h w) (hcwd ▸ hm.header_not_below_bindings h)
    fun hwritten => ?_
  obtain ⟨other, m', rfl, hm', hplace⟩ := hstands.writes hwritten
  rw [hcwd] at hplace
  exact destination_outputPath_ne hm.isName hm'.isName (hm.name_ne hm' hj hi hne) _ _ hplace

theorem Sound.zero (h : o.Separates g s.disk) : Sound o g schedule s 0 where
  alters := .refl (rootStage_alters h.generator h.regular).regular
  works i w hw := by
    obtain ⟨claim, hi, rfl⟩ := Option.map_eq_some_iff.mp (List.getElem?_map ▸ hw)
    refine ⟨claim, hi, ?_⟩
    cases claim with
    | error failure => exact .ended
    | ok repo => exact .waiting
  asked := ⟨[], (List.append_nil _).symm, List.nodup_nil, fun _ ha => absurd ha List.not_mem_nil⟩

theorem Sound.alters_succ (h : o.Separates g s.disk) (hn : Sound o g schedule s n)
    (hcall : (order o g schedule s)[n]? = some i)
    (hwork : (moment o g schedule s n).1[i]? = some w) :
    Disk.Alters (o.bindingsOut.destination s.disk.cwd) (o.headersOut.destination s.disk.cwd <+: ·)
      (afterRoot o g s).disk (moment o g schedule s (n + 1)).2.disk := by
  obtain ⟨claim, hi, hstands⟩ := hn.works i w hwork
  rw [moment_succ_of_some hcall hwork]
  refine hn.alters.trans ((hn.alters_stepped h w).mono fun l _ hl => ?_)
  obtain ⟨repo, m, rfl, hm, rfl⟩ := hstands.writes hl
  exact prefix_outputPath hm.isName _ _

theorem Sound.works_succ (h : o.Separates g s.disk) (hf : Foreseen o g schedule s)
    (hn : Sound o g schedule s n) (hcall : (order o g schedule s)[n]? = some i)
    (hwork : (moment o g schedule s n).1[i]? = some w) {w' : Work}
    (hj : (moment o g schedule s (n + 1)).1[j]? = some w') : ∃ claim,
      (claims o g s)[j]? = some claim ∧
        Stands o g schedule s (moment o g schedule s (n + 1)).2.disk j claim w' := by
  rw [moment_succ_of_some hcall hwork] at hj ⊢
  by_cases hji : j = i
  · subst hji
    rw [List.getElem?_set_self (List.getElem?_eq_some_iff.mp hwork).1] at hj
    obtain rfl := Option.some.inj hj
    obtain ⟨claim, hi, hstands⟩ := hn.works j w hwork
    refine ⟨claim, hi, ?_⟩
    obtain ⟨failure, hfailure⟩ | hnext := Work.stepped_cases o g w (moment o g schedule s n).2
    · rw [hfailure]
      exact .ended
    · exact hstands.advance h hf hn hcall hwork hi hnext
  · rw [List.getElem?_set_ne (Ne.symm hji)] at hj
    obtain ⟨claim, hclaim, hstands⟩ := hn.works j w' hj
    refine ⟨claim, hclaim, hstands.of_shows fun repo m text hrepo hm hshows => ?_⟩
    exact hn.keeps h hwork hji (hrepo ▸ hclaim) hm hshows

theorem Kept.succ {a : Asked} (ha : Kept o g schedule s n a) (h : o.Separates g s.disk)
    (hn : Sound o g schedule s n) (hcall : (order o g schedule s)[n]? = some i)
    (hwork : (moment o g schedule s n).1[i]? = some w) : Kept o g schedule s (n + 1) a := by
  obtain ⟨k, j, repo, m, header, w', hask, hj, hfollows⟩ := ha
  rw [Kept, moment_succ_of_some hcall hwork]
  by_cases hji : j = i
  · subst hji
    obtain rfl := Option.some.inj (hj.symm.trans hwork)
    exact ⟨k, j, repo, m, header, _, hask,
      List.getElem?_set_self (List.getElem?_eq_some_iff.mp hwork).1,
      hfollows.stepped hn.alters.regular⟩
  · refine ⟨k, j, repo, m, header, w', hask, ?_, hfollows.of_shows fun text hshows => ?_⟩
    · rw [List.getElem?_set_ne (Ne.symm hji), hj]
    · exact hn.keeps h hwork hji hask.claim hask.module hshows

theorem Sound.asks (h : o.Separates g s.disk) (hn : Sound o g schedule s n)
    (hcall : (order o g schedule s)[n]? = some i)
    (hwork : (moment o g schedule s n).1[i]? = some w) {a : Asked}
    (ha : w.question? o (moment o g schedule s n).2.disk = some a) :
    ∃ repo m header, AskedAt o g schedule s n i repo m header a := by
  obtain ⟨claim, hi, hstands⟩ := hn.works i w hwork
  cases hstands with
  | @written repo m header hm hheader hshows =>
    obtain rfl := Option.some.inj ha
    have hsource := hm.get?_source h hi hn.alters
    refine ⟨repo, m, header, ⟨hi, hm, hcall, hwork, rfl, hshows, fun text htext => ?_,
      hheader.of_get?_eq hsource⟩⟩
    obtain ⟨path, hpath, hread⟩ := List.mem_map.mp htext
    obtain rfl := List.mem_singleton.mp hpath
    cases hr : (moment o g schedule s n).2.disk.readText (Header.outputPath o.headersOut m.name) with
    | error cause =>
      rw [hr] at hread
      cases hread
    | ok read =>
      rw [hr] at hread
      obtain rfl := Option.some.inj hread
      exact hshows.eq_of_readText hn.alters.regular hr
  | waiting | found | extracted | placed | bound | read | ended => cases ha

theorem AskedAt.kept {a : Asked} (ha : AskedAt o g schedule s n i repo m header a)
    (h : o.Separates g s.disk) (hn : Sound o g schedule s n) : Kept o g schedule s (n + 1) a := by
  have hcwd := hn.alters.cwd.trans (cwd_afterRoot h)
  rw [Kept, moment_succ_of_some ha.call ha.work]
  refine ⟨n, i, repo, m, header, _, ha,
    List.getElem?_set_self (List.getElem?_eq_some_iff.mp ha.work).1, ?_⟩
  obtain ⟨failure, hfailure⟩ | hnext := Work.stepped_cases o g
    (.written m (Header.outputPath o.headersOut m.name)) (moment o g schedule s n).2
  · rw [hfailure]
    exact .failed
  · obtain ⟨outcome, hbound⟩ := hnext.of_written
    rw [hbound]
    -- The generator writes below the bindings only, so the header is as it was when it was asked.
    exact .bound (ha.shows.of_alters (hn.alters_stepped h _)
      (hcwd ▸ ha.module.header_not_below_bindings h) id)

theorem AskedAt.module_eq {a : Asked} {k : Nat} (ha : AskedAt o g schedule s k i repo m header a) :
    a.request.module = m.name := by
  rw [ha.request]
  rfl

theorem AskedAt.module_ne {a b : Asked} (ha : AskedAt o g schedule s n i repo m header a)
    (hb : Kept o g schedule s n b) : b.request.module ≠ a.request.module := by
  obtain ⟨k, j, other, m', header', w, hask, hj, hfollows⟩ := hb
  rw [ha.module_eq, hask.module_eq]
  refine hask.module.name_ne ha.module hask.claim ha.claim fun hji => ?_
  -- A work that has been asked for is past its question.
  subst hji
  obtain rfl := Option.some.inj (hj.symm.trans ha.work)
  cases hfollows

theorem Sound.asked_succ (h : o.Separates g s.disk) (hn : Sound o g schedule s n)
    (hcall : (order o g schedule s)[n]? = some i)
    (hwork : (moment o g schedule s n).1[i]? = some w) : ∃ asks,
      (moment o g schedule s (n + 1)).2.asked = (afterRoot o g s).asked ++ asks ∧
      (asks.map fun a => a.request.module).Nodup ∧ ∀ a ∈ asks, Kept o g schedule s (n + 1) a := by
  obtain ⟨asks, hasked, hnodup, hall⟩ := hn.asked
  have hold : ∀ a ∈ asks, Kept o g schedule s (n + 1) a :=
    fun a ha => (hall a ha).succ h hn hcall hwork
  have hquestion := @Work.asked_stepped o g h.generator.discreet w (moment o g schedule s n).2
  cases hq : w.question? o (moment o g schedule s n).2.disk with
  | none =>
    refine ⟨asks, ?_, hnodup, hold⟩
    rw [moment_succ_of_some hcall hwork, hquestion, hq, Option.toList_none, List.append_nil, hasked]
  | some a =>
    obtain ⟨repo, m, header, hask⟩ := hn.asks h hcall hwork hq
    refine ⟨asks ++ [a], ?_, ?_, List.forall_mem_append.mpr ⟨hold, ?_⟩⟩
    · rw [moment_succ_of_some hcall hwork, hquestion, hq, Option.toList_some, hasked,
        List.append_assoc]
    · rw [List.map_append, List.map_singleton]
      refine List.nodup_append.mpr ⟨hnodup, List.nodup_singleton _, fun name hname other ho => ?_⟩
      obtain ⟨b, hb, rfl⟩ := List.mem_map.mp hname
      obtain rfl := List.mem_singleton.mp ho
      exact hask.module_ne (hall b hb)
    · rw [List.forall_mem_singleton]
      exact hask.kept h hn

theorem Sound.succ (h : o.Separates g s.disk) (hf : Foreseen o g schedule s)
    (hn : Sound o g schedule s n) (hcall : (order o g schedule s)[n]? = some i) :
    Sound o g schedule s (n + 1) := by
  cases hwork : (moment o g schedule s n).1[i]? with
  | none =>
    have hsame := moment_succ_of_none hcall hwork
    obtain ⟨halters, hworks, asks, hasked, hnodup, hkept⟩ := hn
    simp only [Kept, ← hsame] at halters hworks hasked hkept
    exact ⟨halters, hworks, asks, hasked, hnodup, hkept⟩
  | some w =>
    exact ⟨hn.alters_succ h hcall hwork, fun _ _ => hn.works_succ h hf hcall hwork,
      hn.asked_succ h hcall hwork⟩

theorem sound_moment (h : o.Separates g s.disk) (hf : Foreseen o g schedule s)
    (hn : n ≤ (order o g schedule s).length) : Sound o g schedule s n := by
  induction n with
  | zero => exact .zero h
  | succ n ih => exact (ih (Nat.le_of_succ_le hn)).succ h hf (List.getElem?_eq_getElem hn)

end Run

end GrammarHeaders
