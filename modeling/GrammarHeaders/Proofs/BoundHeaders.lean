import GrammarHeaders.Proofs.HeaderPlaces
import GrammarHeaders.Proofs.WorkHeaders

namespace GrammarHeaders

variable {o : Options} {g : Generator} {s t u : Session} {m : LanguageModule} {text : Text} {i : Nat}
  {schedule : List Nat}

/-- A header at any depth below a directory, in a folder that can be opened. -/
def IsHeaderBelow (d : Disk) (dir file : Path) : Prop :=
  ∃ names, names ≠ [] ∧ d.tree.HasFile (dir.destination d.cwd ++ names) ∧
    file = names.foldl (· / ·) dir ∧ hasExtension file headerExtensions = true ∧
    Disk.opens dir names.dropLast = true

/-- The request for the root library: it lists the headers below the include directory, each of them
once, with the texts that they have on the disk of the session. -/
structure AskedForRoot (o : Options) (s : Session) (a : Asked) : Prop where
  discovered : ∃ root t, Stage.start (RootLibrary.discover o.rootRepo o.config.layout) s =
    (.ok root, t) ∧ a.request = rootRequest o root
  headers : ∀ file, file ∈ a.request.headers ↔
    IsHeaderBelow s.disk (o.rootRepo.join o.config.layout.rootIncludeDir) file
  once : (a.request.headers.map (Path.destination s.disk.cwd)).Nodup
  texts : a.texts = a.request.headers.map fun file => (s.disk.readText file).toOption

theorem askedForRoot {root : RootLibrary} (hs : s.disk.Regular)
    (h : Stage.start (RootLibrary.discover o.rootRepo o.config.layout) s = (.ok root, t)) :
    AskedForRoot o s ((rootRequest o root).asked s.disk) := by
  obtain ⟨hdiscovered, -⟩ := RootLibrary.discover_eq_ok h
  have hheaders : ((rootRequest o root).asked s.disk).request.headers =
      foundFiles s.disk (o.rootRepo.join o.config.layout.rootIncludeDir) headerExtensions true :=
    hdiscovered.includeDir ▸ hdiscovered.headerFiles
  have hdir := hdiscovered.includeDir ▸ hdiscovered.isDir_includeDir
  refine ⟨⟨root, t, h, rfl⟩, fun file => ?_, ?_, rfl⟩
  · rw [hheaders, mem_foundFiles hs]
    simp only [hdir, true_and, Bool.true_or]
    constructor
    · rintro ⟨names, hnames, hopens, hfile, hext⟩
      obtain ⟨hne, hhas⟩ := (Tree.mem_fileNames hs.tree).1 hnames
      exact ⟨names, hne, hhas, hfile, hext, hopens⟩
    · rintro ⟨names, hne, hhas, hfile, hext, hopens⟩
      exact ⟨names, (Tree.mem_fileNames hs.tree).2 ⟨hne, hhas⟩, hopens, hfile, hext⟩
  · rw [hheaders]
    exact nodup_destinations_foundFiles hs _ _ _

namespace Run

theorem shows_conclude (root : RootLibrary) (outcome : Outcome) (headers : List Path)
    (results : List ModuleResult) (hu : u.disk.Regular)
    (hapart : (o.bindingsOut.destination u.disk.cwd).Apart (o.headersOut.destination u.disk.cwd))
    (hname : IsName m.name) (hshows : m.Shows o u.disk text) :
    m.Shows o (Stage.start (conclude o root outcome headers results) u).2.disk text := by
  have hfootprint := conclude_footprint o root outcome headers results hu
  obtain ⟨executable, hfile⟩ := hshows
  refine ⟨executable, ?_⟩
  rw [hfootprint.cwd]
  refine hfootprint.tree.get?_of_some ?_ hfile
  rintro (⟨⟨folders, n, hl, -⟩, -⟩ | ⟨dir, -, hl⟩)
  · refine hapart.not_prefix_both ?_ (prefix_outputPath hname o.headersOut u.disk.cwd)
    rw [hl]
    exact List.prefix_append _ _
  · rw [Header.outputPath, Path.destination_div (isName_fileName hname)] at hl
    have hlast := List.singleton_inj.mp (List.append_inj' hl rfl).2
    have hend : (Header.fileName m.name).toList.getLast? = some 'h' := by simp [Header.fileName]
    rw [hlast] at hend
    exact absurd hend (by decide)

/-- The work on a grammar comes to its header. -/
def Succeeds (o : Options) (g : Generator) (schedule : List Nat) (s : Session) (i : Nat) : Prop :=
  ∃ results u published, Stage.start (runModulesBy o g schedule (claims o g s)) (afterRoot o g s) =
    (.ok results, u) ∧ results[i]? = some (.ok published)

theorem asked_runModulesBy (h : o.Separates g s.disk) (hf : Foreseen o g schedule s)
    {results : List ModuleResult}
    (hrun : Stage.start (runModulesBy o g schedule (claims o g s)) (afterRoot o g s) =
      (.ok results, u)) :
    u.disk.Regular ∧ u.disk.cwd = s.disk.cwd ∧ ∃ asks, u.asked = (afterRoot o g s).asked ++ asks ∧
      (asks.map fun a => a.request.module).Nodup ∧
      ∀ a ∈ asks, ∃ k i repo m header, AskedAt o g schedule s k i repo m header a ∧
        (Succeeds o g schedule s i →
          m.Shows o u.disk (o.config.languageAnnotator.annotate header.text).text) := by
  obtain ⟨results', u', hrun', hpasses, -⟩ :=
    @start_runModulesBy o g schedule (claims o g s) (afterRoot o g s)
  obtain ⟨hresults, rfl⟩ := Prod.mk.inj (hrun.symm.trans hrun')
  obtain rfl := Except.ok.inj hresults
  have hend : moment o g schedule s (order o g schedule s).length = (results.map Work.ended, u) := by
    rw [moment, List.take_length]
    exact hpasses
  obtain ⟨halters, -, asks, hasked, hnodup, hkept⟩ := sound_moment h hf (Nat.le_refl _)
  simp only [Kept, hend] at halters hasked hkept
  refine ⟨halters.regular, halters.cwd.trans (cwd_afterRoot h), asks, hasked, hnodup, fun a ha => ?_⟩
  obtain ⟨k, i, repo, m, header, w, hask, hi, hfollows⟩ := hkept a ha
  refine ⟨k, i, repo, m, header, hask, ?_⟩
  rintro ⟨results', u', published, hagain, hpublished⟩
  obtain ⟨hresults, -⟩ := Prod.mk.inj (hagain.symm.trans hrun)
  obtain rfl := Except.ok.inj hresults
  rw [List.getElem?_map, hpublished] at hi
  obtain rfl := Option.some.inj hi
  cases hfollows with
  | published hshows => exact hshows

theorem asked_runModulesBy_prefix (hg : g.Discreet) {claims : List (Except Failure Path)}
    {results : List ModuleResult} {v : Session}
    (hrun : Stage.start (runModulesBy o g schedule claims) u = (.ok results, v)) :
    u.asked <+: v.asked := by
  obtain ⟨results', v', hrun', hpasses, -⟩ := @start_runModulesBy o g schedule claims u
  obtain ⟨-, rfl⟩ := Prod.mk.inj (hrun.symm.trans hrun')
  have hprefix := @asked_passes o g hg (schedule ++ inTurn claims.length) (claims.map .ofClaim, u)
  rwa [hpasses] at hprefix

theorem exists_start_runModulesBy (o : Options) (g : Generator) (schedule : List Nat)
    (claims : List (Except Failure Path)) (u : Session) :
    ∃ results t, Stage.start (runModulesBy o g schedule claims) u = (.ok results, t) := by
  obtain ⟨results, t, hrun, -⟩ := @start_runModulesBy o g schedule claims u
  exact ⟨results, t, hrun⟩

/-- A run asks for the root library first, unless it is refused, and then for the grammars, unless the
root stage has failed. -/
theorem asked_generateWith (hg : g.Discreet) {result : Except Failure Report}
    (hrun : Stage.start (generateWith o g (runModulesBy o g schedule)) s = (result, t)) :
    (Refused o s ∧ t.asked = s.asked) ∨
    ∃ root found rest, Stage.start (RootLibrary.discover o.rootRepo o.config.layout) s =
        (.ok root, found) ∧
      t.asked = s.asked ++ (rootRequest o root).asked s.disk :: rest ∧
      (rest = [] ∨ ∃ outcome headers results u,
        Stage.start (runModulesBy o g schedule (claims o g s)) (afterRoot o g s) = (.ok results, u) ∧
        u.asked = (afterRoot o g s).asked ++ rest ∧
        Stage.start (conclude o root outcome headers results) u = (result, t)) := by
  obtain ⟨failure, hfailed, hend⟩ | ⟨root, outcome, headers, results, u, ⟨_, hdiscover⟩, hstage, hloop,
    hend⟩ := start_generateWith g (exists_start_runModulesBy o g schedule) s
  · obtain rfl : afterRoot o g s = t := congrArg Prod.snd (hend.symm.trans hrun)
    obtain ⟨hrefused, hasked, -⟩ | ⟨root, found, hroot, hasked⟩ := asked_afterRoot hg s
    · exact .inl ⟨hrefused, hasked⟩
    · exact .inr ⟨root, found, [], hroot, hasked, .inl rfl⟩
  · obtain ⟨-, -, failure, hfailed⟩ | ⟨root', found, hroot, hasked⟩ := @asked_afterRoot o g hg s
    · rw [hstage] at hfailed
      cases hfailed
    · obtain rfl : root' = root := Except.ok.inj (congrArg Prod.fst (hroot.symm.trans hdiscover))
      have hconclude := hend.symm.trans hrun
      have hsilent := silent_conclude o root' outcome headers results u
      rw [hconclude] at hsilent
      obtain ⟨rest, hrest⟩ := asked_runModulesBy_prefix hg hloop
      refine .inr ⟨root', found, rest, hroot, ?_,
        .inr ⟨outcome, headers, results, u, hloop, hrest.symm, hconclude⟩⟩
      rw [hsilent, ← hrest, hasked, List.append_assoc, List.singleton_append]

end Run

/-- The generator never sees an annotated header, whatever the schedule. It is asked for the root
library first, with the headers as they are in the checkout. Where the names are foreseen, it is then
asked for each module once at most, with the header as it is extracted at that time, and the header of
a module that succeeds is in the end the annotated form of what was asked. -/
theorem generator_sees_plain_headers {result : Except Failure Report} (h : o.Separates g s.disk)
    (hrun : Stage.start (generateWith o g (runModulesBy o g schedule)) s = (result, t)) :
    ∃ asks, t.asked = s.asked ++ asks ∧
      (Run.Refused o s ∧ asks = [] ∨ ∃ first rest, asks = first :: rest ∧ AskedForRoot o s first ∧
        (Run.Foreseen o g schedule s → (asks.map fun a => a.request.module).Nodup ∧
          ∀ a ∈ rest, ∃ k i repo m header, Run.AskedAt o g schedule s k i repo m header a ∧
            (Run.Succeeds o g schedule s i →
              m.Shows o t.disk (o.config.languageAnnotator.annotate header.text).text))) := by
  obtain ⟨hrefused, hnone⟩ | ⟨root, found, rest, hroot, hasked, hrest⟩ :=
    Run.asked_generateWith h.generator.discreet hrun
  · exact ⟨[], by rw [hnone, List.append_nil], .inl ⟨hrefused, rfl⟩⟩
  · refine ⟨_, hasked, .inr ⟨_, rest, rfl, askedForRoot h.regular hroot, fun hf => ?_⟩⟩
    obtain rfl | ⟨outcome, headers, results, u, hloop, hasks, hconclude⟩ := hrest
    · exact ⟨List.nodup_singleton _, fun a ha => absurd ha List.not_mem_nil⟩
    · obtain ⟨hregular, hcwd, asks, hasks', hnodup, hall⟩ := Run.asked_runModulesBy h hf hloop
      obtain rfl : rest = asks := List.append_cancel_left (hasks.symm.trans hasks')
      refine ⟨List.nodup_cons.mpr ⟨fun hmem => ?_, hnodup⟩, fun a ha => ?_⟩
      · obtain ⟨a, ha, hname⟩ := List.mem_map.mp hmem
        obtain ⟨k, i, repo, m, header, hask, -⟩ := hall a ha
        rw [hask.module_eq] at hname
        exact hask.module.name_ne_root hask.claim
          (hname.trans (RootLibrary.discover_eq_ok hroot).1.name)
      · obtain ⟨k, i, repo, m, header, hask, hshows⟩ := hall a ha
        refine ⟨k, i, repo, m, header, hask, fun hi => ?_⟩
        have hkept := Run.shows_conclude root outcome headers results hregular
          (hcwd ▸ h.bindings) hask.module.isName (hshows hi)
        rwa [hconclude] at hkept

/-- A generator that writes into one file which module it was asked for. -/
def scribe (out : Path) : Generator :=
  ⟨"scribe", fun r => do
    Action.ensureDirOr .createDirectory out
    Action.writeText (out / "last.cs") r.module.toList
    return .generated⟩

theorem staysIn_scribe (out : Path) : (scribe out).StaysIn out where
  discreet _ := (Action.silent_ensureDirOr _ _).bind fun _ => (Action.silent_change _ _).bind fun _ =>
    .pure _
  alters r here := by
    have hname : IsName "last.cs" := by constructor <;> decide
    refine (Action.grows_ensureDirOr _ _).alters.bind fun _ =>
      Stage.Alters.bind ?_ fun _ => (Stage.Reads.pure _).alters
    refine (@Action.grows_writeText here (fun _ => False) _ _).alters.mono fun l hl hsame => hl ?_
    rw [hsame, Path.destination_div hname]
    exact List.prefix_append _ _

def staleDisk : Disk where
  tree.entries := toyDisk.tree.entries ++ [(["h"], .directory), (["h", "j"], .directory),
    (["h", "j", "j.h"], .file (.text "DllExport".toList) false)]

theorem regular_staleDisk : staleDisk.Regular :=
  ⟨.of_entries (by decide +kernel) (by decide +kernel), rfl⟩

theorem separates_staleDisk : (toyOptions sideBySide).Separates (scribe ⟨"b"⟩) staleDisk where
  regular := regular_staleDisk
  grammars := by decide +kernel
  checkouts := by decide +kernel
  generator := staysIn_scribe _
  bindings := by decide +kernel

def alternating : List Nat := [0, 1, 0, 1, 0, 1, 0, 1, 0, 1, 0, 1, 0, 1]

theorem claims_staleDisk : Run.claims (toyOptions sideBySide) (scribe ⟨"b"⟩) ⟨staleDisk, [], []⟩ =
    [.ok ⟨"j"⟩, .ok ⟨"k"⟩] := by
  decide +kernel

theorem succeeds_staleDisk {repo : Path} (h : (Run.claims (toyOptions sideBySide) (scribe ⟨"b"⟩)
    ⟨staleDisk, [], []⟩)[i]? = some (.ok repo)) :
    Run.Succeeds (toyOptions sideBySide) (scribe ⟨"b"⟩) alternating ⟨staleDisk, [], []⟩ i := by
  have hresults : (Stage.start (runModulesBy (toyOptions sideBySide) (scribe ⟨"b"⟩) alternating
      (Run.claims (toyOptions sideBySide) (scribe ⟨"b"⟩) ⟨staleDisk, [], []⟩))
      (Run.afterRoot (toyOptions sideBySide) (scribe ⟨"b"⟩) ⟨staleDisk, [], []⟩)).1 =
    .ok [.ok (⟨"j", ⟨"h/j/j.h"⟩, 1⟩, .generated), .ok (⟨"k", ⟨"h/k/k.h"⟩, 1⟩, .generated)] := by
    decide +kernel
  rw [claims_staleDisk] at h
  match i with
  | 0 => exact ⟨_, _, _, Prod.ext hresults rfl, rfl⟩
  | 1 => exact ⟨_, _, _, Prod.ext hresults rfl, rfl⟩
  | n + 2 => cases h

theorem generator_sees_plain_headers_stale :
    ∃ result t, Stage.start (generateWith (toyOptions sideBySide) (scribe ⟨"b"⟩)
        (runModulesBy (toyOptions sideBySide) (scribe ⟨"b"⟩) alternating)) ⟨staleDisk, [], []⟩ =
        (result, t) ∧
      (t.asked.map fun a => a.request.module) = ["core", "j", "k"] ∧
      ∀ a ∈ t.asked.tail, ∃ (m : LanguageModule) (header : Header),
        (∀ text, some text ∈ a.texts → text = header.text) ∧
        m.Shows (toyOptions sideBySide) t.disk
          ((toyOptions sideBySide).config.languageAnnotator.annotate header.text).text := by
  have hasked : ((Stage.start (generateWith (toyOptions sideBySide) (scribe ⟨"b"⟩)
      (runModulesBy (toyOptions sideBySide) (scribe ⟨"b"⟩) alternating))
      ⟨staleDisk, [], []⟩).2.asked.map fun a => a.request.module) = ["core", "j", "k"] := by
    decide +kernel
  obtain ⟨result, t, hrun⟩ : ∃ result t, Stage.start (generateWith (toyOptions sideBySide)
      (scribe ⟨"b"⟩) (runModulesBy (toyOptions sideBySide) (scribe ⟨"b"⟩) alternating))
      ⟨staleDisk, [], []⟩ = (result, t) := ⟨_, _, rfl⟩
  rw [hrun] at hasked
  have hforeseen : Run.Foreseen (toyOptions sideBySide) (scribe ⟨"b"⟩) alternating
      ⟨staleDisk, [], []⟩ := Run.foreseen_of_names (by decide +kernel)
  obtain ⟨asks, hasks, hcases⟩ :=
    @generator_sees_plain_headers _ _ ⟨staleDisk, [], []⟩ _ _ _ separates_staleDisk hrun
  rw [List.nil_append] at hasks
  refine ⟨result, t, hrun, hasked, fun a ha => ?_⟩
  obtain ⟨-, rfl⟩ | ⟨first, rest, rfl, -, hrest⟩ := hcases
  · simp [hasks] at hasked
  · rw [hasks, List.tail_cons] at ha
    obtain ⟨k, i, repo, m, header, hask, hshows⟩ := (hrest hforeseen).2 a ha
    exact ⟨m, header, hask.texts, hshows (succeeds_staleDisk hask.claim)⟩

/-- A path to the directory itself, longer and longer. -/
def points : Nat → String
  | 0 => "."
  | n + 1 => points n ++ "/" ++ "."

theorem head?_points (n : Nat) : (points n).toList.head? = some '.' := by
  induction n with
  | zero => rfl
  | succ n ih =>
    obtain ⟨rest, hrest⟩ := List.head?_eq_some_iff.1 ih
    rw [points, String.toList_append, String.toList_append, hrest]
    rfl

theorem isAbsolute_points (n : Nat) : (⟨points n⟩ : Path).isAbsolute = false := by
  rw [Path.isAbsolute, head?_points]
  rfl

theorem join_points (n : Nat) : (⟨"b"⟩ : Path).join ⟨points n⟩ = ⟨pointed (n + 1)⟩ := by
  have htext : "b" ++ "/" ++ points n = pointed (n + 1) := by
    induction n with
    | zero => rfl
    | succ n ih =>
      rw [points, pointed, ← ih]
      simp only [String.append_assoc]
  rw [Path.join, isAbsolute_points]
  exact congrArg Path.mk htext

def folderDisk : Disk where
  tree.entries := [(["b"], .directory), (["b", "a.h"], .file (.text []) false),
    (["b", "headers"], .directory), (["b", "headers", "c.h"], .file (.text []) false)]

theorem regular_folderDisk : folderDisk.Regular :=
  ⟨.of_entries (by decide +kernel) (by decide +kernel), rfl⟩

def folderOptions (n : Nat) : Options where
  rootRepo := ⟨"b"⟩
  grammarRepos := [⟨"j"⟩]
  bindingsOut := ⟨"x"⟩
  headersOut := ⟨"h"⟩
  smokeTestOut := none
  config := { layout := { rootIncludeDir := ⟨points n⟩ } }

theorem mem_foundFiles_folderDisk {k : Nat} {file : Path} (hk : 2 * k + 1 < Disk.pathLimit)
    (hlong : Disk.pathLimit ≤ 2 * k + 9) :
    file ∈ foundFiles folderDisk ⟨pointed k⟩ headerExtensions true ↔
      file = (⟨pointed k⟩ : Path) / "a.h" := by
  have hnames : folderDisk.tree.fileNames ["b"] = [["a.h"], ["headers", "c.h"]] := by
    simp [Tree.fileNames_eq, List.filterMap_cons, Tree.fileName?, folderDisk]
  have hunopened : Disk.opens ⟨pointed k⟩ ["headers"] = false := by
    have hsize : "headers".utf8ByteSize = 7 := by decide
    rw [opens_pointed (by constructor <;> decide), hsize]
    exact decide_eq_false (by omega)
  have hopened : Disk.opens ⟨pointed k⟩ [] = true := by
    rw [Disk.opens, List.foldl_nil, utf8ByteSize_pointed]
    exact decide_eq_true hk
  have hext : hasExtension ((⟨pointed k⟩ : Path) / "a.h") headerExtensions = true := by
    rw [hasExtension, Path.extension?, Path.fileName?_div (by constructor <;> decide)]
    decide
  have hdir : folderDisk.isDir ⟨pointed k⟩ = true :=
    Disk.isDir_pointed regular_folderDisk rfl (by decide) hk
  have hdest : (⟨pointed k⟩ : Path).destination folderDisk.cwd = ["b"] := destination_pointed k
  rw [mem_foundFiles regular_folderDisk, hdest, hnames]
  constructor
  · rintro ⟨-, names, hn, -, hopens, rfl, -⟩
    simp only [List.mem_cons, List.not_mem_nil, or_false] at hn
    obtain rfl | rfl := hn
    · rfl
    · exact absurd hopens (by simp [hunopened])
  · rintro rfl
    exact ⟨hdir, ["a.h"], by simp, rfl, hopened, rfl, hext⟩

theorem rootDiscovered_folderDisk {n : Nat} (hn : 2 * n + 3 < Disk.pathLimit)
    (hlong : Disk.pathLimit ≤ 2 * n + 11) :
    RootDiscovered folderDisk ⟨"b"⟩ (folderOptions n).config.layout ⟨"b", ⟨"b"⟩, ⟨pointed (n + 1)⟩,
      foundFiles folderDisk ⟨pointed (n + 1)⟩ headerExtensions true⟩ where
  name := (by decide +kernel : "b" = moduleNameOf folderDisk ⟨"b"⟩)
  isIdentifier := (by decide : ModuleName.isIdentifierFragment "b" = true)
  repo_eq := rfl
  includeDir := (join_points n).symm
  isDir := by decide +kernel
  isDir_includeDir := Disk.isDir_pointed regular_folderDisk rfl (by decide) (by omega)
  headerFiles := rfl
  headerFiles_ne_nil :=
    List.ne_nil_of_mem ((mem_foundFiles_folderDisk (by omega) (by omega)).2 rfl)

/-- The outputs lie apart from the checkouts and from each other. -/
def Options.KeepsApart (o : Options) (here : Location) : Prop :=
  (∀ repo ∈ o.rootRepo :: o.grammarRepos, ∀ out ∈ [o.headersOut, o.bindingsOut],
    (repo.destination here).Apart (out.destination here)) ∧
  (o.bindingsOut.destination here).Apart (o.headersOut.destination here)

instance (o : Options) (here : Location) : Decidable (o.KeepsApart here) :=
  inferInstanceAs (Decidable (_ ∧ _))

theorem keepsApart_folderOptions (n : Nat) : (folderOptions n).KeepsApart [] := by
  have hplain : (folderOptions 0).KeepsApart [] := by decide +kernel
  exact hplain

theorem request_folderDisk {n : Nat} {result : Except Failure Report} (hn : 2 * n + 3 < Disk.pathLimit)
    (hlong : Disk.pathLimit ≤ 2 * n + 11)
    (hrun : Stage.start (generate (folderOptions n) Generator.none) ⟨folderDisk, [], []⟩ = (result, t)) :
    ∃ first ∈ t.asked.head?,
      (⟨pointed (n + 1)⟩ : Path) / "headers" / "c.h" ∉ first.request.headers := by
  have hdiscovered := rootDiscovered_folderDisk hn hlong
  obtain ⟨found, hroot, -⟩ := hdiscovered.start_discover (s := ⟨folderDisk, [], []⟩)
  obtain ⟨hrefused, -⟩ | ⟨root', _, rest, hroot', hasked, -⟩ :=
    Run.asked_generateWith Generator.discreet_none ((start_generate_eq _ _ _).symm.trans hrun)
  · obtain hdir | hgrammars | ⟨fault, _, hfault⟩ := hrefused
    · exact absurd (hdiscovered.isDir.symm.trans hdir) (by simp)
    · cases hgrammars
    · cases hroot.symm.trans hfault
  · obtain rfl := Except.ok.inj (congrArg Prod.fst (hroot.symm.trans hroot'))
    refine ⟨_, by rw [hasked]; rfl, fun hlisted => ?_⟩
    have hfound := (mem_foundFiles_folderDisk (by omega) (by omega)).1 hlisted
    have hname := congrArg Path.fileName? hfound
    rw [Path.fileName?_div (by constructor <;> decide), Path.fileName?_div (by constructor <;> decide)]
      at hname
    exact absurd hname (by decide)

theorem aliased_asks_twice :
    let run := Stage.start (generate (toyOptions aliased) Generator.none) ⟨toyDisk, [], []⟩
    run.1.toOption.map Report.failures = some [] ∧
    (run.2.asked.map fun a => a.request.module) = ["core", "j", "j"] ∧
    ¬ ∀ a ∈ run.2.asked.tail, ∀ entry ∈ a.request.headers.zip a.texts, ∀ text ∈ entry.2,
      run.2.disk.readText entry.1 =
        .ok ((toyOptions aliased).config.languageAnnotator.annotate text).text := by
  decide +kernel

deriving instance DecidableEq for Work

def crossing : List Nat := [0, 0, 0, 0, 1, 1, 1, 1, 0, 0, 0, 1]

def crossed : List Work × Session :=
  Run.moment (toyOptions aliased) Generator.none crossing ⟨toyDisk, [], []⟩ 11

def aliasedModule : LanguageModule :=
  ⟨"j", ⟨"h/j/../../j/src/.."⟩, ⟨"h/j/../../j/src/../src"⟩, [⟨"h/j/../../j/src/../src/parser.c"⟩]⟩

theorem regular_crossed : crossed.2.disk.Regular :=
  ⟨.of_entries (by decide +kernel) (by decide +kernel), by decide +kernel⟩

theorem crossed_shows_annotated :
    crossed.1[1]? = some (.written aliasedModule ⟨"h/j/j.h"⟩) ∧
    (∀ file ∈ aliasedModule.sourceFiles,
      crossed.2.disk.tree.get? (file.destination crossed.2.disk.cwd) =
        some (.file (toyParser "tree_sitter_j") false)) ∧
    (Stage.start (extractHeader aliasedModule (toyOptions aliased).config) crossed.2).1.isOk = true ∧
    ∀ header ∈
      (Stage.start (extractHeader aliasedModule (toyOptions aliased).config) crossed.2).1.toOption,
      crossed.2.disk.readText ⟨"h/j/j.h"⟩ ≠ .ok header.text := by
  decide +kernel

/-- Not every header below the include directory is listed: those in a folder that cannot be opened
are passed over. A grammar can be asked for twice, and then its header is not in the end the annotated
form of what was asked. And with two workers the second request can be for an annotated header. -/
theorem passes_over_headers_and_asks_twice :
    (¬ ∀ (o : Options) (s t : Session) (result : Except Failure Report), s.disk.Regular →
      o.KeepsApart s.disk.cwd → s.asked = [] →
      Stage.start (generate o Generator.none) s = (result, t) → ∀ first ∈ t.asked.head?,
      ∀ names, names ≠ [] →
        s.disk.tree.HasFile ((o.rootRepo.join o.config.layout.rootIncludeDir).destination s.disk.cwd ++
          names) →
        hasExtension (names.foldl (· / ·) (o.rootRepo.join o.config.layout.rootIncludeDir))
          headerExtensions = true →
        names.foldl (· / ·) (o.rootRepo.join o.config.layout.rootIncludeDir) ∈
          first.request.headers) ∧
    (¬ ∀ (o : Options) (s t : Session) (result : Except Failure Report), s.disk.Regular →
      o.KeepsApart s.disk.cwd → s.asked = [] →
      Stage.start (generate o Generator.none) s = (result, t) →
      (t.asked.map fun a => a.request.module).Nodup) ∧
    (¬ ∀ (o : Options) (s t : Session) (report : Report), s.disk.Regular →
      o.KeepsApart s.disk.cwd → s.asked = [] →
      Stage.start (generate o Generator.none) s = (.ok report, t) → report.failures = [] →
      ∀ a ∈ t.asked.tail, ∀ entry ∈ a.request.headers.zip a.texts, ∀ text ∈ entry.2,
        t.disk.readText entry.1 = .ok (o.config.languageAnnotator.annotate text).text) ∧
    ¬ ∀ (o : Options) (schedule : List Nat) (s : Session), s.disk.Regular →
      o.KeepsApart s.disk.cwd → s.asked = [] → ∀ k i m path header,
      (Run.order o Generator.none schedule s)[k]? = some i →
      (Run.moment o Generator.none schedule s k).1[i]? = some (.written m path) →
      m.Extracts o.config (Run.moment o Generator.none schedule s k).2.disk header →
      (Run.moment o Generator.none schedule s k).2.disk.readText path = .ok header.text := by
  obtain ⟨hfailures, hasked, hend⟩ := aliased_asks_twice
  obtain ⟨result, u, hrun⟩ : ∃ result u,
      Stage.start (generate (toyOptions aliased) Generator.none) ⟨toyDisk, [], []⟩ = (result, u) :=
    ⟨_, _, rfl⟩
  rw [hrun] at hfailures hasked hend
  have hapart : (toyOptions aliased).KeepsApart [] := by decide +kernel
  refine ⟨fun hall => ?_, fun hall => ?_, fun hall => hend ?_, fun hall => ?_⟩
  · obtain ⟨n, hn, hlong⟩ : ∃ n, 2 * n + 3 < Disk.pathLimit ∧ Disk.pathLimit ≤ 2 * n + 11 :=
      ⟨2044, by decide, by decide⟩
    obtain ⟨result, t, hrun⟩ : ∃ result t,
        Stage.start (generate (folderOptions n) Generator.none) ⟨folderDisk, [], []⟩ = (result, t) :=
      ⟨_, _, rfl⟩
    obtain ⟨first, hfirst, hnot⟩ := request_folderDisk hn hlong hrun
    have hinclude : (folderOptions n).rootRepo.join (folderOptions n).config.layout.rootIncludeDir =
        ⟨pointed (n + 1)⟩ := join_points n
    have hlisted := hall (folderOptions n) ⟨folderDisk, [], []⟩ t result regular_folderDisk
      (keepsApart_folderOptions n) rfl hrun first hfirst ["headers", "c.h"] (by simp)
    rw [hinclude] at hlisted
    refine hnot (hlisted ?_ ?_)
    · have hdest : (⟨pointed (n + 1)⟩ : Path).destination [] = ["b"] := destination_pointed (n + 1)
      exact hdest ▸ ⟨_, _, rfl⟩
    · rw [List.foldl_cons, List.foldl_cons, List.foldl_nil, hasExtension, Path.extension?,
        Path.fileName?_div (by constructor <;> decide)]
      decide
  · have hnodup := hall (toyOptions aliased) ⟨toyDisk, [], []⟩ u result regular_toyDisk hapart rfl hrun
    rw [hasked] at hnodup
    exact absurd hnodup (by decide)
  · cases result with
    | error failure => cases hfailures
    | ok report =>
      exact hall (toyOptions aliased) ⟨toyDisk, [], []⟩ u report regular_toyDisk hapart rfl hrun
        (Option.some.inj hfailures)
  · obtain ⟨hwork, hfiles, hok, hother⟩ := crossed_shows_annotated
    obtain ⟨header, hheader⟩ := exists_ok_of_isOk hok
    refine hother header (by rw [hheader]; rfl) ?_
    exact hall (toyOptions aliased) crossing ⟨toyDisk, [], []⟩ regular_toyDisk hapart rfl 11 1
      aliasedModule ⟨"h/j/j.h"⟩ header (by decide +kernel) hwork
      (LanguageModule.extracts_of_start regular_crossed (fun file hfile => ⟨_, _, hfiles file hfile⟩)
        (Prod.ext hheader rfl))

end GrammarHeaders
