import GrammarHeaders.Proofs.Conclusion
import GrammarHeaders.Proofs.FactoryExport
import GrammarHeaders.Proofs.FailedGrammars
import GrammarHeaders.Proofs.SingleFactory

namespace GrammarHeaders

variable {o : Options} {g : Generator} {s t u : Session} {repo path : Path} {m : LanguageModule}
  {report : Report}

namespace Text

theorem exists_line_of_infix {w : Text} {ls : List Line} (hw : '\n' ∉ w) (hc : Canonical ls)
    (h : w <:+: ofLines ls) : w = [] ∨ ∃ l ∈ ls, w <:+: l.text := by
  induction hc with
  | nil => exact .inl (List.infix_nil.mp h)
  | @last l hl => exact .inr ⟨l, List.mem_singleton_self l, by simpa using h⟩
  | @cons l ls hl _ ih =>
    obtain ⟨a, ha⟩ : ∃ a, l.text = a ++ ['\n'] := by
      obtain ⟨e, he⟩ := Option.isSome_iff_exists.mp hl.terminated
      rw [Line.text_of_terminator he]
      cases e with
      | lf => exact ⟨l.content, rfl⟩
      | crlf => exact ⟨l.content ++ ['\r'], by simp [LineEnding.text]⟩
    obtain ⟨f, r, hfr⟩ := h
    have hsplit : a ++ '\n' :: ofLines ls = f ++ (w ++ r) := by
      rw [← List.append_assoc, hfr, ofLines_cons, ha]
      simp
    obtain ⟨r', rfl⟩ | ⟨f', -, hls⟩ := side_of_not_mem hw hsplit
    · exact .inr ⟨l, List.mem_cons_self, ha ▸ ⟨f, r' ++ ['\n'], by simp⟩⟩
    · obtain hw | ⟨k, hk, hkw⟩ := ih ⟨f', r, by rw [hls, List.append_assoc]⟩
      · exact .inl hw
      · exact .inr ⟨k, List.mem_cons_of_mem _ hk, hkw⟩

theorem infix_ofLines {l : Line} {ls : List Line} (h : l ∈ ls) : l.text <:+: ofLines ls := by
  obtain ⟨front, back, rfl⟩ := List.append_of_mem h
  exact ⟨ofLines front, ofLines back, by simp⟩

end Text

theorem Annotator.infix_annotate {a : Annotator} {w t : Text} (hw : '\n' ∉ w) (h : w <:+: t) :
    w <:+: (a.annotate t).text := by
  rw [text_annotate]
  rw [← Text.ofLines_lines t] at h
  obtain rfl | ⟨l, hl, hwl⟩ := Text.exists_line_of_infix hw (Text.canonical_lines t) h
  · exact List.nil_infix
  · have hmarked : l.text <:+: (a.markLine l).text := by
      unfold markLine
      split
      · exact ⟨a.exportMacro.name.toList ++ [' '], [], by simp [Line.text, Line.ending]⟩
      · exact List.infix_rfl
    exact hwl.trans (hmarked.trans (Text.infix_ofLines
      (mem_withBlock.mpr (.inl (List.mem_map_of_mem hl)))))

namespace SmokeTest

def calling (root language accessor : String) : String :=
  String.join ((programLines root language accessor).map fun line => line ++ "\n")

theorem program_eq (root : String) (m : LanguageModule) :
    program root m.name = calling root m.name (ModuleName.pascalCase m.factoryName) := rfl

theorem exists_programLines (root language : String) : ∃ front back, ∀ accessor,
    programLines root language accessor = front ++
      s!"            api.TsParserSetLanguage(m_parser, global::{language}.{language}.{accessor}());" ::
        back :=
  ⟨(programLines root language "").take 21, (programLines root language "").drop 22, fun _ => rfl⟩

theorem calling_inj {root language a b : String} :
    calling root language a = calling root language b ↔ a = b := by
  refine ⟨fun h => ?_, fun h => h ▸ rfl⟩
  obtain ⟨front, back, hlines⟩ := exists_programLines root language
  rw [calling, calling, hlines, hlines, ← String.toList_inj] at h
  simp only [String.toList_join, List.map_append, List.map_cons, List.flatMap_append, List.flatMap_cons,
    toString, String.toList_append, List.append_assoc, List.append_cancel_left_eq] at h
  exact String.toList_inj.mp (List.append_cancel_right h)

end SmokeTest

theorem writeSmokeTestFor_eq_some {root : String} {language : Option String}
    (h : Stage.start (writeSmokeTestFor o root language) s = (.ok (some path), t)) :
    ∃ name, language = some name ∧
      ∃ d : Disk, d.write path (.text (SmokeTest.program root name).toList) = .ok t.disk := by
  unfold writeSmokeTestFor at h
  split at h
  · cases h
  · rename_i dir name _
    rw [map_eq_pure_bind] at h
    obtain ⟨path', u, hwrite, h⟩ := Stage.start_bind_eq_ok.mp h
    obtain ⟨hpath, rfl⟩ := Prod.mk.inj h
    obtain rfl := Option.some.inj (Except.ok.inj hpath)
    obtain ⟨_, v, -, hwrite⟩ := Stage.start_bind_eq_ok.mp hwrite
    obtain ⟨⟨⟩, w, htext, hwrite⟩ := Stage.start_bind_eq_ok.mp hwrite
    obtain ⟨_, x, hlog, hwrite⟩ := Stage.start_bind_eq_ok.mp hwrite
    obtain ⟨hpath, rfl⟩ := Prod.mk.inj hwrite
    obtain ⟨-, rfl⟩ := Prod.mk.inj hlog
    obtain rfl := Except.ok.inj hpath
    have hwritten := Action.start_writeText_eq_ok htext
    exact ⟨name, rfl, v.disk, hwritten⟩
  · obtain ⟨_, u, -, h⟩ := Stage.start_bind_eq_ok.mp h
    cases h

namespace Factory

/-- The header declares the factory. -/
def DeclaredIn (factory : Factory) (header : Text) : Prop :=
  Marker.signatureOpening ++ factory.name.toList ++ Marker.signatureClosing ++ [';'] <:+: header

theorem name_of_locate {tail : Text} {expected : String} {file : Path} {factory : Factory}
    {warnings : List LogLine} (h : locate tail expected .strict file = .ok (factory, warnings)) :
    factory.name = expected := by
  unfold locate at h
  split at h
  · cases h
  · split at h
    · dsimp only at h
      split at h
      · rename_i hname
        obtain ⟨rfl, -⟩ := Prod.mk.inj (Except.ok.inj h)
        exact hname
      · cases h
    · cases h

end Factory

theorem head?_of_assignNames {d : Disk} {taken : List (String × Path)} {repos : List Path}
    {rest : List (Except Failure Path)} (h : assignNames d taken repos = .ok repo :: rest) :
    repos.head? = some repo := by
  cases repos with
  | nil => cases h
  | cons first others =>
    rw [assignNames] at h
    split at h
    · cases h
    · obtain ⟨hrepo, -⟩ := List.cons.inj h
      exact congrArg some (Except.ok.inj hrepo)

namespace Run

theorem exists_claim_of_head {all : List (Except Failure Path)} {value : LanguageHeader × Outcome}
    {others : List ModuleResult}
    (h : Stage.start (runModules o g all) u = (.ok (.ok value :: others), t)) :
    ∃ repo rest v, all = .ok repo :: rest ∧ Stage.start (runModule o g repo) u = (.ok value, v) := by
  cases all with
  | nil => cases h
  | cons claim rest =>
    cases claim with
    | error failure =>
      rw [runModules, Stage.start_bind, Stage.start_pure] at h
      obtain ⟨results', w', -, h⟩ := Stage.start_bind_eq_ok.mp h
      cases h
    | ok repo =>
      rw [runModules] at h
      obtain ⟨result, v, hfirst, h⟩ := Stage.start_bind_eq_ok.mp h
      obtain ⟨results', w', -, h⟩ := Stage.start_bind_eq_ok.mp h
      obtain ⟨hresults, -⟩ := Prod.mk.inj h
      obtain ⟨rfl, -⟩ := List.cons.inj (Except.ok.inj hresults)
      obtain ⟨hresult, -⟩ := Prod.mk.inj hfirst
      exact ⟨repo, rest, _, rfl, Prod.ext (Except.ok.inj hresult) rfl⟩

theorem runModule_eq_ok {published : LanguageHeader} {outcome : Outcome}
    (h : Stage.start (runModule o g repo) u = (.ok (published, outcome), t)) :
    ∃ m header v, Stage.start (prepare o repo) u = (.ok (m, header), v) ∧
      published.moduleName = m.name ∧ published.headerPath = header := by
  rw [runModule_eq] at h
  obtain ⟨⟨m, header⟩, v, hprepare, h⟩ := Stage.start_bind_eq_ok.mp h
  obtain ⟨outcome', w, -, h⟩ := Stage.start_bind_eq_ok.mp h
  obtain ⟨published', x, hannotate, h⟩ := Stage.start_bind_eq_ok.mp h
  obtain ⟨hresult, -⟩ := Prod.mk.inj h
  obtain ⟨rfl, -⟩ := Prod.mk.inj (Except.ok.inj hresult)
  obtain ⟨_, y, -, hannotate⟩ := Stage.start_bind_eq_ok.mp hannotate
  obtain ⟨_, z, -, hannotate⟩ := Stage.start_bind_eq_ok.mp hannotate
  obtain ⟨hpublished, -⟩ := Prod.mk.inj hannotate
  obtain rfl := Except.ok.inj hpublished
  exact ⟨m, header, v, hprepare, rfl, rfl⟩

end Run

/-- The header that is made for a grammar when it is its turn, and the factory that it declares. -/
structure MakesHeader (o : Options) (s : Session) (repo : Path) (m : LanguageModule) (header : Header)
    (factory : Factory) : Prop where
  extracted : ∃ u v, Stage.start (LanguageModule.discover repo) s = (.ok m, u) ∧
    Stage.start (extractHeader m o.config) u = (.ok header, v)
  found : ∃ tail, m.HasFactory o.config s.disk tail factory
  declared : factory.DeclaredIn header.text
  /-- Annotation does not change that. -/
  published : factory.DeclaredIn (o.config.languageAnnotator.annotate header.text).text

theorem MakesHeader.name {header : Header} {factory : Factory} (h : MakesHeader o s repo m header factory)
    (hcheck : o.config.nameCheck = .strict) : factory.name = m.factoryName := by
  obtain ⟨tail, parser, source, span, warnings, -, -, -, -, hlocate⟩ := h.found
  rw [hcheck] at hlocate
  exact Factory.name_of_locate hlocate

theorem Run.makesHeader_of_prepare (h : Stage.start (prepare o repo) s = (.ok (m, path), t)) :
    path = Header.outputPath o.headersOut m.name ∧
      ∃ header factory, MakesHeader o s repo m header factory := by
  obtain ⟨u, hdiscover, hwrite⟩ := start_prepare_eq_ok h
  have hreads := LanguageModule.reads_discover repo s
  rw [hdiscover] at hreads
  obtain rfl := gives_writeLanguageHeader _ _ _ _ _ _ hwrite
  obtain ⟨header, v, hheader, -⟩ := Stage.start_bind_eq_ok.mp hwrite
  obtain ⟨c, tail, source, newline, hfactory, hc, hh⟩ := cut_of_extractHeader hheader
  have hname : c.factory.name.toList = c.name := String.toList_ofList
  have hdeclared : c.factory.DeclaredIn header.text := by
    rw [Factory.DeclaredIn, hname, ← hc.signature_eq, hh]
    rw [Factory.Cut.text_synthesize]
    exact ⟨Factory.prologue source newline ++ (newline.text ++ c.front), newline.text ++ c.back, by simp⟩
  refine ⟨rfl, header, c.factory, ⟨u, v, hdiscover, hheader⟩, ⟨tail, hreads ▸ hfactory⟩, hdeclared, ?_⟩
  refine Annotator.infix_annotate ?_ hdeclared
  rw [hname, ← hc.signature_eq]
  simpa using Marker.newline_not_mem_signature hc.signature.shape

theorem finish_eq_some {root : RootLibrary} {outcome : Outcome} {results : List ModuleResult}
    {patch : PatchSummary}
    (h : Stage.start (finish o root outcome results) s = (.ok (patch, some path), t)) :
    ∃ published outcome' others, results = .ok (published, outcome') :: others ∧
      ∃ d : Disk, d.write path
        (.text (SmokeTest.program root.name published.moduleName).toList) = .ok t.disk := by
  obtain ⟨patch', u, -, h⟩ := Stage.start_bind_eq_ok.mp h
  obtain ⟨smokeTest, v, hwrite, h⟩ := Stage.start_bind_eq_ok.mp h
  obtain ⟨hdone, rfl⟩ := Prod.mk.inj h
  obtain ⟨-, rfl⟩ := Prod.mk.inj (Except.ok.inj hdone)
  obtain ⟨name, hname, hwritten⟩ := writeSmokeTestFor_eq_some hwrite
  unfold smokeModule? at hname
  split at hname
  · obtain rfl := Option.some.inj hname
    exact ⟨_, _, _, rfl, hwritten⟩
  · cases hname

/-- A smoke test that a run has written is for the first grammar, a header was made for that, and the
program calls the accessor of the factory that the checkout is named after. -/
theorem Run.smokeTest_eq_some (h : Stage.start (generate o g) s = (.ok report, t))
    (hsmoke : report.smokeTest = some path) :
    ∃ repo m header factory published,
      o.grammarRepos.head? = some repo ∧
      MakesHeader o (afterRoot o g s) repo m header factory ∧
      report.languageHeaders.head? = some published ∧
      published.headerPath = Header.outputPath o.headersOut m.name ∧
      ∃ d : Disk, d.write path (.text (SmokeTest.calling report.rootModule m.name
        (ModuleName.pascalCase m.factoryName)).toList) = .ok t.disk := by
  obtain ⟨root, outcome, headers, results, ⟨patch, smokeTest⟩, hmodules, hfinish, rfl⟩ :=
    generate_eq_ok h
  obtain rfl : smokeTest = some path := hsmoke
  obtain ⟨published, outcome', others, rfl, hwritten⟩ := finish_eq_some hfinish
  obtain ⟨repo, rest, u, hclaims, hmodule⟩ := exists_claim_of_head hmodules
  obtain ⟨m, headerPath, v, hprepare, hname, hheaderPath⟩ := runModule_eq_ok hmodule
  obtain ⟨rfl, header, factory, hmakes⟩ := makesHeader_of_prepare hprepare
  have hrepo := head?_of_assignNames hclaims
  refine ⟨repo, m, header, factory, published, hrepo, hmakes, ?_, hheaderPath, ?_⟩
  · obtain ⟨repos, hrepos⟩ := List.head?_eq_some_iff.mp hrepo
    simp [reportOn, collected, hrepos, header?]
  · rw [hname, SmokeTest.program_eq] at hwritten
    exact hwritten

/-- The smoke test calls the accessor of the factory that the header of the first grammar declares, just
if that factory and the one that the checkout is named after have the same accessor. So it does where
names are checked strictly. -/
theorem smoke_test_calls_factory_iff (h : Stage.start (generate o g) s = (.ok report, t))
    (hsmoke : report.smokeTest = some path) :
    ∃ repo m header factory published text,
      o.grammarRepos.head? = some repo ∧
      MakesHeader o (Run.afterRoot o g s) repo m header factory ∧
      report.languageHeaders.head? = some published ∧
      published.headerPath = Header.outputPath o.headersOut m.name ∧
      (∃ d : Disk, d.write path (.text text) = .ok t.disk) ∧
      (text = (SmokeTest.calling report.rootModule m.name
          (ModuleName.pascalCase factory.name)).toList ↔
        ModuleName.pascalCase factory.name = ModuleName.pascalCase m.factoryName) ∧
      (o.config.nameCheck = .strict → factory.name = m.factoryName) := by
  obtain ⟨repo, m, header, factory, published, hrepo, hmakes, hhead, hheaderPath, hwritten⟩ :=
    Run.smokeTest_eq_some h hsmoke
  refine ⟨repo, m, header, factory, published, _, hrepo, hmakes, hhead, hheaderPath, hwritten, ?_,
    hmakes.name⟩
  rw [String.toList_inj, SmokeTest.calling_inj]
  exact eq_comm

def exercisedOptions : Options := { toyOptions [⟨"j"⟩] with smokeTestOut := some ⟨"t"⟩ }

theorem smoke_test_calls_factory_iff_exercised :
    ∃ report t m header factory text,
      Stage.start (generate exercisedOptions Generator.none) ⟨toyDisk, [], []⟩ = (.ok report, t) ∧
      report.smokeTest = some ⟨"t/Program.cs"⟩ ∧
      MakesHeader exercisedOptions (Run.afterRoot exercisedOptions Generator.none ⟨toyDisk, [], []⟩) ⟨"j"⟩
        m header factory ∧
      (∃ d : Disk, d.write ⟨"t/Program.cs"⟩ (.text text) = .ok t.disk) ∧
      text = (SmokeTest.calling report.rootModule m.name
        (ModuleName.pascalCase factory.name)).toList := by
  obtain ⟨report, hreport⟩ : ∃ report : Report, report =
      ⟨"core", [⟨"h/core/a.h"⟩], [⟨"j", ⟨"h/j/j.h"⟩, 1⟩], {}, some ⟨"t/Program.cs"⟩, []⟩ := ⟨_, rfl⟩
  obtain ⟨result, t, hrun⟩ : ∃ result t, Stage.start (generate exercisedOptions Generator.none)
      ⟨toyDisk, [], []⟩ = (result, t) := ⟨_, _, rfl⟩
  have hresult : (Stage.start (generate exercisedOptions Generator.none) ⟨toyDisk, [], []⟩).1 =
      .ok report := by
    subst hreport
    decide +kernel
  rw [hrun] at hresult
  obtain rfl : result = .ok report := hresult
  have hsmoke : report.smokeTest = some ⟨"t/Program.cs"⟩ := by rw [hreport]
  obtain ⟨repo, m, header, factory, published, text, hrepo, hmakes, -, -, hwritten, hiff, hname⟩ :=
    smoke_test_calls_factory_iff hrun hsmoke
  obtain rfl : (⟨"j"⟩ : Path) = repo := Option.some.inj hrepo
  exact ⟨report, t, m, header, factory, text, hrun, hsmoke, hmakes, hwritten,
    hiff.mpr (congrArg ModuleName.pascalCase (hname rfl))⟩

def lenientOptions : Options :=
  let o := exercisedOptions
  { o with config := { o.config with generate := { allowNameMismatch := true } } }

/-- The header keeps the factory of another grammar, and the program calls one that it does not
declare. -/
theorem smoke_test_calls_other_factory :
    ∃ report t m header factory text,
      Stage.start (generate lenientOptions Generator.none) ⟨renamedDisk, [], []⟩ = (.ok report, t) ∧
      report.smokeTest = some ⟨"t/Program.cs"⟩ ∧
      MakesHeader lenientOptions (Run.afterRoot lenientOptions Generator.none ⟨renamedDisk, [], []⟩)
        ⟨"j"⟩ m header factory ∧
      factory.name = "tree_sitter_x" ∧
      (∃ d : Disk, d.write ⟨"t/Program.cs"⟩ (.text text) = .ok t.disk) ∧
      text ≠ (SmokeTest.calling report.rootModule m.name
        (ModuleName.pascalCase factory.name)).toList := by
  obtain ⟨report, hreport⟩ : ∃ report : Report, report =
      ⟨"core", [⟨"h/core/a.h"⟩], [⟨"j", ⟨"h/j/j.h"⟩, 1⟩], {}, some ⟨"t/Program.cs"⟩, []⟩ := ⟨_, rfl⟩
  obtain ⟨result, t, hrun⟩ : ∃ result t, Stage.start (generate lenientOptions Generator.none)
      ⟨renamedDisk, [], []⟩ = (result, t) := ⟨_, _, rfl⟩
  have hresult : (Stage.start (generate lenientOptions Generator.none) ⟨renamedDisk, [], []⟩).1 =
      .ok report := by
    subst hreport
    decide +kernel
  rw [hrun] at hresult
  obtain rfl : result = .ok report := hresult
  have hsmoke : report.smokeTest = some ⟨"t/Program.cs"⟩ := by rw [hreport]
  obtain ⟨repo, m, header, factory, published, hrepo, hmakes, -, -, hwritten⟩ :=
    Run.smokeTest_eq_some hrun hsmoke
  obtain rfl : (⟨"j"⟩ : Path) = repo := Option.some.inj hrepo
  obtain rfl : m = ⟨"j", ⟨"j"⟩, ⟨"j/src"⟩, [⟨"j/src/parser.c"⟩]⟩ := by
    obtain ⟨u, v, hdiscover, -⟩ := hmakes.extracted
    have hm : (Stage.start (LanguageModule.discover ⟨"j"⟩)
        (Run.afterRoot lenientOptions Generator.none ⟨renamedDisk, [], []⟩)).1 =
          .ok ⟨"j", ⟨"j"⟩, ⟨"j/src"⟩, [⟨"j/src/parser.c"⟩]⟩ := by decide +kernel
    rw [hdiscover] at hm
    exact Except.ok.inj hm
  have hname : factory.name = "tree_sitter_x" := by
    obtain ⟨tail, parser, source, span, warnings, hparser, hread, hspan, htail, hlocate⟩ := hmakes.found
    have hsearch : (do
        let parser ← (LanguageModule.parserFile ⟨"j", ⟨"j"⟩, ⟨"j/src"⟩, [⟨"j/src/parser.c"⟩]⟩
          lenientOptions.config.layout).toOption
        let source ← ((Run.afterRoot lenientOptions Generator.none
          ⟨renamedDisk, [], []⟩).disk.readText parser).toOption
        let span ← (Factory.locateTail source parser).toOption
        let tail ← Text.slice? source span
        let found ← (Factory.locate tail "tree_sitter_j" .warn parser).toOption
        return found.1.name) = some "tree_sitter_x" := by decide +kernel
    have hexpected : LanguageModule.factoryName ⟨"j", ⟨"j"⟩, ⟨"j/src"⟩, [⟨"j/src/parser.c"⟩]⟩ =
        "tree_sitter_j" := by decide +kernel
    have hcheck : lenientOptions.config.nameCheck = .warn := rfl
    rw [hexpected, hcheck] at hlocate
    simpa [hparser, hread, hspan, htail, hlocate, Except.toOption] using hsearch
  refine ⟨report, t, _, header, factory, _, hrun, hsmoke, hmakes, hname, hwritten, ?_⟩
  rw [hname, Ne, String.toList_inj, SmokeTest.calling_inj]
  decide +kernel

end GrammarHeaders
