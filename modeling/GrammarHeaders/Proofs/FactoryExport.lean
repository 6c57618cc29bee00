import GrammarHeaders.Proofs.BlockPlacement
import GrammarHeaders.Proofs.Excision
import GrammarHeaders.Proofs.Stages

namespace GrammarHeaders

namespace Marker

theorem isDeclaration_signature {x : Match} (h : signature.Shape x) :
    Declaration.isDeclaration grammarFunctionPrefix.toList (x.matched ++ [';']) = true := by
  cases h with
  | @signature stem _ hw =>
    have hclose : signatureClosing ++ [';'] = '(' :: "void);".toList := by decide
    have hline : signatureOpening ++ (grammarFunctionPrefix.toList ++ stem) ++ signatureClosing ++
        [';'] = signatureOpening ++ (grammarFunctionPrefix.toList ++ (stem ++ '(' :: "void);".toList)) := by
      simp only [List.append_assoc, hclose]
    have hrun : signatureOpening.foldlM ReturnType.step .start = some .stars := by decide
    have hfirst : Text.firstToken (signatureOpening ++
        (grammarFunctionPrefix.toList ++ (stem ++ '(' :: "void);".toList))) = "extern".toList := rfl
    have hargs : Declaration.isArgumentList "void);".toList = true := by decide
    have hcall : Declaration.isCallShape grammarFunctionPrefix.toList
        (grammarFunctionPrefix.toList ++ (stem ++ '(' :: "void);".toList)) = true :=
      Declaration.isCallShape_append hw hargs
    have hrest := Declaration.continues_of_isCallShape (s := .stars) rfl hcall
    rw [hline, Declaration.isDeclaration, hfirst, Declaration.continues_append hrun hrest]
    decide

theorem newline_not_mem_signature {x : Match} (h : signature.Shape x) : '\n' ∉ x.matched := by
  cases h with
  | @signature stem _ hw =>
    have hs : '\n' ∉ stem := fun hmem => absurd (hw _ hmem) (by decide)
    have ho : '\n' ∉ signatureOpening := by decide
    have hp : '\n' ∉ grammarFunctionPrefix.toList := by decide
    have hc : '\n' ∉ signatureClosing := by decide
    simp [ho, hp, hs, hc]

theorem not_prefix_signature {name : Text} {x : Match} (h : signature.Shape x)
    (hid : Text.isIdentifier name = true) (hne : name ≠ "extern".toList) (t : Text) :
    ¬ name ++ [' '] <+: x.matched ++ t := by
  rintro ⟨rest, hr⟩
  cases h with
  | @signature stem _ _ =>
    have hword := congrArg (fun u => u.takeWhile fun c => c != ' ') hr
    simp only [List.append_assoc, List.singleton_append] at hword
    rw [Text.takeWhile_of_isIdentifier hid] at hword
    exact hne hword

end Marker

namespace Annotator

theorem due_signature {a : Annotator} {x : Match} (h : Marker.signature.Shape x)
    (hp : a.functionPrefix = grammarFunctionPrefix)
    (hid : Text.isIdentifier a.exportMacro.name.toList = true) (hne : a.exportMacro.name ≠ "extern") :
    a.Due (x.matched ++ [';']) := by
  have hne : a.exportMacro.name.toList ≠ "extern".toList := mt String.toList_inj.mp hne
  refine ⟨?_, Marker.not_prefix_signature h hid hne [';']⟩
  rw [hp]
  exact Marker.isDeclaration_signature h

theorem annotate_of_due {a : Annotator} {t : Text} {l : Line} (hm : a.exportMacro.OnOneLine)
    (hl : l ∈ Text.lines t) (hd : a.Due l.content) :
    ({ l with content := a.exportMacro.name.toList ++ ' ' :: l.content } : Line) ∈
      Text.lines (a.annotate t).text ∧ 1 ≤ (a.annotate t).prefixed := by
  constructor
  · rw [lines_annotate hm, ← markLine_of_due hd]
    exact mem_withBlock.mpr (.inl (List.mem_map_of_mem hl))
  · rw [prefixed_annotate, Nat.one_le_iff_ne_zero, ← Nat.pos_iff_ne_zero, List.countP_pos_iff]
    refine ⟨l, hl, ?_⟩
    have hne : a.markLine l ≠ l := fun h => (a.markLine_eq_iff l).mp h hd
    simpa using hne

end Annotator

namespace Factory

/-- The signature of the factory is at the beginning of a line of the text it was found in. -/
def StartsLine (f : Factory) (tail : Text) : Prop :=
  ∃ front rest, Text.cutAt? f.span.start tail = some (front, rest) ∧ Text.EndsLine front

theorem Cut.IsFactory.signature_eq {c : Cut} {tail : Text} (hc : c.IsFactory tail) :
    c.signature = Marker.signatureOpening ++ c.name ++ Marker.signatureClosing := by
  obtain ⟨front, sig, name, body, back⟩ := c
  obtain ⟨-, hshape, -⟩ := hc.signature
  cases hshape
  rfl

theorem Cut.IsFactory.endsLine {c : Cut} {tail : Text} (hc : c.IsFactory tail)
    (h : c.factory.StartsLine tail) : Text.EndsLine c.front := by
  obtain ⟨front, rest, hcut, hf⟩ := h
  rw [hc.signature.whole, Cut.factory, Text.cutAt?_append] at hcut
  obtain ⟨rfl, -⟩ := Prod.mk.inj (Option.some.inj hcut)
  exact hf

theorem Cut.IsFactory.mem_lines {c : Cut} {tail : Text} (hc : c.IsFactory tail)
    (hf : Text.EndsLine c.front) (moduleName : String) (source : Path) (newline : LineEnding) :
    (⟨c.signature ++ [';'], some newline⟩ : Line) ∈
      Text.lines (Header.synthesize moduleName source (c.declarations newline) newline).text := by
  have hl : Line.Closed ⟨c.signature ++ [';'], some newline⟩ := by
    have hn := Marker.newline_not_mem_signature hc.signature.shape
    exact ⟨by simpa using hn, rfl, by simp⟩
  have ht : (Header.synthesize moduleName source (c.declarations newline) newline).text =
      Header.provenance source ++ newline.text ++ newline.text ++ lexerDeclaration ++ newline.text ++
        languageDeclaration ++ newline.text ++ newline.text ++ c.front ++
        (Line.text ⟨c.signature ++ [';'], some newline⟩ ++ c.back) := by
    simp [Header.synthesize, Cut.declarations, Line.text, Line.ending]
  rw [ht, Text.lines_append ((Text.endsLine_append_ending _ newline).append hf),
    Text.lines_text_append hl]
  simp

end Factory

namespace LanguageModule

/-- The factory is the one that extraction finds in the tail of the module's parser. -/
def HasFactory (m : LanguageModule) (config : Config) (d : Disk) (tail : Text) (factory : Factory) :
    Prop :=
  ∃ parser source span warnings, m.parserFile config.layout = .ok parser ∧
    d.readText parser = .ok source ∧ Factory.locateTail source parser = .ok span ∧
    Text.slice? source span = some tail ∧
    Factory.locate tail m.factoryName config.nameCheck parser = .ok (factory, warnings)

theorem HasFactory.unique {m : LanguageModule} {config : Config} {d : Disk} {tail tail' : Text}
    {factory factory' : Factory} (h : m.HasFactory config d tail factory)
    (h' : m.HasFactory config d tail' factory') : tail = tail' ∧ factory = factory' := by
  obtain ⟨parser, source, span, warnings, hp, hr, hs, ht, hl⟩ := h
  obtain ⟨parser', source', span', warnings', hp', hr', hs', ht', hl'⟩ := h'
  obtain rfl := Except.ok.inj (hp.symm.trans hp')
  obtain rfl := Except.ok.inj (hr.symm.trans hr')
  obtain rfl := Except.ok.inj (hs.symm.trans hs')
  obtain rfl := Option.some.inj (ht.symm.trans ht')
  obtain ⟨hf, -⟩ := Prod.mk.inj (Except.ok.inj (hl.symm.trans hl'))
  exact ⟨rfl, hf⟩

end LanguageModule

theorem cut_of_extractHeader {m : LanguageModule} {config : Config} {s u : Session} {header : Header}
    (h : Stage.start (extractHeader m config) s = (.ok header, u)) :
    ∃ (c : Factory.Cut) (tail : Text) (path : Path) (newline : LineEnding),
      m.HasFactory config s.disk tail c.factory ∧ c.IsFactory tail ∧
      header = Header.synthesize m.name path (c.declarations newline) newline := by
  obtain ⟨parser, source, declarations, lines, hp, hr, he, hh⟩ := extractHeader_eq_ok h
  obtain ⟨span, tail, factory, warnings, hs, ht, hl, c, hc, rfl, rfl⟩ :=
    Factory.cut_of_extractDeclarations he
  exact ⟨c, tail, m.provenance parser, LineEnding.detect source,
    ⟨parser, source, span, warnings, hp, hr, hs, ht, hl⟩, hc, hh⟩

theorem exported_toList (macroName name : String) :
    (s!"{macroName} extern const TSLanguage *{name}(void);").toList = macroName.toList ++
      ' ' :: (Marker.signatureOpening ++ name.toList ++ Marker.signatureClosing ++ [';']) := by
  have ho : " extern const TSLanguage *".toList = ' ' :: Marker.signatureOpening := by decide +kernel
  have hc : "(void);".toList = Marker.signatureClosing ++ [';'] := by decide
  have hs : (s!"{macroName} extern const TSLanguage *{name}(void);").toList =
      macroName.toList ++ " extern const TSLanguage *".toList ++ name.toList ++ "(void);".toList := by
    simp only [toString, String.toList_append]
  rw [hs, ho, hc]
  simp only [List.append_assoc, List.cons_append]

/-- Whatever the parser and the settings are, a factory at the start of a line is exported by a line
of its own, and the macro is defined right before the first line that gets it. -/
theorem factory_exported_after_definition {m : LanguageModule} {config : Config} {s u : Session}
    {header : Header} {tail : Text} {factory : Factory}
    (h : Stage.start (extractHeader m config) s = (.ok header, u))
    (hf : m.HasFactory config s.disk tail factory) (hs : factory.StartsLine tail)
    (hid : Text.isIdentifier config.exportMacro.name.toList = true)
    (hne : config.exportMacro.name ≠ "extern") (hm : config.exportMacro.OnOneLine) :
    (∃ e, (⟨s!"{config.exportMacro.name} extern const TSLanguage *{factory.name}(void);".toList,
        some e⟩ : Line) ∈ Text.lines (config.languageAnnotator.annotate header.text).text) ∧
      1 ≤ (config.languageAnnotator.annotate header.text).prefixed ∧
      ((∀ l ∈ Text.lines header.text, ¬ Directive.isInclude l.content ∧
          ¬ config.languageAnnotator.definesMacro l.content) →
        ∃ before l after, config.languageAnnotator.DefinesFirst header.text
          (config.languageAnnotator.annotate header.text) before l after) := by
  obtain ⟨c, tail', path, newline, hf', hc, rfl⟩ := cut_of_extractHeader h
  obtain ⟨rfl, rfl⟩ := hf.unique hf'
  have hl := hc.mem_lines (hc.endsLine hs) m.name path newline
  have hd : config.languageAnnotator.Due (c.signature ++ [';']) :=
    Annotator.due_signature hc.signature.shape rfl hid hne
  obtain ⟨hline, hcount⟩ := Annotator.annotate_of_due (a := config.languageAnnotator) hm hl hd
  refine ⟨⟨newline, ?_⟩, hcount, ?_⟩
  · rw [exported_toList, Factory.Cut.factory, String.toList_ofList, ← hc.signature_eq]
    exact hline
  · intro hno
    exact Annotator.exists_definesFirst hid hm rfl (fun l hl => (hno l hl).1)
      (fun l hl => (hno l hl).2) hl hd

theorem factory_exported_after_definition_toy :
    ∃ (m : LanguageModule) (config : Config) (s u : Session) (header : Header) (tail : Text)
      (factory : Factory), Stage.start (extractHeader m config) s = (.ok header, u) ∧
      m.HasFactory config s.disk tail factory ∧ factory.StartsLine tail ∧
      Text.isIdentifier config.exportMacro.name.toList = true ∧
      config.exportMacro.name ≠ "extern" ∧ config.exportMacro.OnOneLine ∧
      (∃ e, (⟨s!"{config.exportMacro.name} extern const TSLanguage *{factory.name}(void);".toList,
        some e⟩ : Line) ∈ Text.lines (config.languageAnnotator.annotate header.text).text) ∧
      1 ≤ (config.languageAnnotator.annotate header.text).prefixed ∧
      ∃ before l after, config.languageAnnotator.DefinesFirst header.text
        (config.languageAnnotator.annotate header.text) before l after := by
  obtain ⟨m, hm⟩ : ∃ m : LanguageModule, m = ⟨"toy", ⟨"g"⟩, ⟨"g/src"⟩, [⟨"g/src/parser.c"⟩]⟩ :=
    ⟨_, rfl⟩
  obtain ⟨c, hc⟩ : ∃ c : Factory.Cut, c = ⟨"#ifdef __cplusplus\n".toList,
      "extern const TSLanguage *tree_sitter_toy(void)".toList, "tree_sitter_toy".toList,
      " \x7b\n  return &language;\n\x7d".toList, "\n#endif\n".toList⟩ := ⟨_, rfl⟩
  obtain ⟨tail, ht⟩ : ∃ t, t = c.front ++ (c.signature ++ (c.body ++ c.back)) := ⟨_, rfl⟩
  obtain ⟨d, hd⟩ : ∃ d : Disk, d = ⟨{ entries := [(["g"], .directory), (["g", "src"], .directory),
      (["g", "src", "parser.c"], .file (.text tail) false)] }, []⟩ := ⟨_, rfl⟩
  obtain ⟨header, hh⟩ : ∃ h, h = Header.synthesize "toy" ⟨"g/src/parser.c"⟩ (c.declarations .lf) .lf :=
    ⟨_, rfl⟩
  have hstart : Stage.start (extractHeader m {}) ⟨d, [], []⟩ = (.ok header,
      ⟨d, [Factory.foundLine "tree_sitter_toy" c.factory.span ⟨"g/src/parser.c"⟩], []⟩) := by
    subst hh hd ht hc hm
    decide +kernel
  have hfound : m.HasFactory {} d tail c.factory := by
    refine ⟨⟨"g/src/parser.c"⟩, tail, ⟨0, Text.size tail⟩, [], ?_⟩
    subst hd ht hc hm
    decide +kernel
  have hline : c.factory.StartsLine tail := by
    refine ⟨c.front, c.signature ++ (c.body ++ c.back), ?_, ?_⟩
    · subst ht
      exact Text.cutAt?_append _ _
    · subst hc
      exact Text.endsLine_append_ending "#ifdef __cplusplus".toList .lf
  have hno : ∀ l ∈ Text.lines header.text, ¬ Directive.isInclude l.content ∧
      ¬ ({} : Config).languageAnnotator.definesMacro l.content := by
    subst hh hc
    decide +kernel
  have hid : Text.isIdentifier ({} : Config).exportMacro.name.toList = true := by decide
  have hne : ({} : Config).exportMacro.name ≠ "extern" := by decide
  have hfields : ({} : Config).exportMacro.OnOneLine := by decide
  obtain ⟨hexport, hcount, hfirst⟩ :=
    factory_exported_after_definition hstart hfound hline hid hne hfields
  exact ⟨m, {}, _, _, header, tail, c.factory, hstart, hfound, hline, hid, hne, hfields,
    hexport, hcount, hfirst hno⟩

end GrammarHeaders
