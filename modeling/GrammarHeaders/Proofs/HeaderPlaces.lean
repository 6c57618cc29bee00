import GrammarHeaders.Proofs.ExtractionFaults
import GrammarHeaders.Proofs.GrammarSources
import GrammarHeaders.Proofs.PatchedTrees
import GrammarHeaders.Proofs.Schedules
import GrammarHeaders.Proofs.PathsBelow

namespace GrammarHeaders

section Names

variable {c : Char} {t : Text} {n : String}

theorem ModuleName.mem_dropCheckoutMark (h : c ∈ t) (hc : c.toLower ∉ ['c', 'r', 's', '-']) :
    c ∈ dropCheckoutMark t := by
  fun_induction dropCheckoutMark t with
  | case1 x y z rest hmark ih =>
    simp only [List.mem_cons, not_or, List.not_mem_nil, not_false_eq_true, and_true] at hc
    simp only [List.mem_cons] at h
    obtain rfl | rfl | rfl | rfl | h := h
    · exact absurd hmark.1 hc.1
    · exact absurd hmark.2.1 hc.2.1
    · exact absurd hmark.2.2 hc.2.2.1
    · exact absurd (by decide) hc.2.2.2
    · exact ih h
  | case2 | case3 => exact h

theorem newline_not_mem_of_isFragment (h : IsFragment (ModuleName.ofDirectory n)) : '\n' ∉ n.toList := by
  intro hn
  have hkept : '\n' ∈ ModuleName.dropCheckoutMark n.toList.reverse :=
    ModuleName.mem_dropCheckoutMark (List.mem_reverse.mpr hn) (by decide)
  have hname : '\n' ∈ (ModuleName.ofDirectory n).toList := by
    rw [ModuleName.ofDirectory, String.toList_ofList]
    exact List.mem_map.mpr ⟨'\n', List.mem_reverse.mpr hkept, by decide⟩
  exact absurd (h.2 _ hname) (by decide)

theorem Factory.extractDeclarations_of_file {expected : String} {check : NameCheck} {file : Path} {out : Text}
    {log : List LogLine} (h : extractDeclarations t expected check file = .ok (out, log)) (file' : Path) :
    ∃ log', extractDeclarations t expected check file' = .ok (out, log') := by
  obtain ⟨fault, hfault⟩ | ⟨front, sig, name, after, ⟨tail, htail, hs⟩, he, hn⟩ :=
    exists_firstFault_or_extractable t expected check file
  · rw [hfault.extractDeclarations] at h
    cases h
  · obtain ⟨span, hspan⟩ := exists_extractDeclarations_of_hasTail htail file
    obtain ⟨span', hspan'⟩ := exists_extractDeclarations_of_hasTail htail file'
    obtain ⟨factory, hfactory⟩ := exists_locate_of_ending hs he
    rw [hspan, hfactory] at h
    rw [hspan', hfactory]
    by_cases hname : String.ofList name = expected
    · rw [if_pos hname] at h ⊢
      obtain ⟨rfl, -⟩ := Prod.mk.inj (Except.ok.inj h)
      exact ⟨_, rfl⟩
    · rw [if_neg hname] at h ⊢
      cases check with
      | strict => cases h
      | warn =>
        obtain ⟨rfl, -⟩ := Prod.mk.inj (Except.ok.inj h)
        exact ⟨_, rfl⟩

end Names

/-- A grammar that was discovered under a path that ends in a name. -/
structure FoundUnder (s : Session) (repo : Path) (n : String) (m : LanguageModule) (t : Session) : Prop where
  proper : s.disk.tree.Proper
  name : repo.fileName? = some n
  found : Stage.start (LanguageModule.discover repo) s = (.ok m, t)

def provenanceLine (n f : String) : Text :=
  "//Generated from ".toList ++ (n ++ "/src/" ++ f).toList.map fun c => if c = '\\' then '/' else c

section Places

variable {s t : Session} {repo : Path} {n f : String} {m : LanguageModule} {config : Config} {header : Header}

theorem isName_src : IsName "src" := by constructor <;> decide

theorem FoundUnder.module_name (h : FoundUnder s repo n m t) : m.name = ModuleName.ofDirectory n := by
  obtain ⟨-, -, -, rfl⟩ := LanguageModule.start_discover_eq_ok h.found
  show moduleNameOf s.disk repo = _
  rw [moduleNameOf, Disk.directoryName, h.name]

theorem FoundUnder.disk (h : FoundUnder s repo n m t) : t.disk = s.disk := by
  have hreads := LanguageModule.reads_discover repo s
  rwa [h.found] at hreads

theorem FoundUnder.isFragment (h : FoundUnder s repo n m t) : IsFragment (ModuleName.ofDirectory n) := by
  rw [← h.module_name]
  exact isIdentifierFragment_iff.mp (LanguageModule.name_of_discover h.found).2

theorem FoundUnder.provenance (h : FoundUnder s repo n m t) (hf : IsName f) :
    m.provenance (repo / "src" / f) = ⟨n ++ "/src/" ++ f⟩ := by
  have hn := Path.isName_of_fileName? h.name
  obtain ⟨-, -, -, rfl⟩ := LanguageModule.start_discover_eq_ok h.found
  rw [LanguageModule.provenance]
  dsimp only
  rw [Path.below?_div_div (by simp [h.name]) isName_src hf, h.name]
  have htext : n ++ "/" ++ ("src" ++ "/" ++ f) = n ++ "/src/" ++ f := by simp [← String.toList_inj]
  rw [← htext]
  exact Path.join_of_name hn (by simp [Path.isAbsolute])

theorem FoundUnder.start_extractHeader (h : FoundUnder s repo n m t) :
    (Stage.start (extractHeader m config) t).1 = .ok header ↔
      HasSource s.disk (repo / "src") config.layout.parserFile ∧
      ∃ source declarations,
        s.disk.readText (repo / "src" / config.layout.parserFile) = .ok source ∧
        (∀ file, ∃ lines, Factory.extractDeclarations source
          (ModuleName.factoryName (ModuleName.ofDirectory n)) config.nameCheck file = .ok (declarations, lines)) ∧
        header = Header.synthesize (ModuleName.ofDirectory n) ⟨n ++ "/src/" ++ config.layout.parserFile⟩
          declarations (LineEnding.detect source) := by
  constructor
  · intro hok
    obtain ⟨parser, source, declarations, lines, hparser, hread, hextract, rfl⟩ :=
      extractHeader_eq_ok (Prod.ext hok rfl)
    obtain ⟨hsource, rfl⟩ := (LanguageModule.parserFile_eq_ok_iff h.proper h.found).mp hparser
    rw [h.disk] at hread
    rw [LanguageModule.factoryName, h.module_name] at hextract
    refine ⟨hsource, source, declarations, hread, Factory.extractDeclarations_of_file hextract, ?_⟩
    rw [h.provenance (hsource.isName h.proper), h.module_name]
  · rintro ⟨hsource, source, declarations, hread, hextract, rfl⟩
    obtain ⟨lines, hlines⟩ := hextract (repo / "src" / config.layout.parserFile)
    have hparser := (LanguageModule.parserFile_eq_ok_iff h.proper h.found).mpr ⟨hsource, rfl⟩
    rw [← h.disk] at hread
    rw [← h.module_name] at hlines
    rw [start_extractHeader_of_read hparser hread hlines, h.provenance (hsource.isName h.proper), h.module_name]

theorem IsSourceName.exists_concat (h : IsSourceName f) : ∃ front c, f.toList = front ++ [c] ∧ c.toLower = 'c' := by
  obtain ⟨stem, ext, -, hf, hext⟩ := h
  obtain ⟨front, c, rfl, hc⟩ : ∃ front c, ext = front ++ [c] ∧ c.toLower = 'c' := by
    obtain hext | hext := hext
    · obtain ⟨c, rfl, hc⟩ := List.map_eq_singleton_iff.mp hext
      exact ⟨[], c, rfl, hc⟩
    · obtain ⟨x, rest, rfl, -, hrest⟩ := List.map_eq_cons_iff.mp hext
      obtain ⟨c, rfl, hc⟩ := List.map_eq_singleton_iff.mp hrest
      exact ⟨[x], c, rfl, hc⟩
  exact ⟨stem ++ '.' :: front, c, by simp [hf], hc⟩

theorem getLast?_provenanceLine (h : IsSourceName f) :
    ∃ c, (provenanceLine n f).getLast? = some c ∧ c.toLower = 'c' := by
  obtain ⟨front, c, hc, hlower⟩ := h.exists_concat
  have hback : c ≠ '\\' := by
    rintro rfl
    exact absurd hlower (by decide)
  have hpath : (n ++ "/src/" ++ f).toList = (n ++ "/src/").toList ++ front ++ [c] := by
    rw [String.toList_append, hc, List.append_assoc]
  have hkept : (if c = '\\' then '/' else c) = c := if_neg hback
  refine ⟨c, ?_, hlower⟩
  unfold provenanceLine
  rw [hpath, List.map_append, List.map_singleton, hkept, List.getLast?_append, List.getLast?_concat,
    Option.some_or]

theorem closed_provenanceLine (hn : '\n' ∉ n.toList) (hf : '\n' ∉ f.toList) (h : IsSourceName f)
    (e : LineEnding) : Line.Closed ⟨provenanceLine n f, some e⟩ := by
  refine ⟨?_, rfl, fun _ hlast => ?_⟩
  · show '\n' ∉ Header.provenance ⟨n ++ "/src/" ++ f⟩
    exact Factory.newline_not_mem_provenance (by simp [hn, hf])
  · obtain ⟨c, hc, hlower⟩ := getLast?_provenanceLine (n := n) h
    obtain rfl := Option.some.inj (hc.symm.trans hlast)
    exact absurd hlower (by decide)

theorem FoundUnder.first_line (h : FoundUnder s repo n m t) (hf : '\n' ∉ config.layout.parserFile.toList)
    (hok : (Stage.start (extractHeader m config) t).1 = .ok header) :
    (Text.lines header.text).head?.map Line.content = some (provenanceLine n config.layout.parserFile) := by
  obtain ⟨⟨_, _, _, hsource⟩, source, declarations, -, -, rfl⟩ := h.start_extractHeader.mp hok
  have hclosed := closed_provenanceLine (newline_not_mem_of_isFragment h.isFragment) hf hsource
    (LineEnding.detect source)
  have hlines := Text.lines_text_append hclosed ((LineEnding.detect source).text ++ declarations)
  rw [Line.text_of_terminator rfl, ← List.append_assoc] at hlines
  exact congrArg (fun lines => lines.head?.map Line.content) hlines

end Places

/-- The parsers of two checkouts are files in both or in neither of them, and by their paths the same text
is read in both, or none in either. -/
def SameParser (d₁ : Disk) (repo₁ : Path) (d₂ : Disk) (repo₂ : Path) (f : String) : Prop :=
  (HasSource d₁ (repo₁ / "src") f ↔ HasSource d₂ (repo₂ / "src") f) ∧
  (d₁.readText (repo₁ / "src" / f)).toOption = (d₂.readText (repo₂ / "src" / f)).toOption

section Pairs

variable {s₁ s₂ t₁ t₂ : Session} {repo₁ repo₂ : Path} {n : String} {m₁ m₂ : LanguageModule} {config : Config}

theorem SameParser.symm {d₁ d₂ : Disk} {f : String} (h : SameParser d₁ repo₁ d₂ repo₂ f) :
    SameParser d₂ repo₂ d₁ repo₁ f := ⟨h.1.symm, h.2.symm⟩

theorem SameParser.extractHeader_eq_ok {header : Header} (h₁ : FoundUnder s₁ repo₁ n m₁ t₁)
    (h₂ : FoundUnder s₂ repo₂ n m₂ t₂)
    (h : SameParser s₁.disk repo₁ s₂.disk repo₂ config.layout.parserFile)
    (hok : (Stage.start (extractHeader m₁ config) t₁).1 = .ok header) :
    (Stage.start (extractHeader m₂ config) t₂).1 = .ok header := by
  obtain ⟨hsource, source, declarations, hread, hextract⟩ := h₁.start_extractHeader.mp hok
  refine h₂.start_extractHeader.mpr ⟨h.1.mp hsource, source, declarations, ?_, hextract⟩
  have htext := h.2
  rw [hread] at htext
  cases hread₂ : s₂.disk.readText (repo₂ / "src" / config.layout.parserFile) with
  | error cause =>
    rw [hread₂] at htext
    cases htext
  | ok text =>
    rw [hread₂] at htext
    rw [Option.some.inj htext]

/-- Two checkouts of one name with the same parser give the same header or none, wherever they are and
however their paths are written. The header starts with the line that names the parser. -/
theorem same_header_anywhere (config : Config) (h₁ : FoundUnder s₁ repo₁ n m₁ t₁) (h₂ : FoundUnder s₂ repo₂ n m₂ t₂)
    (hf : '\n' ∉ config.layout.parserFile.toList)
    (h : SameParser s₁.disk repo₁ s₂.disk repo₂ config.layout.parserFile) :
    (∀ header, (Stage.start (extractHeader m₁ config) t₁).1 = .ok header ↔
      (Stage.start (extractHeader m₂ config) t₂).1 = .ok header) ∧
    ∀ header, (Stage.start (extractHeader m₁ config) t₁).1 = .ok header →
      header.moduleName = ModuleName.ofDirectory n ∧
      (Text.lines header.text).head?.map Line.content =
        some (provenanceLine n config.layout.parserFile) := by
  refine ⟨fun header => ⟨h.extractHeader_eq_ok h₁ h₂, h.symm.extractHeader_eq_ok h₂ h₁⟩,
    fun header hok => ⟨?_, h₁.first_line hf hok⟩⟩
  obtain ⟨-, source, declarations, -, -, rfl⟩ := h₁.start_extractHeader.mp hok
  rfl

end Pairs

theorem FoundUnder.of_result {s : Session} {repo : Path} {n : String} {m : LanguageModule}
    (hs : s.disk.tree.Proper) (hn : repo.fileName? = some n)
    (h : (Stage.start (LanguageModule.discover repo) s).1 = .ok m) :
    FoundUnder s repo n m (Stage.start (LanguageModule.discover repo) s).2 := ⟨hs, hn, Prod.ext h rfl⟩

theorem exists_ok_of_isOk {ε α : Type} {result : Except ε α} (h : result.isOk = true) :
    ∃ a, result = .ok a := by
  cases result with
  | error e => cases h
  | ok a => exact ⟨a, rfl⟩

def movedDisk : Disk where
  tree.entries := [(["w"], .directory), (["w", "j"], .directory), (["w", "j", "src"], .directory),
    (["w", "j", "src", "parser.c"], .file (toyParser "tree_sitter_j") true)]

theorem isSourceName_toy : IsSourceName "parser.c" :=
  ⟨"parser".toList, ['c'], by decide, by decide, .inl (by decide)⟩

theorem same_header_anywhere_moved :
    let found := Stage.start (LanguageModule.discover ⟨"j"⟩) ⟨toyDisk, [], []⟩
    let foundMoved := Stage.start (LanguageModule.discover ⟨"/w/./j/"⟩) ⟨movedDisk, [], []⟩
    ∃ m m' header, FoundUnder ⟨toyDisk, [], []⟩ ⟨"j"⟩ "j" m found.2 ∧
      FoundUnder ⟨movedDisk, [], []⟩ ⟨"/w/./j/"⟩ "j" m' foundMoved.2 ∧
      SameParser toyDisk ⟨"j"⟩ movedDisk ⟨"/w/./j/"⟩ "parser.c" ∧
      (Stage.start (extractHeader m {}) found.2).1 = .ok header ∧
      (Stage.start (extractHeader m' {}) foundMoved.2).1 = .ok header ∧ header.moduleName = "j" ∧
      (Text.lines header.text).head?.map Line.content = some "//Generated from j/src/parser.c".toList := by
  have hfound : FoundUnder ⟨toyDisk, [], []⟩ ⟨"j"⟩ "j"
      ⟨"j", ⟨"j"⟩, ⟨"j/src"⟩, [⟨"j/src/parser.c"⟩]⟩ _ :=
    .of_result regular_toyDisk.tree.proper (by decide) (by decide +kernel)
  have hmoved : FoundUnder ⟨movedDisk, [], []⟩ ⟨"/w/./j/"⟩ "j"
      ⟨"j", ⟨"/w/./j/"⟩, ⟨"/w/./j/src"⟩, [⟨"/w/./j/src/parser.c"⟩]⟩ _ :=
    .of_result (.of_entries (by decide +kernel) (by decide +kernel)) (by decide) (by decide +kernel)
  have hsame : SameParser toyDisk ⟨"j"⟩ movedDisk ⟨"/w/./j/"⟩ "parser.c" := by
    refine ⟨iff_of_true ?_ ?_, by decide +kernel⟩
    · exact ⟨["j", "src"], by decide +kernel, ⟨_, _, rfl⟩, isSourceName_toy⟩
    · exact ⟨["w", "j", "src"], by decide +kernel, ⟨_, _, rfl⟩, isSourceName_toy⟩
  have hok : (Stage.start (extractHeader ⟨"j", ⟨"j"⟩, ⟨"j/src"⟩, [⟨"j/src/parser.c"⟩]⟩ {})
      (Stage.start (LanguageModule.discover ⟨"j"⟩) ⟨toyDisk, [], []⟩).2).1.isOk = true := by
    decide +kernel
  obtain ⟨header, hheader⟩ := exists_ok_of_isOk hok
  obtain ⟨hiff, hline⟩ := same_header_anywhere {} hfound hmoved (by decide) hsame
  obtain ⟨hname, hfirst⟩ := hline header hheader
  exact ⟨_, _, header, hfound, hmoved, hsame, hheader, (hiff header).mp hheader, hname.trans (by decide),
    hfirst.trans (by decide)⟩

/-- The parsers of two checkouts give the same text when they are read by their paths. -/
def ReadAlike (d₁ : Disk) (repo₁ : Path) (d₂ : Disk) (repo₂ : Path) (f : String) : Prop :=
  ∃ text, d₁.readText (repo₁ / "src" / f) = .ok text ∧ d₂.readText (repo₂ / "src" / f) = .ok text

/-- The parsers of two checkouts are files with the same content. -/
def StoredAlike (d₁ : Disk) (repo₁ : Path) (d₂ : Disk) (repo₂ : Path) (f : String) : Prop :=
  ∃ l₁ l₂ content x₁ x₂, d₁.resolve (repo₁ / "src").text true = .ok (.taken l₁ .directory) ∧
    d₂.resolve (repo₂ / "src").text true = .ok (.taken l₂ .directory) ∧
    d₁.tree.get? (l₁ ++ [f]) = some (.file content x₁) ∧
    d₂.tree.get? (l₂ ++ [f]) = some (.file content x₂)

/-- Of two checkouts of one name whose parsers are alike, both give a header or neither does. -/
def HeadersAgree (Alike : Disk → Path → Disk → Path → String → Prop) : Prop :=
  ∀ (s₁ s₂ t₁ t₂ : Session) (repo₁ repo₂ : Path) (n : String) (m₁ m₂ : LanguageModule) (config : Config),
    FoundUnder s₁ repo₁ n m₁ t₁ → FoundUnder s₂ repo₂ n m₂ t₂ →
    '\n' ∉ config.layout.parserFile.toList →
    Alike s₁.disk repo₁ s₂.disk repo₂ config.layout.parserFile →
    ((∃ header, (Stage.start (extractHeader m₁ config) t₁).1 = .ok header) ↔
      ∃ header, (Stage.start (extractHeader m₂ config) t₂).1 = .ok header)

def sharedDisk : Disk where
  tree.entries := [(["x"], .directory), (["x", "j"], .directory), (["x", "j", "src"], .directory),
    (["x", "j", "src", "parser.c"], .file (toyParser "tree_sitter_j") false),
    (["y"], .directory), (["y", "j"], .directory), (["y", "j", "src"], .directory),
    (["y", "j", "src", "parser.c"], .link "../../../x/j/src/parser.c"),
    (["y", "j", "src", "scanner.c"], .file (.text []) false)]

theorem not_headersAgree_readAlike : ¬ HeadersAgree ReadAlike := by
  -- a link is no source, so that no header is made of what it leads to
  intro hall
  have hproper : sharedDisk.tree.Proper := .of_entries (by decide +kernel) (by decide +kernel)
  have hfile : FoundUnder ⟨sharedDisk, [], []⟩ ⟨"x/j"⟩ "j"
      ⟨"j", ⟨"x/j"⟩, ⟨"x/j/src"⟩, [⟨"x/j/src/parser.c"⟩]⟩ _ :=
    .of_result hproper (by decide) (by decide +kernel)
  have hlink : FoundUnder ⟨sharedDisk, [], []⟩ ⟨"y/j"⟩ "j"
      ⟨"j", ⟨"y/j"⟩, ⟨"y/j/src"⟩, [⟨"y/j/src/scanner.c"⟩]⟩ _ :=
    .of_result hproper (by decide) (by decide +kernel)
  have halike : ReadAlike sharedDisk ⟨"x/j"⟩ sharedDisk ⟨"y/j"⟩ "parser.c" := by
    obtain ⟨text, htext⟩ : ∃ text, sharedDisk.readText ⟨"x/j/src/parser.c"⟩ = .ok text :=
      exists_ok_of_isOk (by decide +kernel)
    have hlinked : sharedDisk.readText ⟨"y/j/src/parser.c"⟩ = sharedDisk.readText ⟨"x/j/src/parser.c"⟩ := by
      decide +kernel
    exact ⟨text, htext, hlinked.trans htext⟩
  have hok : (Stage.start (extractHeader ⟨"j", ⟨"x/j"⟩, ⟨"x/j/src"⟩, [⟨"x/j/src/parser.c"⟩]⟩ {})
      (Stage.start (LanguageModule.discover ⟨"x/j"⟩) ⟨sharedDisk, [], []⟩).2).1.isOk = true := by
    decide +kernel
  obtain ⟨header, hheader⟩ := (hall _ _ _ _ _ _ _ _ _ {} hfile hlink (by decide) halike).mp
    (exists_ok_of_isOk hok)
  obtain ⟨⟨l, hl, ⟨content, executable, hget⟩, -⟩, -⟩ := hlink.start_extractHeader.mp hheader
  have hdir : sharedDisk.resolve "y/j/src" true = .ok (.taken ["y", "j", "src"] .directory) := by
    decide +kernel
  obtain ⟨rfl, -⟩ := Disk.Place.taken.inj (Except.ok.inj (hdir.symm.trans hl))
  cases hget

def pointedDisk : Disk where
  tree.entries := [(["b"], .directory), (["b", "src"], .directory),
    (["b", "src", "parser.c"], .file (toyParser "tree_sitter_b") false)]

theorem regular_pointedDisk : pointedDisk.Regular :=
  ⟨.of_entries (by decide +kernel) (by decide +kernel), rfl⟩

section Pointed

variable {k : Nat}

theorem fileName?_pointed (k : Nat) : (⟨pointed k⟩ : Path).fileName? = some "b" := by
  obtain ⟨points, hpieces, hidle⟩ : ∃ points, (⟨pointed k⟩ : Path).pieces = "b" :: points ∧
      ∀ piece ∈ points, Path.isIdle piece = true := by
    induction k with
    | zero => exact ⟨[], by decide, nofun⟩
    | succ k ih =>
      obtain ⟨points, hpieces, hidle⟩ := ih
      have hpoint : (⟨"."⟩ : Path).pieces = ["."] := by decide
      refine ⟨points ++ ["."], by rw [pointed, Path.pieces_append, hpieces, hpoint, List.cons_append], ?_⟩
      simpa [or_imp, forall_and] using ⟨hidle, (by decide : Path.isIdle "." = true)⟩
  rw [Path.fileName?, Path.components_of_pieces hpieces (.inl (by decide)), Path.innerComponents_of_idle hidle]
  decide

theorem isDir_src_pointed (hk : 2 * k + 5 < Disk.pathLimit) :
    pointedDisk.isDir ((⟨pointed k⟩ : Path) / "src") = true := by
  have hcwd : pointedDisk.cwd = [] := rfl
  have hdest : (⟨pointed k⟩ : Path).destination [] = ["b"] := destination_pointed k
  have hentered : (⟨pointed k⟩ : Path).entered [] = [["b"]] := by
    rw [Path.entered, trail_pointed, Disk.startOf, ite_self]
    rfl
  refine (Disk.isDir_iff regular_pointedDisk).mpr ⟨?_, ?_, ?_⟩
  · have hsize : "/".utf8ByteSize = 1 ∧ "src".utf8ByteSize = 3 := by decide
    rw [pointed_div isName_src, Disk.pathFault?_eq_none]
    dsimp only
    refine ⟨fun hzero => ?_, fun hempty => ?_, ?_⟩
    · simp only [String.toList_append, List.mem_append] at hzero
      obtain (hzero | hzero) | hzero := hzero
      · exact absurd (toList_pointed k _ hzero) (by decide)
      · exact absurd hzero (by decide)
      · exact absurd hzero (by decide)
    · simpa using congrArg String.toList hempty
    · rw [String.utf8ByteSize_append, String.utf8ByteSize_append, utf8ByteSize_pointed, hsize.1, hsize.2]
      omega
  · rw [Path.trail_div isName_src, trail_pointed]
    intro n hn
    obtain rfl | rfl : n = "b" ∨ n = "src" := by simpa using hn
    all_goals exact .inr (.inr (by decide))
  · rw [hcwd, Path.entered_div isName_src, hentered, hdest]
    decide

theorem resolve_src_pointed (hk : 2 * k + 5 < Disk.pathLimit) :
    pointedDisk.resolve ((⟨pointed k⟩ : Path) / "src").text true = .ok (.taken ["b", "src"] .directory) := by
  obtain ⟨l, hl⟩ := Disk.isDir_eq_true_iff.mp (isDir_src_pointed hk)
  obtain ⟨rfl, -⟩ := Disk.resolve_taken regular_pointedDisk hl
  have hdest : (⟨pointed k⟩ : Path).destination pointedDisk.cwd = ["b"] := destination_pointed k
  rwa [Path.destination_div isName_src, hdest] at hl

theorem readText_pointed (hlong : Disk.pathLimit ≤ 2 * k + 14) :
    ∃ cause, pointedDisk.readText ((⟨pointed k⟩ : Path) / "src" / "parser.c") = .error cause := by
  have hsize : "/".utf8ByteSize = 1 ∧ "src".utf8ByteSize = 3 ∧ "parser.c".utf8ByteSize = 8 := by decide
  cases hf : Disk.pathFault? ((⟨pointed k⟩ : Path) / "src" / "parser.c").text with
  | some cause =>
    exact ⟨cause, by rw [Disk.readText, Disk.readContent, Disk.entryAt, Disk.resolve_of_fault hf]⟩
  | none =>
    have hshort := (Disk.pathFault?_eq_none.mp hf).2.2
    rw [Path.div_div isName_src (by constructor <;> decide), pointed_div isName_src] at hshort
    simp only [String.utf8ByteSize_append, utf8ByteSize_pointed, hsize] at hshort
    omega

end Pointed

theorem not_headersAgree_storedAlike : ¬ HeadersAgree StoredAlike := by
  intro hall
  have hk : 2 * 2044 + 5 < Disk.pathLimit := by decide
  have hplain : FoundUnder ⟨pointedDisk, [], []⟩ ⟨"b"⟩ "b"
      ⟨"b", ⟨"b"⟩, ⟨"b/src"⟩, [⟨"b/src/parser.c"⟩]⟩ _ :=
    .of_result regular_pointedDisk.tree.proper (by decide) (by decide +kernel)
  have hname : moduleNameOf pointedDisk ⟨pointed 2044⟩ = "b" := by
    rw [moduleNameOf, Disk.directoryName, fileName?_pointed]
    decide
  have hgrammar : IsGrammar pointedDisk ⟨pointed 2044⟩ := by
    refine ⟨Disk.isDir_pointed regular_pointedDisk rfl (by decide) (by decide), ?_, isDir_src_pointed hk,
      "parser.c", (hasSource_iff (resolve_src_pointed hk)).mpr ⟨⟨_, _, rfl⟩, isSourceName_toy⟩⟩
    rw [hname]
    exact isIdentifierFragment_iff.mp (by decide)
  obtain ⟨m, t, hfound⟩ := LanguageModule.start_discover_of_isGrammar (s := ⟨pointedDisk, [], []⟩)
    regular_pointedDisk.tree.proper hgrammar
  have hpointed : FoundUnder ⟨pointedDisk, [], []⟩ ⟨pointed 2044⟩ "b" m t :=
    ⟨regular_pointedDisk.tree.proper, fileName?_pointed 2044, hfound⟩
  have halike : StoredAlike pointedDisk ⟨"b"⟩ pointedDisk ⟨pointed 2044⟩ "parser.c" :=
    ⟨["b", "src"], ["b", "src"], _, _, _, by decide +kernel, resolve_src_pointed hk, rfl, rfl⟩
  have hok : (Stage.start (extractHeader ⟨"b", ⟨"b"⟩, ⟨"b/src"⟩, [⟨"b/src/parser.c"⟩]⟩ {})
      (Stage.start (LanguageModule.discover ⟨"b"⟩) ⟨pointedDisk, [], []⟩).2).1.isOk = true := by
    decide +kernel
  obtain ⟨header, hheader⟩ := (hall _ _ _ _ _ _ _ _ _ {} hplain hpointed (by decide) halike).mp
    (exists_ok_of_isOk hok)
  obtain ⟨-, source, declarations, hread, -⟩ := hpointed.start_extractHeader.mp hheader
  obtain ⟨cause, hcause⟩ := readText_pointed (k := 2044) (by decide)
  cases hcause.symm.trans hread

/-- It is not enough that two parsers have the same contents: one of them may be a link, and the path
of one may be too long to read it by. -/
theorem places_show_by_links_and_long_paths : ¬ HeadersAgree ReadAlike ∧ ¬ HeadersAgree StoredAlike :=
  ⟨not_headersAgree_readAlike, not_headersAgree_storedAlike⟩

end GrammarHeaders
