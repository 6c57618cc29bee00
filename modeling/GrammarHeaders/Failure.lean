import GrammarHeaders.Cause
import GrammarHeaders.Diagnostic

namespace GrammarHeaders

/-- A checkout is not laid out as discovery expects. -/
inductive LayoutFault where
  | directoryNotFound (path : Path)
  | fileNotFound (path : Path)
  | headersNotFound (path : Path)
  | sourceFilesNotFound (path : Path)
  | librariesNotFound (path : Path)
  | invalidModuleName (path : Path)
  deriving DecidableEq, Repr

namespace LayoutFault

def path : LayoutFault → Path
  | directoryNotFound p | fileNotFound p | headersNotFound p | sourceFilesNotFound p
  | librariesNotFound p | invalidModuleName p => p

def message : LayoutFault → String
  | directoryNotFound p => s!"could not find directory `{p}`"
  | fileNotFound p => s!"could not find file `{p}`"
  | headersNotFound p => s!"could not find any C headers in `{p}`"
  | sourceFilesNotFound p => s!"could not find any C source files in `{p}`"
  | librariesNotFound p => s!"could not find any libraries in `{p}`"
  | invalidModuleName p => s!"`{p}` does not give a C identifier as module name"

def suggestion : LayoutFault → String
  | sourceFilesNotFound _ => Diagnostic.noSources
  | headersNotFound _ => Diagnostic.noHeaders
  | invalidModuleName _ => Diagnostic.renameRepository
  | _ => Diagnostic.checkPaths

end LayoutFault

/-- A file does not have the shape that the scan relies on. -/
inductive ShapeFault where
  | markerNotFound (marker : String) (file : Path)
  | factoryNotFound (expected : String) (file : Path)
  | factoryEndNotFound (expected : String) (file : Path)
  | factoryNameMismatch (expected found : String) (file : Path)
  /-- A pattern cannot be made of the prefix. No annotator comes to this, as a prefix is escaped before
  it goes into a pattern; only its wording is of use. -/
  | unusablePrefix (functionPrefix reason : String)
  deriving DecidableEq, Repr

namespace ShapeFault

def file? : ShapeFault → Option Path
  | markerNotFound _ f | factoryNotFound _ f | factoryEndNotFound _ f
  | factoryNameMismatch _ _ f => some f
  | unusablePrefix _ _ => none

def message : ShapeFault → String
  | markerNotFound marker file => s!"marker {marker} not found in `{file}`"
  | factoryNotFound expected file => s!"could not find `{expected}` in `{file}`"
  | factoryEndNotFound expected file => s!"could not find the end of `{expected}` in `{file}`"
  | factoryNameMismatch expected found file =>
    s!"expected `{expected}` in `{file}` but found `{found}`"
  | unusablePrefix functionPrefix reason =>
    s!"`{functionPrefix}` is not a usable function prefix: {reason}"

def context : ShapeFault → List String
  | factoryNameMismatch .. =>
    ["the repository directory name decides the expected factory name"]
  | unusablePrefix .. => []
  | _ => ["the parser was not emitted in the shape this tool understands"]

def suggestions : ShapeFault → List String
  | factoryNameMismatch .. => [Diagnostic.renameRepository, Diagnostic.allowMismatch]
  | unusablePrefix .. => []
  | _ => [Diagnostic.regenerateGrammar]

end ShapeFault

/-- What was done to a file when it failed. -/
inductive FileAction where
  | read
  | write
  | copy
  deriving DecidableEq, Repr

def FileAction.word : FileAction → String
  | read => "read"
  | write => "write"
  | copy => "copy"

/-- A failure of a stage. -/
inductive Failure where
  | layout (repo : Path) (fault : LayoutFault)
  | parserFileNotFound (fileName : String) (dir : Path)
  | shape (fault : ShapeFault)
  | createDirectory (path : Path) (cause : Cause)
  | createSmokeTestDirectory (path : Path) (cause : Cause)
  | file (action : FileAction) (path : Path) (cause : Cause)
  | bindingGeneration (module message : String)
  | rootRepoNotFound (path : Path)
  | missingGrammars
  | duplicateModule (module : String) (repo first : Path)
  | modulesFailed (failed total : Nat) (exitCode : Int)
  deriving DecidableEq, Repr

namespace Failure

def message : Failure → String
  | layout repo fault => s!"problem with the layout of `{repo}`: {fault.message}"
  | parserFileNotFound fileName dir => s!"could not find {fileName} in `{dir}`"
  | shape fault => fault.message
  | createDirectory path _ => s!"failed to create output directory `{path}`"
  | createSmokeTestDirectory path _ => s!"failed to create smoke-test directory `{path}`"
  | file action path _ => s!"failed to {action.word} `{path}`"
  | bindingGeneration module message => s!"binding generation failed for `{module}`: {message}"
  | rootRepoNotFound path => s!"failed to find the tree-sitter repository at `{path}`"
  | missingGrammars => "no grammar repositories were given"
  | duplicateModule module repo first =>
    s!"`{repo}` gives module name `{module}`, already taken by `{first}`"
  | modulesFailed failed total _ => s!"{failed} of {total} grammar modules failed"

def source? : Failure → Option String
  | layout _ fault => some fault.message
  | createDirectory _ cause | createSmokeTestDirectory _ cause | file _ _ cause =>
    some cause.message
  | _ => none

def exitCode : Failure → Int
  | layout .. | duplicateModule .. => 2
  | createDirectory .. => 3
  | bindingGeneration .. => 5
  | rootRepoNotFound _ => 7
  | missingGrammars => 8
  | parserFileNotFound .. => 9
  | shape (.factoryNameMismatch ..) => 12
  | shape _ => 10
  | createSmokeTestDirectory .. => 11
  | file .. => 1
  | modulesFailed _ _ code => code

def code : Failure → String
  | layout .. => "tsheader::path::layout"
  | parserFileNotFound .. => "tsheader::path::parser_missing"
  | shape _ => "tsheader::pattern::shape"
  | createDirectory .. => "tsheader::io::create_dir"
  | createSmokeTestDirectory .. => "tsheader::io::create_smoke_dir"
  | file .. => "tsheader::io"
  | bindingGeneration .. => "tsheader::bindings"
  | rootRepoNotFound _ => "tsheader::path::root_missing"
  | missingGrammars => "tsheader::path::no_grammars"
  | duplicateModule .. => "tsheader::path::duplicate_module"
  | modulesFailed .. => "tsheader::modules_failed"

def help? : Failure → Option String
  | parserFileNotFound .. => some
      "tree-sitter grammars keep their generated parser in src/; run `tree-sitter generate` first"
  | missingGrammars => some
      "pass at least one --grammar <dir>, e.g. a tree-sitter-python checkout"
  | _ => none

def diagnostic (failure : Failure) : Diagnostic :=
  let message := failure.message
  match failure with
  | layout _ fault => ⟨message, some fault.path, [], [fault.suggestion]⟩
  | parserFileNotFound _ dir => ⟨message, some dir, [], [Diagnostic.regenerateGrammar]⟩
  | shape fault => ⟨message, fault.file?, fault.context, fault.suggestions⟩
  | createDirectory path cause | createSmokeTestDirectory path cause | file _ path cause =>
    ⟨message, some path, [cause.message], []⟩
  | bindingGeneration .. => ⟨message, none, [], [Diagnostic.checkGenerator]⟩
  | rootRepoNotFound path => ⟨message, some path, [], [Diagnostic.checkPaths]⟩
  | missingGrammars => ⟨message, none, [], [Diagnostic.addGrammar]⟩
  | duplicateModule _ repo _ =>
    ⟨message, some repo, ["each module is written to its own <headers>/<module>/ directory"],
      [Diagnostic.renameRepository]⟩
  | modulesFailed .. => ⟨message, none, [], []⟩

end Failure

end GrammarHeaders
