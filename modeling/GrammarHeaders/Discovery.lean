import GrammarHeaders.Checkout
import GrammarHeaders.Session

namespace GrammarHeaders

def skipping (dir entry : Path) (cause : Cause) : LogLine :=
  .warn s!"skipping unreadable entry under {dir}: IO error for operation on {entry}: {cause.message}"

/-- The files below a directory that have one of the extensions, sorted. A directory that cannot
be read counts as empty, with a warning. -/
def findFiles {ε : Type} (dir : Path) (extensions : List String) (recursive : Bool) :
    Stage ε (List Path) := do
  let d ← Stage.disk
  match d.listFiles dir recursive with
  | .ok files =>
    if recursive then
      Stage.logAll ((d.unopened dir).map fun entry => skipping dir entry .nameTooLong)
    return files.filter fun file => hasExtension file extensions
  | .error cause =>
    Stage.log (skipping dir dir cause)
    return []

def moduleNameOf (d : Disk) (repo : Path) : String := ModuleName.ofDirectory (d.directoryName repo)

def checkedModuleName (repo : Path) : Stage LayoutFault String := do
  let name := moduleNameOf (← Stage.disk) repo
  if ModuleName.isIdentifierFragment name then return name else throw (.invalidModuleName repo)

def requireDir (dir : Path) : Stage LayoutFault Unit := do
  if !(← Stage.disk).isDir dir then throw (.directoryNotFound dir)

/-- Look at a grammar's checkout. Only the sources right in its source directory count. -/
def LanguageModule.discover (repo : Path) : Stage LayoutFault LanguageModule := do
  requireDir repo
  let name ← checkedModuleName repo
  let sourceDir := repo / "src"
  requireDir sourceDir
  let sourceFiles ← findFiles sourceDir sourceExtensions false
  if sourceFiles.isEmpty then throw (.sourceFilesNotFound sourceDir)
  return ⟨name, repo, sourceDir, sourceFiles⟩

/-- Look at the root library's checkout and all headers below its include directory. -/
def RootLibrary.discover (repo : Path) (layout : LayoutSettings) : Stage LayoutFault RootLibrary := do
  requireDir repo
  let name ← checkedModuleName repo
  let includeDir := repo.join layout.rootIncludeDir
  requireDir includeDir
  let headerFiles ← findFiles includeDir headerExtensions true
  if headerFiles.isEmpty then throw (.headersNotFound includeDir)
  return ⟨name, repo, includeDir, headerFiles⟩

end GrammarHeaders
