import GrammarHeaders.Accessor
import GrammarHeaders.Discovery

namespace GrammarHeaders

/-- Totals of a pass. -/
structure PatchSummary where
  filesScanned : Nat := 0
  filesPatched : Nat := 0
  linesPatched : Nat := 0
  deriving DecidableEq, Repr

namespace PatchSummary

def add (a b : PatchSummary) : PatchSummary :=
  ⟨a.filesScanned + b.filesScanned, a.filesPatched + b.filesPatched, a.linesPatched + b.linesPatched⟩

end PatchSummary

def patchFile (path : Path) : Action PatchSummary := do
  let (updated, lines) ← Action.updateInPlace path fun t =>
    let patched := patchBindings t
    (patched.text, patched.patchedLines)
  if updated then
    Stage.log (.debug s!"patched {lines} line(s) in {path}")
  return ⟨1, if updated then 1 else 0, lines⟩

def patchFiles : List Path → Action PatchSummary
  | [] => return {}
  | file :: rest => do
    let first ← patchFile file
    return first.add (← patchFiles rest)

def patchDir (dir : Path) : Action PatchSummary := do
  patchFiles (← findFiles dir bindingExtensions true)

def patchPath (path : Path) : Action PatchSummary := do
  let d ← Stage.disk
  if d.isDir path then patchDir path
  else if d.isFile path then
    if !hasExtension path bindingExtensions then
      Stage.log (.warn s!"{path} is not a C# file, patching anyway")
    patchFile path
  else throw (.layout path (.fileNotFound path))

/-- Patch what a generator has left. If it has generated something its output directory must be
there; otherwise bindings that are there already are patched. -/
def patchGenerated (module : String) (outputDir : Path) (generated : Bool) : Action PatchSummary := do
  if (← Stage.disk).isDir outputDir then
    let summary ← patchDir outputDir
    Stage.log (.info (s!"patched {summary.linesPatched} line(s) in {summary.filesPatched} of " ++
      s!"{summary.filesScanned} binding file(s)"))
    return summary
  else if generated then
    throw (.bindingGeneration module s!"the generator did not create `{outputDir}`")
  else
    Stage.log (.debug s!"no bindings at {outputDir}, nothing to patch")
    return {}

end GrammarHeaders
