import GrammarHeaders.Path
import GrammarHeaders.Text.Line

namespace GrammarHeaders

structure Header where
  moduleName : String
  sourcePath : Path
  text : Text
  deriving DecidableEq, Repr

namespace Header

def fileName (moduleName : String) : String := moduleName ++ ".h"

def outputPath (outputRoot : Path) (moduleName : String) : Path :=
  outputRoot / moduleName / fileName moduleName

def provenance (source : Path) : Text :=
  "//Generated from ".toList ++ source.text.toList.map fun c => if c = '\\' then '/' else c

def synthesize (moduleName : String) (source : Path) (declarations : Text) (newline : LineEnding) :
    Header :=
  ⟨moduleName, source, provenance source ++ newline.text ++ newline.text ++ declarations⟩

end Header

end GrammarHeaders
