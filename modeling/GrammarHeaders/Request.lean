import GrammarHeaders.Path

namespace GrammarHeaders

/-- What a generator needs to know to bind one module. -/
structure Request where
  module : String
  headers : List Path
  includeDir : Path
  outputDir : Path
  deriving DecidableEq, Repr

inductive Outcome where
  | generated
  | skipped
  deriving DecidableEq, Repr

/-- A program with the arguments it gets for every request, placeholders included. -/
structure ExternalProgram where
  program : Path
  args : List String
  deriving DecidableEq, Repr

namespace ExternalProgram

def headersPlaceholder : String := "\x7bheaders\x7d"

def defaultArgs : List String :=
  ["--module", "\x7bmodule\x7d", "--include", "\x7binclude\x7d", "--output", "\x7boutput\x7d",
   headersPlaceholder]

def configured (program : Path) (args : List String) : ExternalProgram :=
  ⟨program, if args.isEmpty then defaultArgs else args⟩

/-- Placeholders inside a longer argument are replaced one kind after the other, and the headers
are divided by commas. -/
def expandArg (r : Request) (arg : String) : List String :=
  let headers := r.headers.map Path.text
  if arg = headersPlaceholder then headers
  else
    let arg := replaceString arg "\x7bmodule\x7d" r.module
    let arg := replaceString arg "\x7binclude\x7d" r.includeDir.text
    let arg := replaceString arg "\x7boutput\x7d" r.outputDir.text
    [replaceString arg headersPlaceholder (",".intercalate headers)]

def expandArgs (p : ExternalProgram) (r : Request) : List String := p.args.flatMap (expandArg r)

def name (p : ExternalProgram) : String := p.program.fileName?.getD "generator"

end ExternalProgram

def displayCommand (program : Path) (args : List String) : String :=
  " ".intercalate (program.text :: args)

end GrammarHeaders
