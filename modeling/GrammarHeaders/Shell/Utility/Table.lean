import GrammarHeaders.Shell.Utility.Columns
import GrammarHeaders.Shell.Utility.Copying
import GrammarHeaders.Shell.Utility.Expression
import GrammarHeaders.Shell.Utility.Find
import GrammarHeaders.Shell.Utility.Grep
import GrammarHeaders.Shell.Utility.Listing
import GrammarHeaders.Shell.Utility.Sed.Run
import GrammarHeaders.Shell.Utility.Sorting

namespace GrammarHeaders.Shell.Utility

/-- A utility, which may run other programs. -/
abbrev Action := Launch → List Bytes → Task Nat

def plain (f : List Bytes → Task Nat) : Action := fun _ args => f args

def wordTable : List (String × Action) :=
  [("[", plain bracketed), ("arch", plain (constant "x86_64")), ("basename", plain basename),
   ("dirname", plain dirname), ("echo", plain echo), ("expr", plain expr),
   ("false", plain fun _ => pure 1), ("id", plain id_), ("printf", plain printf), ("pwd", plain pwd),
   ("seq", plain seq), ("sleep", plain sleep), ("test", plain condition), ("true", plain fun _ => pure 0),
   ("uname", plain uname), ("whoami", plain (constant "root")), ("yes", plain yes)]

def fileTable : List (String × Action) :=
  [("chmod", plain chmod), ("cp", plain cp), ("install", plain install), ("ln", plain ln),
   ("ls", plain ls), ("mkdir", plain mkdir), ("mv", plain mv), ("readlink", plain readlink),
   ("realpath", plain realpath), ("rm", plain rm), ("rmdir", plain rmdir), ("sync", plain fun _ => pure 0),
   ("touch", plain touch)]

def lineTable : List (String × Action) :=
  [("cat", plain cat), ("cmp", plain cmp), ("comm", plain comm), ("cut", plain cut),
   ("egrep", plain (grepAs 'E')), ("fgrep", plain (grepAs 'F')), ("fold", plain fold),
   ("grep", plain grep), ("head", plain head), ("nl", plain nl), ("paste", plain paste), ("rev", plain rev),
   ("sed", plain sed), ("sort", plain sort), ("tac", plain tac), ("tail", plain tail), ("tee", plain tee),
   ("tr", plain tr), ("uniq", plain uniq), ("wc", plain wc)]

def runTable : List (String × Action) :=
  [("env", env), ("find", find), ("nice", nice), ("nohup", nohup), ("printenv", plain printenv),
   ("timeout", timeout), ("which", plain which), ("xargs", xargs)]

def table : List (String × Action) := wordTable ++ fileTable ++ lineTable ++ runTable

def run (launch : Launch) (name : String) (args : List Bytes) : StateM Host Ending := do
  match table.lookup name with
  | none => return .exit 127
  | some action => match ← (action launch args).run with
    | .ok status => return .exit status
    | .error ending => return ending

end GrammarHeaders.Shell.Utility
