import GrammarHeaders.Shell.Image
import GrammarHeaders.Shell.State

namespace GrammarHeaders.Shell.Lookup

def defaultPath : Bytes := "/usr/local/sbin:/usr/local/bin:/usr/sbin:/usr/bin:/sbin:/bin".toList

/-- The first file that can be run, with the files behind it; or the last cause for which one was
passed over, if that is not just that it is missing. -/
def choose (d : Disk) (last : Cause) : List Bytes → Except Cause (List Bytes)
  | [] => .error last
  | path :: rest => match d.entryAt (Host.pathOf path) true with
    | .ok (_, .file _ true) => .ok (path :: rest)
    | .ok _ => choose d .permissionDenied rest
    | .error cause => choose d (if Image.isMissing cause then last else cause) rest

def candidates (path name : Bytes) : List Bytes :=
  (Image.searchDirs path).map fun dir => Image.inDir dir name

def search (d : Disk) (path name : Bytes) : Except Cause (List Bytes) :=
  choose d .notFound (candidates path name)

def file? (d : Disk) (path name : Bytes) : Option Bytes :=
  match search d path name with
  | .ok paths => paths.head?
  | .error _ => none

def pathValue : Run Bytes := return (← Run.value? "PATH".toList).getD []

end GrammarHeaders.Shell.Lookup
