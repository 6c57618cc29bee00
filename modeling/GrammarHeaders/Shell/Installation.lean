import GrammarHeaders.Shell.Program

namespace GrammarHeaders.Shell.Installation

def searchPath : String := "/usr/local/bin:/usr/bin:/bin"

def otherNames : List String :=
  ["apt", "apt-get", "chgrp", "chown", "df", "dpkg", "du", "gzip", "gunzip", "kill", "logger", "mount",
   "perl", "ps", "su", "tar", "umount", "zcat"]

def directories : List Location :=
  [["usr"], ["usr", "bin"], ["usr", "sbin"], ["usr", "lib"], ["usr", "local"], ["usr", "local", "bin"],
   ["usr", "share"], ["dev"], ["dev", "fd"], ["etc"], ["home"], ["opt"], ["proc"], ["root"], ["run"],
   ["srv"], ["sys"], ["tmp"], ["var"], ["var", "tmp"]]

def links : List (Location × String) :=
  [(["bin"], "usr/bin"), (["sbin"], "usr/sbin"), (["lib"], "usr/lib"), (["dev", "stdin"], "fd/0"),
   (["dev", "stdout"], "fd/1"), (["dev", "stderr"], "fd/2")]

def devices : List Device := [.null, .zero, .full] ++ (List.range 10).map .stream

def tree : Tree where
  entries :=
    directories.map (fun l => (l, .directory)) ++
    links.map (fun (l, target) => (l, .link target)) ++
    devices.map (fun d => (d.place, .device d)) ++
    (Program.names ++ otherNames).map fun name =>
      (["usr", "bin", name], .file (.program name) true)
  fits := by
    simp only [List.forall_mem_append, List.forall_mem_map]
    simp [Entry.FitsAt]

end GrammarHeaders.Shell.Installation
