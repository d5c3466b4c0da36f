import BatchScript.Process.Programs

/-!
# Finding programs

A name with a slash is the path of a program. Any other name is searched for in the directories of a
search path, from the left; what is there but cannot be run is passed over and remembered.
-/

namespace BatchScript.Search

/-- The search path of a process whose environment has none. -/
def defaultPath : String := "/bin:/usr/bin"

/-- The name of the program at a path. -/
def programAt (files : FileSystem) (path : String) : Except IoFault String := do
  match (← files.resolve path).2 with
  | .program name => .ok name
  | .directory | .file _ | .sink => .error .permissionDenied

/-- The path of a name in a directory of a search path, where the empty text is the working
directory. -/
def joined (directory name : String) : String :=
  if directory = "" then name else directory ++ "/" ++ name

/-- Searches directories from the left. -/
def inDirectories (files : FileSystem) (name : String) (failure : IoFault) :
    List String → Except IoFault String
  | [] => .error failure
  | directory :: rest =>
    match programAt files (joined directory name) with
    | .ok program => .ok program
    | .error .permissionDenied => inDirectories files name .permissionDenied rest
    | .error _ => inDirectories files name failure rest

/-- Finds the program that a name stands for. -/
def find (files : FileSystem) (path name : String) : Except IoFault String :=
  if name = "" then .error .notFound
  else if name.toList.contains '/' then programAt files name
  else inDirectories files name .notFound ((Text.pieces (· == ':') path.toList).map .ofList)

end BatchScript.Search
