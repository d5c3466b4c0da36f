import BatchScript.Fault
import BatchScript.Text.Blank

/-!
# Files

A file system as data: the entries of a directory tree by their absolute paths, and the directory
that relative paths start from. Paths are walked component by component: every component but the
last one must be a directory, `..` leaves a directory, and a slash at the end asks for a directory.
-/

namespace BatchScript

/-- What stands at a path: a directory, a file, a device that is empty and swallows writes, or a
program, which is no text. -/
inductive Entry where
  | directory
  | file (content : ByteArray)
  | sink
  | program (name : String)

/-- A place in the tree: the names on the way to it, innermost first. -/
abbrev Place := List String

/-- A directory tree and a working directory. The root always exists. -/
structure FileSystem where
  workingDirectory : Place
  entries : List (Place × Entry)

namespace FileSystem

/-! ## Entries -/

/-- What stands at a place. -/
def entryAt? (fs : FileSystem) (place : Place) : Option Entry :=
  if place = [] then some .directory
  else (fs.entries.find? (·.1 = place)).map (·.2)

/-- Puts an entry at a place, instead of what stood there. -/
def put (fs : FileSystem) (place : Place) (entry : Entry) : FileSystem :=
  { fs with entries := (place, entry) :: fs.entries.filter (·.1 ≠ place) }

/-! ## Walking -/

/-- The components of a path between its slashes, empty ones included. -/
def components (path : String) : List String :=
  (Text.pieces (· == '/') path.toList).map .ofList

/-- The place a path starts from. -/
def start (fs : FileSystem) (path : String) : Place :=
  if path.startsWith "/" then [] else fs.workingDirectory

/-- The place one component further. The walk must stand on a directory. -/
def step (fs : FileSystem) (place : Place) (component : String) : Except IoFault Place :=
  match fs.entryAt? place with
  | none => .error .notFound
  | some .directory =>
    if component = "" || component = "." then .ok place
    else if component = ".." then .ok place.tail
    else if 255 < component.utf8ByteSize then .error .nameTooLong
    else .ok (component :: place)
  | some _ => .error .notADirectory

/-- Refuses the paths that no file has. -/
def checkPath (path : String) : Except IoFault Unit :=
  if path.toList.contains '\x00' then .error .nulInPath
  else if path = "" then .error .notFound
  else if 4096 ≤ path.utf8ByteSize then .error .nameTooLong
  else .ok ()

/-- The place of a path, and what stands there. -/
def resolve (fs : FileSystem) (path : String) : Except IoFault (Place × Entry) := do
  checkPath path
  let place ← (components path).foldlM fs.step (fs.start path)
  match fs.entryAt? place with
  | some entry => .ok (place, entry)
  | none => .error .notFound

/-- Whether something stands at a path. -/
def pathExists (fs : FileSystem) (path : String) : Bool :=
  (fs.resolve path).isOk

/-! ## Reading -/

/-- The bytes of the file at a path. -/
def readBytes (fs : FileSystem) (path : String) : Except IoFault ByteArray := do
  match (← fs.resolve path).2 with
  | .directory => .error .isADirectory
  | .file content => .ok content
  | .sink => .ok .empty
  | .program _ => .ok ⟨#[0x7F, 0x45, 0x4C, 0x46, 0xFF]⟩

/-- The text of the file at a path. -/
def readText (fs : FileSystem) (path : String) : Except IoFault String := do
  match String.fromUTF8? (← fs.readBytes path) with
  | some text => .ok text
  | none => .error .invalidUtf8

/-! ## Writing -/

/-- The names of a path without the slashes at its end, last one first, and whether it ends with a
slash. -/
def namesFromEnd (path : String) : List String × Bool :=
  let names := (components path).reverse
  (names.dropWhile (· = ""), names.head? = some "")

/-- Writes bytes to the file at a path, creating it if its directory exists. A slash at the end asks
for a directory, which cannot be written to. -/
def writeBytes (fs : FileSystem) (path : String) (content : ByteArray) :
    Except IoFault FileSystem := do
  checkPath path
  match namesFromEnd path with
  | ([], _) => .error .isADirectory
  | (name :: parents, endsWithSlash) =>
    let parent ← parents.reverse.foldlM fs.step (fs.start path)
    let place ← fs.step parent name
    match fs.entryAt? place with
    | some .directory => .error .isADirectory
    | entry =>
      if endsWithSlash then .error .isADirectory
      else match entry with
        | some .sink => .ok fs
        | _ => .ok (fs.put place (.file content))

/-- Writes a text to the file at a path. -/
def writeText (fs : FileSystem) (path : String) (text : String) : Except IoFault FileSystem :=
  fs.writeBytes path text.toUTF8

/-! ## Directories -/

/-- The names of a path that count: empty components and `.` are passed over, except a `.` that
the path starts with. -/
def significant (path : String) : List String :=
  match components path with
  | [] => []
  | first :: rest =>
    let rest := rest.filter fun name => name ≠ "" && name ≠ "."
    if first = "" then rest else first :: rest

/-- Creates the directories that are missing on the way along the names, from a place that exists.
Directories that were created before a fault stay. What stands in the way of a directory that is to
be created last, or after others have been created, exists already. -/
def createAlong (fs : FileSystem) (place : Place) (created : Bool) :
    List String → Except IoFault Unit × FileSystem
  | [] => (.ok (), fs)
  | name :: rest =>
    match fs.step place name with
    | .error fault => (.error fault, fs)
    | .ok next =>
      match fs.entryAt? next with
      | some .directory => fs.createAlong next created rest
      | some _ => (.error (if created || rest = [] then .alreadyExists else .notADirectory), fs)
      | none => (fs.put next .directory).createAlong next true rest

/-- Creates the directory that a path lies in, with the directories on the way to it. -/
def createParents (fs : FileSystem) (path : String) : Except IoFault Unit × FileSystem :=
  if path.toList.contains '\x00' then (.error .nulInPath, fs)
  else fs.createAlong (fs.start path) false (significant path).dropLast

/-- Writes a text to the file at a path, in directories that are created where they are missing. -/
def writeTextAt (fs : FileSystem) (path text : String) : Except IoFault Unit × FileSystem :=
  match fs.createParents path with
  | (.error fault, fs) => (.error fault, fs)
  | (.ok (), fs) =>
    match fs.writeText path text with
    | .ok fs => (.ok (), fs)
    | .error fault => (.error fault, fs)

/-! ## Building -/

/-- The directories that every system has. -/
def commonDirectories : List String :=
  ["bin", "dev", "etc", "home", "lib", "opt", "proc", "root", "run", "sbin", "srv", "sys", "tmp",
    "usr", "var"]

/-- The programs that every system has. -/
def commonPrograms : List String :=
  ["sh", "echo", "cat", "true", "false", "printf", "printenv", "pwd", "sleep", "test", "["]

/-- A tree with the common directories and programs, a null device, and an empty working
directory. -/
def initial : FileSystem :=
  { workingDirectory := ["work", "tmp"]
    entries :=
      (["work", "tmp"], .directory) :: (["null", "dev"], .sink) :: (["bin", "usr"], .directory) ::
        commonDirectories.map (fun name => ([name], .directory)) ++
        commonPrograms.map (fun name => ([name, "bin"], .program name)) ++
        commonPrograms.map (fun name => ([name, "bin", "usr"], .program name)) }

/-- Puts an entry at a path below the working directory, creating the directories on the way. -/
def add (fs : FileSystem) (path : String) (entry : Entry) : FileSystem :=
  let names := significant path
  (fs.createAlong (fs.start path) false names.dropLast).2.put (names.reverse ++ fs.start path) entry

end FileSystem

end BatchScript
