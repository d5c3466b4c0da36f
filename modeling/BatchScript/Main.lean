import BatchScript.CommandLine.Execution
import Std.Time.DateTime.Timestamp

/-!
# Program

The command line program: it loads the files below the working directory and those that the
arguments name, carries out the command line on them, prints what that has printed, and writes
back the files that it has changed.
-/

namespace BatchScript.Main

/-- How many directories deep files are loaded. -/
def loadDepth : Nat := 8

/-- The names on the way to a path, innermost first. -/
def placeOf (path : String) : Place :=
  (FileSystem.significant path).reverse

/-- Loads one file. -/
def loadFile (path : String) (files : FileSystem) : IO FileSystem := do
  try
    return files.put (placeOf path) (.file (← IO.FS.readBinFile path))
  catch _ => return files

/-- Loads what is in a directory. -/
def loadDirectory (path : String) (depth : Nat) (files : FileSystem) : IO FileSystem := do
  match depth with
  | 0 => return files
  | depth + 1 =>
    let mut files := files.put (placeOf path) .directory
    for entry in ← (← IO.FS.realPath path).readDir do
      let name := path ++ "/" ++ entry.fileName
      if ← entry.path.isDir then files ← loadDirectory name depth files
      else files ← loadFile name files
    return files

/-- Loads the files that a command line may use. -/
def load (here : String) (words : List String) : IO FileSystem := do
  let mut files := { FileSystem.initial with workingDirectory := placeOf here }
  for name in FileSystem.significant here do
    files := files.put (placeOf name) .directory
  files ← loadDirectory here loadDepth files
  for word in words do
    if word.startsWith "/" then files ← loadFile word files
  return files

/-- The variables of the process. -/
def environment : IO Bindings := do
  let content ← IO.FS.readBinFile "/proc/self/environ"
  let texts := Text.pieces (· == '\x00') (Bytes.toChars content.toList)
  return .ofList (texts.filterMap fun text =>
    (Directive.cutAtEquals text).map fun (name, value) => (.ofList name, .ofList value))

/-- The time. -/
def now : IO Instant := do
  let timestamp ← Std.Time.Timestamp.now
  let nanoseconds := timestamp.toNanosecondsSinceUnixEpoch.toInt
  return ⟨nanoseconds.fdiv 1000000000, (nanoseconds.fmod 1000000000).toNat⟩

/-- Writes back what has changed. -/
def store (before after : FileSystem) : IO Unit := do
  for (place, entry) in after.entries.reverse do
    let path := Programs.pathOf place
    match entry, before.entryAt? place with
    | .directory, none => IO.FS.createDirAll path
    | .file content, some (.file old) =>
      if content != old then IO.FS.writeBinFile path content
    | .file content, none => IO.FS.writeBinFile path content
    | _, _ => pure ()

end BatchScript.Main

/-- Carries out the command line. -/
def main (words : List String) : IO UInt32 := do
  let here := (← IO.currentDir).toString
  let before ← BatchScript.Main.load here words
  let ended := BatchScript.CommandLine.execute BatchScript.Launcher.dispatch words
    (← BatchScript.Main.environment) ⟨before, ()⟩ (← BatchScript.Main.now)
  for line in ended.transcript.output do
    IO.println line
  for line in ended.transcript.errors do
    IO.eprintln line
  BatchScript.Main.store before ended.files
  return ended.code.toUInt32
