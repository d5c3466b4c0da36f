import BatchScript.Process.Search
import BatchScript.Shell.Command

/-!
# States of the shell

What the commands of a shell script act on: variables and positional parameters, the files, and the
bytes that were read and written.
-/

namespace BatchScript.Shell

/-- The state of a shell; `substituted` is the status of the last command in a word, and the script
may ask that a failure stops it. -/
structure Session where
  name : String
  arguments : List String
  vars : Bindings
  exported : List String
  status : Nat := 0
  substituted : Nat := 0
  stopsOnFailure : Bool := false
  files : FileSystem
  input : Bytes := []
  output : Bytes := []
  errors : Bytes := []
  exited : Bool := false

/-- Where bytes are written to. -/
inductive Target where
  | output
  | errors
  | file (place : Place)
  | nowhere

/-- Where the two output streams of a command go. -/
structure Streams where
  output : Target := .output
  errors : Target := .errors

/-- What the evaluation of commands rests on: the programs by name, and the evaluation of a script
that stands in a word. -/
structure Context where
  program? : String → Option Program
  script : List Char → Streams → Session → Session

namespace Session

/-- Writes bytes. -/
def write (target : Target) (bytes : Bytes) (session : Session) : Session :=
  match target with
  | .output => { session with output := session.output ++ bytes }
  | .errors => { session with errors := session.errors ++ bytes }
  | .file place =>
    match session.files.entryAt? place with
    | some (.file content) =>
      { session with files := session.files.put place (.file (content ++ ⟨bytes.toArray⟩)) }
    | _ => session
  | .nowhere => session

/-- Sets the status. -/
def finish (status : Nat) (session : Session) : Session :=
  { session with status }

/-- Reports a message for a line, and sets the status. -/
def report (streams : Streams) (line status : Nat) (message : String) (session : Session) :
    Session :=
  (session.write streams.errors
    (Bytes.ofString s!"{session.name}: {line}: {message}\n")).finish status

/-- Ends the script. -/
def exit (status : Nat) (session : Session) : Session :=
  { session with status := status % 256, exited := true }

/-- Sets a variable. -/
def assign (name value : String) (session : Session) : Session :=
  { session with vars := session.vars.insert name value }

/-- Marks a variable for the environment of programs. -/
def exportName (name : String) (session : Session) : Session :=
  if session.exported.contains name then session
  else { session with exported := name :: session.exported }

/-- The environment of programs. -/
def environment (session : Session) : Bindings :=
  .ofList (session.vars.toList.filter fun (name, _) => session.exported.contains name)

/-- What is left of a session when a part of it that ran in a shell of its own has ended. -/
def afterSubshell (session inner : Session) : Session :=
  { session with
    status := inner.status
    files := { inner.files with workingDirectory := session.files.workingDirectory }
    output := inner.output
    errors := inner.errors }

/-- Stops the script after a failure, if it asks for that. -/
def stopOnFailure (session : Session) : Session :=
  if session.stopsOnFailure && session.status ≠ 0 then { session with exited := true } else session

/-- The value of a parameter. -/
def parameter? (session : Session) (name : String) : Option String :=
  match name with
  | "0" => some session.name
  | "#" => some (toString session.arguments.length)
  | "?" => some (toString session.status)
  | "@" | "*" =>
    if session.arguments = [] then none else some (Text.joined " " session.arguments)
  | _ =>
    match name.toNat? with
    | some n => session.arguments[n - 1]?
    | none => session.vars.get? name

end Session

end BatchScript.Shell
