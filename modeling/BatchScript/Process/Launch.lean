import BatchScript.Command
import BatchScript.Shell.Evaluation

/-!
# Launching processes

The dispatcher that runs each command as a process of its own. With a fixed program, the name and
the arguments of the command are the arguments of that program; without one the name is the
program. The process sees the exported variables, its input is empty, and of its output the blanks
at the end are dropped.
-/

namespace BatchScript

/-- How processes are launched. -/
structure Launcher where
  program : Option String := none
  workingDirectory : Option String := none
deriving DecidableEq, Repr

namespace Launcher

/-- The program and the arguments that a command is launched as. -/
def commandLine (launcher : Launcher) (name : String) (args : List String) :
    String × List String :=
  match launcher.program with
  | some program => (program, name :: args)
  | none => (name, args)

/-- The files as the process sees them: from the directory in which it is launched. -/
def enter (launcher : Launcher) (files : FileSystem) : Except IoFault FileSystem :=
  match launcher.workingDirectory with
  | none => .ok files
  | some path => do
    match ← files.resolve path with
    | (place, .directory) => .ok { files with workingDirectory := place }
    | _ => .error .notADirectory

/-- Whether a text can be handed to a process. -/
def isPlain (text : String) : Bool :=
  !text.toList.contains '\x00'

/-- Finds the program of a launch, and the files as it sees them. -/
def prepare (launcher : Launcher) (program : String) (args : List String)
    (environment : Environment) (files : FileSystem) : Except IoFault (Program × FileSystem) := do
  let texts := program :: args ++ launcher.workingDirectory.toList ++
    environment.exported.toList.flatMap fun (name, value) => [name, value]
  if !texts.all isPlain then .error .nulInCommand
  else
    let files ← launcher.enter files
    let path := (environment.forCommand.get? "PATH").getD Search.defaultPath
    match ← Search.find files path program with
    | "sh" => .ok (Shell.program, files)
    | name =>
      match Programs.named? name with
      | some program => .ok (program, files)
      | none => .error .notFound

/-- What came of a process that has ended. -/
def outcomeOf (completion : Completion) : Outcome :=
  let text (bytes : Bytes) : String := .ofList (Text.trimEnd (Bytes.toChars bytes))
  let output := text completion.output
  let errors := text completion.errors
  if completion.status = 0 then ⟨true, output, none⟩
  else
    ⟨false, output,
      some (if errors = "" then s!"exited with status {completion.status}" else errors)⟩

/-- Runs a command as a process. -/
def dispatch (launcher : Launcher) : Dispatcher Unit := fun name args environment world =>
  let (program, arguments) := launcher.commandLine name args
  match launcher.prepare program arguments environment world.files with
  | .error fault => (⟨false, "", some s!"failed to start '{program}': {fault.message}"⟩, world)
  | .ok (run, files) =>
    let completion :=
      run { arguments, environment := environment.forCommand, files, input := [] }
    let files :=
      { completion.files with workingDirectory := world.files.workingDirectory }
    (outcomeOf completion, { world with files })

end Launcher

end BatchScript
