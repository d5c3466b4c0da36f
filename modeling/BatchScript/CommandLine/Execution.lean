import BatchScript.CommandLine.Reader
import BatchScript.Explanation
import BatchScript.Process.Launch
import BatchScript.Report.Document
import BatchScript.Report.Summary
import BatchScript.Runner

/-!
# Carrying out a command line

What the program does with its arguments: it runs a script or checks one, and reports on it in words
or as a JSON document. It ends with the code zero only if the script was run, or checked, with
success. What carries out the commands of a script is given to it: a dispatcher for each launcher.
-/

namespace BatchScript

/-- What a command line has come to: the code, what was printed, and the files. -/
structure Ended where
  code : Nat
  transcript : Transcript
  files : FileSystem

/-- Adds a text and a line end to the output. -/
def Transcript.say (text : String) (transcript : Transcript) : Transcript :=
  { transcript with output := transcript.output.push text }

/-- Adds a text and a line end to the errors. -/
def Transcript.complain (text : String) (transcript : Transcript) : Transcript :=
  { transcript with errors := transcript.errors.push text }

/-- A failure with what was attempted and, behind it, its cause. A file fault is the cause of the
failure that reports it. -/
def Failure.during (attempt : String) (failure : Failure) : String :=
  let cause := match failure with
    | .io fault => ": " ++ fault.message
    | _ => ""
  s!"Error: {attempt}: {failure.message}" ++ cause

variable {σ : Type}

namespace CommandLine

/-- The code of an end with or without success. -/
def codeOf (success : Bool) : Nat :=
  if success then 0 else 1

/-- The code of a crash. -/
def crashCode : Nat := 101

/-! ## Checking -/

/-- A diagnostic as a JSON value. -/
def diagnosticJson (diagnostic : Diagnostic) : Json :=
  .ofFields [("line", .integer diagnostic.line), ("message", .string diagnostic.fault.message),
    ("severity", .string (match diagnostic.severity with
      | .error => "Error"
      | .warning => "Warning"))]

/-- The outcome of a check as a JSON document. -/
def checkDocument (file : String) (script : Script) (diagnostics : List Diagnostic) : String :=
  (Json.ofFields [("script", .string file), ("lines", .integer script.lines.length),
    ("valid", .bool (!Script.hasErrors diagnostics)),
    ("diagnostics", .array (diagnostics.map diagnosticJson))]).pretty

/-- The outcome of a check in words: the blocks of a valid script, and the diagnostics. -/
def checkText (script : Script) (diagnostics : List Diagnostic) : Except Failure (List String) := do
  let valid := !Script.hasErrors diagnostics
  let blocks ← if valid then Explanation.ofLines script.lines else .ok []
  let found := if diagnostics = [] then [] else
    "\nDiagnostics:" :: diagnostics.map fun diagnostic => "  - " ++ diagnostic.display
  .ok (blocks ++ found ++ if valid then ["\nOK"] else [])

/-- Checks the script in a file. -/
def check (file : String) (json : Bool) (files : FileSystem) : Ended :=
  let nothing : Transcript := {}
  match files.readText file with
  | .error fault =>
    ⟨1, nothing.complain ((Failure.io fault).during s!"failed to read {file}"), files⟩
  | .ok text =>
    let script := Script.parse text
    let diagnostics := script.validate {}
    let code := codeOf (!Script.hasErrors diagnostics)
    if json then ⟨code, nothing.say (checkDocument file script diagnostics), files⟩
    else
      let heading :=
        (nothing.say s!"Script: {file}").say s!"Lines:  {script.lines.length}\n"
      match checkText script diagnostics with
      | .ok lines => ⟨code, lines.foldl (fun shown line => shown.say line) heading, files⟩
      | .error failure => ⟨1, heading.complain ("Error: " ++ failure.message), files⟩

/-! ## Running -/

/-- The report of a run, and in words the variables after it if they are asked for. -/
def reportText (arguments : Arguments) (report : Report) (vars : Variables) : List String :=
  if arguments.json then [report.document]
  else report.summary :: if arguments.verbose then ["\n" ++ vars.display] else []

/-- The state in which the program starts to run a file. -/
def startOf (environment : Bindings) (world : World σ) : State σ where
  vars := .ofEnvironment (.ofProcess .process environment)
  world := world

/-- Runs the script in a file. -/
def run (arguments : Arguments) (file : String) (runner : Runner σ) (environment : Bindings)
    (world : World σ) : Ended :=
  let (result, after) := (runner.runFile file).apply (startOf environment world)
  match result with
  | .error (.crash crash) =>
    ⟨crashCode, after.transcript.complain crash.message, after.world.files⟩
  | .error failure =>
    ⟨1, after.transcript.complain (failure.during s!"failed to run {file}"), after.world.files⟩
  | .ok report =>
    let lines := reportText arguments report after.vars
    ⟨codeOf report.success, lines.foldl (fun shown line => shown.say line) after.transcript,
      after.world.files⟩

/-! ## All requests -/

/-- What is shown for a refused command line. -/
def refuse (refusal : Refusal) (files : FileSystem) : Ended :=
  let nothing : Transcript := {}
  let usage := "Usage: officebatch [OPTIONS] <run|check|help> ..."
  match refusal with
  | .showVersion => ⟨0, nothing.say "officebatch 0.4.0", files⟩
  | .showHelp => ⟨0, nothing.say usage, files⟩
  | _ => ⟨2, nothing.complain usage, files⟩

/-- The file that arguments ask to run, and the runner for it. There is none if they ask for a
check. -/
def runnerOf? (dispatch : Launcher → Dispatcher σ) (arguments : Arguments) (now : Instant) :
    Option (String × Runner σ) :=
  match arguments.request with
  | .check _ => none
  | .run file vars continueOnError logFile program maxLoopIterations =>
    some (file,
      { settings :=
          { dryRun := arguments.dryRun
            verbose := arguments.verbose
            continueOnError
            maxLoopIterations
            format := if arguments.json then .json else .human }
        dispatch := (dispatch { program }).untilCrash
        initial := Runner.assignments vars
        logFile
        now })

/-- Carries out a command line. -/
def execute (dispatch : Launcher → Dispatcher σ) (words : List String) (environment : Bindings)
    (world : World σ) (now : Instant) : Ended :=
  match read environment words with
  | .error refusal => refuse refusal world.files
  | .ok arguments =>
    match runnerOf? dispatch arguments now with
    | some (file, runner) => run arguments file runner environment world
    | none => check arguments.request.file arguments.json world.files

end CommandLine

end BatchScript
