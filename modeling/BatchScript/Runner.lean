import BatchScript.Execution.Segment
import BatchScript.Preview
import BatchScript.Report.ExecutionLog
import BatchScript.Validation

/-!
# Runners

A runner runs whole scripts, one after the other, on variables and a world that they share. A
script is checked first, and one with errors is refused. Then the variables that the runner was
given are set, the lines run, or are only listed in a dry run, and the log is written. A failure
on the way through the lines ends the run early but is part of the report, so nothing that was
recorded is lost. Only a crash of the program leaves no report.
-/

namespace BatchScript

variable {σ : Type}

/-- What scripts are run by. -/
structure Runner (σ : Type) extends Interpreter σ where
  limits : Limits := {}
  initial : List (String × String) := []
  logFile : Option String := none
  now : Instant := .epoch

namespace State

/-- The state in which a script starts: the variables and the world are kept. -/
def fresh (state : State σ) : State σ :=
  { vars := state.vars, world := state.world }

/-- Prints diagnostics to the error stream. -/
def warn (diagnostics : List Diagnostic) (state : State σ) : State σ :=
  { state with
    transcript := { state.transcript with
      errors := state.transcript.errors ++ (diagnostics.map (·.display)).toArray } }

/-- Prints lines to the output stream. -/
def printAll (lines : List String) (state : State σ) : State σ :=
  { state with
    transcript := { state.transcript with output := state.transcript.output ++ lines.toArray } }

/-- The number of results that are failures. -/
def failed (state : State σ) : Nat :=
  state.results.toList.countP (!·.success)

end State

namespace Runner

variable (runner : Runner σ)

/-- The variables that texts of the form `NAME=VALUE` give. A text without an equals sign gives
none. -/
def assignments (texts : List String) : List (String × String) :=
  texts.filterMap fun text =>
    (Directive.cutAtEquals text.toList).map fun (name, value) =>
      (.ofList (Text.trim name), .ofList value)

/-- Sets variables one after the other, up to the first that is refused. -/
def setAll : List (String × String) → Run σ Unit
  | [] => return ()
  | (name, value) :: rest => do
    match (← Run.get).vars.set name value with
    | .error fault => .fail (.variable fault)
    | .ok vars =>
      Run.modify fun state => { state with vars }
      setAll rest

/-! ## Running and listing -/

/-- The report of a run of lines: the run is a success if it went to the end without a failure that
nothing has caught. -/
def reportOf (name : String) (outcome : Except Failure Flow) (state : State σ) : Report where
  script := name
  success := outcome matches .ok .completed && state.uncaught = 0
  executed := state.results.size
  skipped := state.skipped
  failed := state.failed
  milliseconds := 0
  startedAt := runner.now
  finishedAt := runner.now
  dryRun := false
  error := match outcome with
    | .ok _ => none
    | .error failure => some failure.message
  log := state.results.toList

/-- Runs the lines of a script, and makes a report of whatever the run has come to. -/
def runReporting (script : Script) (name : String) : Run σ Report :=
  ⟨fun state =>
    let (outcome, after) := (runner.runAll script.lines).apply state
    (.ok (runner.reportOf name outcome after), after)⟩

/-- Runs the lines of a script for a report, which nobody gets if the program crashes. -/
def execute (script : Script) (name : String) : Run σ Report :=
  (runner.runReporting script name).orCrash

/-- Lists the lines of a script and runs none. -/
def preview (script : Script) (name : String) : Run σ Report := do
  let (listing, vars) := Preview.list ⟨(← Run.get).vars, []⟩ script.lines
  Run.modify fun state => { state with vars }.printAll listing
  return {
    script := name
    success := true
    executed := 0
    skipped := script.lines.length
    failed := 0
    milliseconds := 0
    startedAt := runner.now
    finishedAt := runner.now
    dryRun := true
    error := none
    log := [] }

/-- Writes the log if there is a file for it. -/
def writeLog (report : Report) : Run σ Unit :=
  match runner.logFile with
  | none => return ()
  | some path => ⟨fun state =>
    let (outcome, files) := report.writeLog path state.world.files
    (outcome.mapError .io, { state with world := { state.world with files } })⟩

/-! ## Scripts -/

/-- Checks and runs a script, in a state that it may start in. -/
def runFresh (script : Script) (name : String) : Run σ Report := do
  match script.ensureValid runner.limits with
  | .error failure => .fail failure
  | .ok warnings =>
    Run.modify (.warn warnings)
    setAll runner.initial
    let report ← if runner.settings.dryRun then runner.preview script name
      else runner.execute script name
    runner.writeLog report
    return report

/-- Runs a script under a name. -/
def runScript (script : Script) (name : String) : Run σ Report :=
  ⟨fun state => (runner.runFresh script name).apply state.fresh⟩

/-- Runs the script in a file. -/
def runFile (path : String) : Run σ Report :=
  ⟨fun state =>
    match state.world.files.readText path with
    | .error fault => (.error (.io fault), state.fresh)
    | .ok text => (runner.runScript (.parse text) path).apply state⟩

/-- Runs the script in a file, and says so if there is no such file. -/
def runPath (path : String) : Run σ Report :=
  ⟨fun state =>
    if state.world.files.pathExists path then (runner.runFile path).apply state
    else (.error (.io (.noScript path)), state.fresh)⟩

end Runner

end BatchScript
