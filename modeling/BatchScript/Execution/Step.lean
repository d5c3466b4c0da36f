import BatchScript.Condition
import BatchScript.Execution.Run

/-!
# Single lines

What a command and a directive do by themselves, apart from the blocks that directives open: the
command is resolved and dispatched, the variables are changed, and the result is recorded.
-/

namespace BatchScript

/-- What lines are run by: the settings, and the dispatcher of commands. -/
structure Interpreter (σ : Type) where
  settings : Settings
  dispatch : Dispatcher σ

namespace Interpreter

variable {σ : Type} (interpreter : Interpreter σ)

/-! ## Recording -/

/-- Records a result and answers whether it is a success. -/
def record (result : LineResult) : Run σ Bool := do
  Run.modify (.record interpreter.settings result)
  return result.success

/-- Records that a line has succeeded, with an output. -/
def succeed (line : Line) (output : String) : Run σ Bool :=
  interpreter.record ⟨line.number, line.text, true, output, none, 0⟩

/-- Records that a line could not be run. -/
def reject (line : Line) (failure : Failure) : Run σ Bool :=
  interpreter.record ⟨line.number, line.text, false, "", some failure.message, 0⟩

/-! ## Commands -/

/-- Runs a resolved command. -/
def dispatchCommand (name : String) (args : List String) : Run σ Outcome :=
  ⟨fun state =>
    let (outcome, world) :=
      interpreter.dispatch name args state.vars.environment state.world
    (.ok outcome, { state with world })⟩

/-- Runs a command line, and answers whether it has succeeded. A name that resolves to blanks only
is a failure without a dispatch. -/
def command (line : Line) (name : String) (args : List String) : Run σ Bool := do
  let vars := (← Run.get).vars
  let name := vars.resolveString name
  let args := args.map vars.resolveString
  let text := Command.display name args
  if Text.trimmed name = "" then
    interpreter.record
      ⟨line.number, text, false, "", some (Failure.blankCommand line.text).message, 0⟩
  else
    let outcome ← interpreter.dispatchCommand name args
    interpreter.record ⟨line.number, text, outcome.success, outcome.output, outcome.error, 0⟩

/-! ## Directives -/

/-- Takes over changed variables, or records why they were refused. -/
def update (line : Line) (changed : Except VariableFault Variables) : Run σ Bool :=
  match changed with
  | .ok vars => do
    Run.modify fun state => { state with vars }
    interpreter.succeed line ""
  | .error fault => interpreter.reject line (.variable fault)

/-- Runs what a directive does by itself, and answers whether it has succeeded. What belongs to a
block does nothing by itself. -/
def perform (line : Line) (directive : Directive) : Run σ Bool := do
  let vars := (← Run.get).vars
  match directive with
  | .set name value =>
    interpreter.update line (vars.set name (vars.resolveString value))
  | .exported name value =>
    interpreter.update line (vars.setExported name (vars.resolveString value))
  | .unset name =>
    interpreter.update line
      (if Variables.validName name then .ok (vars.unset name)
      else .error (.invalidUnset name))
  | .echo text =>
    let text := vars.resolveString text
    Run.modify (.print interpreter.settings.format text)
    interpreter.succeed line text
  | .onError _ => interpreter.succeed line ""
  | .opens _ | .divides _ | .closes _ => return true

/-! ## Lines -/

/-- The policy for the lines after a line that has run, or nothing if its failure stops them. -/
def proceed (policy : Policy) (success : Bool) (next : Policy) : Option Policy :=
  if success || policy.continues then some next else none

/-- Runs a line that opens no block. -/
def step (line : Line) (policy : Policy) : Run σ (Option Policy) :=
  match line.content with
  | .blank | .comment => do
    Run.modify .skip
    return some policy
  | .command name args => do
    return proceed policy (← interpreter.command line name args) policy
  | .directive keyword body =>
    match Directive.read keyword body with
    | .error fault => .fail (.parse line.number fault)
    | .ok directive => do
      return proceed policy (← interpreter.perform line directive) (directive.policyAfter policy)

end Interpreter

/-- The value of a condition in the current state. -/
def Run.evaluate {σ : Type} (condition : String) : Run σ (Except EvaluationFault Bool) := do
  let state ← Run.get
  return Condition.holds state.world.files.pathExists state.vars condition

end BatchScript
