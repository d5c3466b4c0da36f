import BatchScript.Execution.Step
import BatchScript.ItemList

/-!
# Blocks

How the four kinds of blocks run, given what runs their bodies. A body is run under a policy of
its own; whether its stop goes on outwards is decided by the policy of the block. A block whose
condition or loop variable cannot be used is recorded as a failed line.
-/

namespace BatchScript

variable {σ : Type}

/-- What runs a part of a block under a policy. -/
abbrev Body (σ : Type) := Policy → Run σ Flow

namespace Interpreter

variable (interpreter : Interpreter σ)

/-- Records that a block could not be run because of a line, which counts as a failure under the
policy of the block. -/
def failBlock (line : Line) (failure : Failure) (policy : Policy) : Run σ Flow := do
  let _ ← interpreter.reject line failure
  return Flow.stopped.under policy

/-- Goes on by the value of a condition on a line. -/
def branch (line : Line) (condition : String) (policy : Policy) (yes no : Run σ Flow) :
    Run σ Flow := do
  match ← Run.evaluate condition with
  | .ok true => yes
  | .ok false => no
  | .error fault => interpreter.failBlock line (.evaluation fault) policy

/-! ## Conditionals -/

/-- Runs the part of the first marker whose condition holds. -/
def chooseMarker (policy : Policy) : List (Line × Body σ) → Run σ Flow
  | [] => return .completed
  | (marker, part) :: others =>
    match Directive.ofLine marker with
    | .error fault => .fail (.parse marker.number fault)
    | .ok (.divides (.elif condition)) =>
      interpreter.branch marker condition policy
        (do return (← part policy).under policy)
        (chooseMarker policy others)
    | .ok _ => do return (← part policy).under policy

/-- Runs the first part of an `@if` whose condition holds. -/
def conditional (line : Line) (condition : String) (body : Body σ) (parts : List (Line × Body σ))
    (policy : Policy) : Run σ Flow :=
  interpreter.branch line condition policy
    (do return (← body policy).under policy)
    (interpreter.chooseMarker policy parts)

/-! ## Loops over items -/

/-- The variable that counts the iterations of a `@foreach`. -/
def loopIndex : String := "__LOOP_INDEX__"

/-- Binds the loop variable to an item, and the loop index to its position. -/
def bindItem (var item : String) (index : Nat) : Run σ Unit :=
  ⟨fun state =>
    match state.vars.set var item with
    | .error fault => (.error (.variable fault), state)
    | .ok vars =>
      match vars.set loopIndex (toString index) with
      | .error fault => (.error (.variable fault), { state with vars })
      | .ok vars => (.ok (), { state with vars })⟩

/-- Runs a body once for each item. -/
def iterate (var : String) (body : Body σ) (policy : Policy) (index : Nat) :
    List String → Run σ Flow
  | [] => return .completed
  | item :: items => do
    bindItem var item index
    if (← body policy).under policy = .stopped then return .stopped
    iterate var body policy (index + 1) items

/-- Runs, and then gives a name back the value it had before, whatever the run has done. -/
def preserving (name : String) (run : Run σ Flow) : Run σ Flow :=
  ⟨fun state =>
    let saved := state.vars.lookup name
    (run.ensuring fun after =>
      { after with vars := after.vars.restore name saved }).apply state⟩

/-- Runs the body of a `@foreach` once for each item of its list, which is fixed at the start. -/
def foreach (line : Line) (var list : String) (body : Body σ) (policy : Policy) : Run σ Flow :=
  if Variables.validName var then do
    let vars := (← Run.get).vars
    let items := ItemList.expand (vars.resolve list.toList)
    preserving loopIndex (preserving var (iterate var body policy 0 items))
  else interpreter.failBlock line (.variable (.invalidLoopName var)) policy

/-! ## Loops under a condition -/

/-- Runs a body as long as a condition holds, and at most `remaining` times. -/
def repeating (line : Line) (condition : String) (body : Body σ) (policy : Policy) :
    Nat → Run σ Flow
  | 0 =>
    interpreter.branch line condition policy
      (interpreter.failBlock line
        (.evaluation (.loopLimit interpreter.settings.maxLoopIterations)) policy)
      (return .completed)
  | remaining + 1 =>
    interpreter.branch line condition policy
      (do
        if (← body policy).under policy = .stopped then return .stopped
        repeating line condition body policy remaining)
      (return .completed)

/-! ## Attempts -/

/-- Runs the body of an attempt. While the attempt has a `@catch`, no failure in it is uncaught. -/
def covered (hasCatch : Bool) (body : Run σ Flow) : Run σ Flow :=
  if hasCatch then ⟨fun state =>
    (body.ensuring fun after => { after with catchDepth := after.catchDepth - 1 }).apply
      { state with catchDepth := state.catchDepth + 1 }⟩
  else body

/-- What runs the part that the first marker of a branch begins. -/
def part? (parts : List (Line × Body σ)) (branch : Branch) : Option (Body σ) :=
  (parts.find? (·.1.role = .divides branch)).map (·.2)

/-- Handles the failures of the body of an attempt. -/
def handle (failed : Bool) (handler? : Option (Body σ)) (policy : Policy) : Run σ Flow :=
  match failed, handler? with
  | false, _ => return .completed
  | true, none => return Flow.stopped.under policy
  | true, some handler => do return (← handler policy).under policy

/-- Runs the body of a `@try` to its end, then the `@catch` if a line of the body has failed, and
then the `@finally`. -/
def attempt (body : Body σ) (parts : List (Line × Body σ)) (policy : Policy) : Run σ Flow := do
  let handler? := part? parts .catch
  let before := (← Run.get).failures
  let _ ← covered handler?.isSome (body .continue)
  let after := (← Run.get).failures
  let flow ← handle (before < after) handler? policy
  match part? parts .finally with
  | none => return flow
  | some cleanup => return if (← cleanup policy).under policy = .stopped then .stopped else flow

/-! ## All kinds -/

/-- Runs a block. -/
def block (line : Line) (opening : Opening) (body : Body σ) (parts : List (Line × Body σ))
    (policy : Policy) : Run σ Flow :=
  match opening with
  | .conditional condition => interpreter.conditional line condition body parts policy
  | .foreach var list => interpreter.foreach line var list body policy
  | .loop condition =>
    interpreter.repeating line condition body policy interpreter.settings.maxLoopIterations
  | .attempt => attempt body parts policy

end Interpreter

end BatchScript
