import BatchScript.Command
import BatchScript.Directive
import BatchScript.LineResult
import BatchScript.Settings
import BatchScript.Variables

/-!
# Runs

The state that the lines of a script act on, and computations on it. A run may fail, and then keeps
the state it has reached: what was recorded before a failure is never lost.

If the program crashes in a run, the state bears the crash from then on (`State.crash?`). Nothing is
printed any more, and the caller of the run gets the crash and nothing else (`Run.orCrash`).
-/

namespace BatchScript

/-! ## State -/

/-- The lines that were printed to the two output streams. -/
structure Transcript where
  output : Array String := #[]
  errors : Array String := #[]
deriving DecidableEq, Repr

namespace Transcript

/-- Prints a line of a script's own text: to the error stream if the output stream is kept for a
JSON document. -/
def print (format : Format) (text : String) (transcript : Transcript) : Transcript :=
  match format with
  | .human => { transcript with output := transcript.output.push text }
  | .json => { transcript with errors := transcript.errors.push text }

end Transcript

/-- What the lines of a script act on. A failed result counts as uncaught unless it is recorded
inside a `@try` that has a `@catch`; `catchDepth` is the number of such blocks that are being
run. -/
structure State (σ : Type) where
  vars : Variables
  world : World σ
  results : Array LineResult := #[]
  skipped : Nat := 0
  failures : Nat := 0
  uncaught : Nat := 0
  catchDepth : Nat := 0
  transcript : Transcript := {}

variable {σ α β : Type}

namespace State

/-- Passes over a blank line or a comment. -/
def skip (state : State σ) : State σ :=
  { state with skipped := state.skipped + 1 }

/-- What the program has crashed at. -/
def crash? (state : State σ) : Option Crash :=
  state.vars.environment.crash

/-- Prints a line, unless the program has crashed. -/
def print (format : Format) (text : String) (state : State σ) : State σ :=
  { state with
    transcript :=
      match state.crash? with
      | none => state.transcript.print format text
      | some _ => state.transcript }

/-- Counts a failed result. -/
def countFailure (state : State σ) : State σ :=
  { state with
    failures := state.failures + 1
    uncaught := if state.catchDepth = 0 then state.uncaught + 1 else state.uncaught }

/-- Records a result, and prints it if the settings ask for that. -/
def record (settings : Settings) (result : LineResult) (state : State σ) : State σ :=
  let state := if result.success then state else state.countFailure
  let state := if settings.verbose then state.print settings.format result.status else state
  { state with results := state.results.push result }

end State

/-! ## Computations -/

/-- A computation on the state of a run. -/
structure Run (σ α : Type) where
  /-- What comes of the computation, and the state it leaves. -/
  apply : State σ → Except Failure α × State σ

namespace Run

instance : Monad (Run σ) where
  pure value := ⟨fun state => (.ok value, state)⟩
  bind run next := ⟨fun state =>
    match run.apply state with
    | (.ok value, state) => (next value).apply state
    | (.error failure, state) => (.error failure, state)⟩

/-- The state as it is. -/
def get : Run σ (State σ) :=
  ⟨fun state => (.ok state, state)⟩

/-- Changes the state. -/
def modify (change : State σ → State σ) : Run σ Unit :=
  ⟨fun state => (.ok (), change state)⟩

/-- Fails. -/
def fail (failure : Failure) : Run σ α :=
  ⟨fun state => (.error failure, state)⟩

/-- Runs, and changes the state afterwards whether or not the run has failed. -/
def ensuring (run : Run σ α) (change : State σ → State σ) : Run σ α :=
  ⟨fun state => ((run.apply state).1, change (run.apply state).2)⟩

/-- What the caller of a run gets: if the program has crashed, only the crash. -/
def orCrash (run : Run σ α) : Run σ α :=
  ⟨fun state =>
    let (outcome, after) := run.apply state
    match after.crash? with
    | none => (outcome, after)
    | some crash => (.error (.crash crash), after)⟩

@[simp] theorem pure_apply (value : α) (state : State σ) :
    (pure value : Run σ α).apply state = (.ok value, state) := rfl

theorem bind_apply (run : Run σ α) (next : α → Run σ β) (state : State σ) :
    (run >>= next).apply state =
      match run.apply state with
      | (.ok value, state) => (next value).apply state
      | (.error failure, state) => (.error failure, state) := rfl

@[simp] theorem get_apply (state : State σ) : get.apply state = (.ok state, state) := rfl

@[simp] theorem modify_apply (change : State σ → State σ) (state : State σ) :
    (modify change).apply state = (.ok (), change state) := rfl

@[simp] theorem fail_apply (failure : Failure) (state : State σ) :
    (fail failure : Run σ α).apply state = (.error failure, state) := rfl

@[simp] theorem ensuring_apply (run : Run σ α) (change : State σ → State σ) (state : State σ) :
    (run.ensuring change).apply state = ((run.apply state).1, change (run.apply state).2) := rfl

theorem snd_orCrash_apply (run : Run σ α) (state : State σ) :
    (run.orCrash.apply state).2 = (run.apply state).2 := by
  unfold orCrash
  dsimp only
  split <;> rfl

section Crash

variable {run : Run σ α} {state after : State σ} {outcome : Except Failure α}
  (h : run.apply state = (outcome, after))

include h

/-- If the program survives the run, the caller gets what the run has come to. -/
theorem orCrash_apply_of_none (halive : after.crash? = none) :
    run.orCrash.apply state = (outcome, after) := by
  simp only [orCrash, h, halive]

theorem orCrash_apply_of_some {crash : Crash} (hcrash : after.crash? = some crash) :
    run.orCrash.apply state = (.error (.crash crash), after) := by
  simp only [orCrash, h, hcrash]

end Crash

end Run

/-! ## Flow -/

/-- How a sequence of lines ends: at its last line, or at a failure that stopped it. -/
inductive Flow where
  | completed
  | stopped
deriving DecidableEq, Repr

/-- What a flow means under a policy: only under `abort` does a stop go on outwards. -/
def Flow.under (policy : Policy) : Flow → Flow
  | .completed => .completed
  | .stopped => if policy.continues then .completed else .stopped

end BatchScript
