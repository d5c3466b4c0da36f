import BatchScript.Proofs.Execution.Recording
import BatchScript.Proofs.Execution.Simulation
import BatchScript.Proofs.Execution.Turns

/-!
# Calls of the dispatcher

A dispatcher can keep a log of its calls beside its own state (`Dispatcher.logged`). The log changes
nothing in a run, and it goes along with the results: each call is reported by the one result that is
recorded right after it, so the calls of a run are those of its results, in the same order
(`logs_run`).
-/

namespace BatchScript

variable {σ α β : Type}

/-! ## Logs -/

/-- A call of a dispatcher and what came of it. -/
structure Call where
  name : String
  args : List String
  outcome : Outcome
deriving DecidableEq, Repr

/-- The dispatcher with a log of its calls beside its state. -/
def Dispatcher.logged (dispatch : Dispatcher σ) : Dispatcher (σ × List Call) :=
  fun name args environment world =>
    let (outcome, after) := dispatch name args environment ⟨world.files, world.state.1⟩
    (outcome, ⟨after.files, after.state, world.state.2 ++ [⟨name, args, outcome⟩]⟩)

/-- The interpreter with a log of the calls. -/
def Interpreter.logged (interpreter : Interpreter σ) : Interpreter (σ × List Call) :=
  ⟨interpreter.settings, interpreter.dispatch.logged⟩

/-- A state together with the calls so far. -/
def State.withCalls (state : State σ) (calls : List Call) : State (σ × List Call) :=
  { state with world := ⟨state.world.files, state.world.state, calls⟩ }

/-- A result reports what came of a call. -/
structure LineResult.Reports (result : LineResult) (call : Call) : Prop where
  text : result.text = Command.display call.name call.args
  success : result.success = call.outcome.success
  output : result.output = call.outcome.output
  error : result.error = call.outcome.error

/-- A result that is recorded, and the call before it that it reports if there is one. -/
structure Event where
  result : LineResult
  call? : Option Call
  reports : ∀ call ∈ call?, result.Reports call

namespace Event

/-- The results of events. -/
def results (events : List Event) : List LineResult :=
  events.map (·.result)

/-- The calls of events. -/
def calls (events : List Event) : List Call :=
  events.filterMap (·.call?)

/-- A result without a call. -/
def ofResult (result : LineResult) : Event :=
  ⟨result, none, nofun⟩

/-- A result after a call. -/
def ofCall (number : Nat) (call : Call) : Event where
  result := ⟨number, Command.display call.name call.args, call.outcome.success,
    call.outcome.output, call.outcome.error, 0⟩
  call? := some call
  reports := by
    rintro _ ⟨⟩
    exact ⟨rfl, rfl, rfl, rfl⟩

theorem results_append (first last : List Event) :
    results (first ++ last) = results first ++ results last :=
  List.map_append

theorem calls_append (first last : List Event) :
    calls (first ++ last) = calls first ++ calls last :=
  List.filterMap_append

end Event

/-! ## Runs with a log -/

/-- In every state a run and the run with a log do the same, and what is new in the log and among the
results are the calls and the results of some events. -/
def Run.Logs (run : Run σ α) (logged : Run (σ × List Call) α) : Prop :=
  ∀ state calls, ∃ events,
    (run.apply state).2.results.toList = state.results.toList ++ Event.results events ∧
    logged.apply (state.withCalls calls) =
      ((run.apply state).1, (run.apply state).2.withCalls (calls ++ Event.calls events))

namespace Run

variable {run : Run σ α} {logged : Run (σ × List Call) α}

/-- Nothing happens that a log could show. -/
theorem logs_of_still
    (h : ∀ state calls, (run.apply state).2.results = state.results ∧
      logged.apply (state.withCalls calls) =
        ((run.apply state).1, (run.apply state).2.withCalls calls)) : run.Logs logged := by
  intro state calls
  obtain ⟨hresults, happly⟩ := h state calls
  refine ⟨[], ?_, ?_⟩
  · rw [hresults]
    exact (List.append_nil _).symm
  · rw [happly]
    exact congrArg (fun all => (_, State.withCalls _ all)) (List.append_nil calls).symm

theorem logs_pure (value : α) : (pure value : Run σ α).Logs (pure value) :=
  logs_of_still fun _ _ => ⟨rfl, rfl⟩

theorem logs_fail (failure : Failure) : (fail failure : Run σ α).Logs (fail failure) :=
  logs_of_still fun _ _ => ⟨rfl, rfl⟩

theorem Logs.bind {next : α → Run σ β} {next' : α → Run (σ × List Call) β} (h : run.Logs logged)
    (h' : ∀ value, (next value).Logs (next' value)) : (run >>= next).Logs (logged >>= next') := by
  intro state calls
  obtain ⟨events, hresults, happly⟩ := h state calls
  rw [bind_apply, bind_apply, happly]
  rcases hrun : run.apply state with ⟨failure | value, between⟩ <;> rw [hrun] at hresults
  · exact ⟨events, hresults, rfl⟩
  · obtain ⟨events', hresults', happly'⟩ := h' value between (calls ++ Event.calls events)
    refine ⟨events ++ events', ?_, ?_⟩
    · rw [hresults', hresults, Event.results_append, List.append_assoc]
    · rw [Event.calls_append, ← List.append_assoc]
      exact happly'

theorem logs_get_bind {next : State σ → Run σ α} {next' : State (σ × List Call) → Run _ α}
    (h : ∀ state calls, (next state).Logs (next' (state.withCalls calls))) :
    (get >>= next).Logs (get >>= next') :=
  fun state calls => h state calls state calls

end Run

namespace Interpreter

open Run

variable (interpreter : Interpreter σ)

/-! ## Single lines -/

theorem record_withCalls (settings : Settings) (result : LineResult) (state : State σ)
    (calls : List Call) :
    (state.withCalls calls).record settings result =
      (state.record settings result).withCalls calls :=
  state.record_beside settings result calls

theorem logs_record (result : LineResult) :
    (interpreter.record result).Logs (interpreter.logged.record result) := by
  intro state calls
  refine ⟨[.ofResult result], (State.records_record _ _ state).results, ?_⟩
  show (_, (state.withCalls calls).record _ _) = (_, State.withCalls _ (calls ++ []))
  rw [record_withCalls, List.append_nil]
  rfl

/-- Calls the dispatcher, and records the result that reports the call. -/
theorem logs_dispatch (line : Line) (name : String) (args : List String) :
    Run.Logs (do
        let outcome ← interpreter.dispatchCommand name args
        interpreter.record ⟨line.number, Command.display name args, outcome.success, outcome.output,
          outcome.error, 0⟩)
      (do
        let outcome ← interpreter.logged.dispatchCommand name args
        interpreter.logged.record ⟨line.number, Command.display name args, outcome.success,
          outcome.output, outcome.error, 0⟩) := by
  intro state calls
  let answer := interpreter.dispatch name args state.vars.environment state.world
  have happly : (interpreter.dispatchCommand name args).apply state =
      (.ok answer.1, { state with world := answer.2 }) := rfl
  have hlogged : (interpreter.logged.dispatchCommand name args).apply (state.withCalls calls) =
      (.ok answer.1, State.withCalls { state with world := answer.2 }
        (calls ++ [⟨name, args, answer.1⟩])) := rfl
  rw [bind_apply, bind_apply, happly, hlogged]
  refine ⟨[.ofCall line.number ⟨name, args, answer.1⟩], ?_, ?_⟩
  · exact (State.records_record _ _ { state with world := answer.2 }).results
  · show (_, State.record _ _ (State.withCalls _ _)) = (_, State.withCalls _ _)
    rw [record_withCalls]
    rfl

theorem logs_command (line : Line) (name : String) (args : List String) :
    (interpreter.command line name args).Logs (interpreter.logged.command line name args) := by
  refine logs_get_bind fun state calls => ?_
  show Run.Logs (if Text.trimmed (state.vars.resolveString name) = "" then _ else _)
    (if Text.trimmed (state.vars.resolveString name) = "" then _ else _)
  split
  · exact interpreter.logs_record _
  · exact interpreter.logs_dispatch line _ _

theorem logs_modify {change : State σ → State σ}
    {change' : State (σ × List Call) → State (σ × List Call)}
    (hresults : ∀ state, (change state).results = state.results)
    (hlog : ∀ state calls, change' (state.withCalls calls) = (change state).withCalls calls) :
    (Run.modify change).Logs (Run.modify change') :=
  logs_of_still fun state calls => ⟨hresults state, congrArg (Prod.mk _) (hlog state calls)⟩

theorem logs_update (line : Line) (changed : Except VariableFault Variables) :
    (interpreter.update line changed).Logs (interpreter.logged.update line changed) := by
  cases changed with
  | ok vars =>
    exact Logs.bind (logs_modify (fun _ => rfl) fun _ _ => rfl) fun _ => interpreter.logs_record _
  | error fault => exact interpreter.logs_record _

theorem logs_perform (line : Line) (directive : Directive) :
    (interpreter.perform line directive).Logs (interpreter.logged.perform line directive) := by
  refine logs_get_bind fun state calls => ?_
  cases directive with
  | set | exported | unset => exact interpreter.logs_update line _
  | echo =>
    exact Logs.bind (logs_modify (fun _ => rfl) fun _ _ => rfl) fun _ => interpreter.logs_record _
  | onError => exact interpreter.logs_record _
  | opens | divides | closes => exact logs_pure true

theorem logs_act (line : Line) : (interpreter.act line).Logs (interpreter.logged.act line) := by
  obtain ⟨number, raw, content⟩ := line
  cases content with
  | blank | comment =>
    exact Logs.bind (logs_modify (fun _ => rfl) fun _ _ => rfl) fun _ => logs_pure _
  | command name args => exact interpreter.logs_command _ name args
  | directive keyword body =>
    unfold act
    dsimp only
    split
    · exact logs_fail _
    · exact interpreter.logs_perform _ _

theorem logs_step (line : Line) (policy : Policy) :
    (interpreter.step line policy).Logs (interpreter.logged.step line policy) := by
  rw [step_eq_act, step_eq_act]
  exact (interpreter.logs_act line).bind fun _ => logs_pure _

/-! ## Blocks -/

/-- A part of a block and the part with a log, under every policy. -/
def BodyLogs (body : Body σ) (logged : Body (σ × List Call)) : Prop :=
  ∀ policy, (body policy).Logs (logged policy)

/-- The parts of a block, each given by what `body` makes of its lines. -/
def partsBy {τ : Type} (body : List Line → Body τ) (parts : List (Line × List Line)) :
    List (Line × Body τ) :=
  parts.map fun part => (part.1, body part.2)

theorem partsSimulate_partsBy {τ : Type} {related : Nat → State σ → State τ → Prop}
    {run : List Line → Body σ} {run' : List Line → Body τ} {parts : List (Line × List Line)}
    (h : ∀ part ∈ parts, BodySimulates related (run part.2) (run' part.2)) :
    PartsSimulate related (partsBy run parts) (partsBy run' parts) := by
  unfold PartsSimulate partsBy
  rw [List.forall₂_map_left_iff, List.forall₂_map_right_iff, List.forall₂_same]
  exact fun part hpart => ⟨rfl, h part hpart⟩

/-- What was recorded and what was called since, are the results and the calls of some events. -/
def SameEvents (results : List LineResult) (calls : List Call) (_grade : Nat)
    (recorded : Array LineResult) (kept : List Call) : Prop :=
  ∃ events, recorded.toList = results ++ Event.results events ∧ kept = calls ++ Event.calls events

theorem simulation_logged (results : List LineResult) (calls : List Call) :
    Simulation interpreter interpreter.logged (State.Beside (SameEvents results calls)) := by
  refine simulation_beside rfl (fun _ => id) ?_
  rintro grade recorded kept result ⟨events, hrecorded, rfl⟩
  refine ⟨events ++ [.ofResult result], ?_, ?_⟩
  · rw [Array.toList_push, hrecorded, Event.results_append, List.append_assoc]
    rfl
  · rw [Event.calls_append]
    exact congrArg (calls ++ ·) (List.append_nil _).symm

/-- Runs with and without a log go side by side. -/
theorem logs_iff_simulates {run : Run σ α} {logged : Run (σ × List Call) α} (grade : Nat) :
    run.Logs logged ↔ ∀ results calls, run.Simulates logged
      (State.Beside (SameEvents results calls) grade)
      (State.Beside (SameEvents results calls) grade) := by
  constructor
  · rintro h results calls state _ ⟨_, ⟨events, hrecorded, rfl⟩, rfl⟩
    obtain ⟨new, hnew, happly⟩ := h state (calls ++ Event.calls events)
    have happly : logged.apply (state.beside (calls ++ Event.calls events)) = _ := happly
    rw [happly]
    refine ⟨rfl, _, ⟨events ++ new, ?_, ?_⟩, rfl⟩
    · rw [hnew, hrecorded, Event.results_append, List.append_assoc]
    · rw [Event.calls_append, List.append_assoc]
  · intro h state calls
    have hstart : SameEvents state.results.toList calls grade state.results calls :=
      ⟨[], (List.append_nil _).symm, (List.append_nil _).symm⟩
    obtain ⟨houtcome, _, ⟨events, hrecorded, rfl⟩, hafter⟩ :=
      h state.results.toList calls state (state.beside calls) ⟨calls, hstart, rfl⟩
    exact ⟨events, hrecorded, Prod.ext houtcome hafter⟩

theorem BodyLogs.simulates {body : Body σ} {logged : Body (σ × List Call)} (h : BodyLogs body logged)
    (results : List LineResult) (calls : List Call) :
    BodySimulates (State.Beside (SameEvents results calls)) body logged :=
  fun policy grade => (logs_iff_simulates grade).1 (h policy) results calls

theorem logs_block (line : Line) (opening : Opening) {body : Body σ}
    {logged : Body (σ × List Call)} (hbody : BodyLogs body logged) {run : List Line → Body σ}
    {run' : List Line → Body (σ × List Call)} {parts : List (Line × List Line)}
    (hparts : ∀ part ∈ parts, BodyLogs (run part.2) (run' part.2)) (policy : Policy) :
    (interpreter.block line opening body (partsBy run parts) policy).Logs
      (interpreter.logged.block line opening logged (partsBy run' parts) policy) := by
  refine (logs_iff_simulates 0).2 fun results calls state state' hrelated => ?_
  have hsimulates : PartsSimulate (State.Beside (SameEvents results calls)) (partsBy run parts)
      (partsBy run' parts) :=
    partsSimulate_partsBy fun part hpart => (hparts part hpart).simulates results calls
  exact (interpreter.simulation_logged results calls).simulates_block line opening
    (hbody.simulates results calls) hsimulates policy hrelated

/-! ## Lines -/

/-- A log of the calls changes nothing in a run of lines, and each call is reported by the result that
is recorded after it. -/
theorem logs_run (lines : List Line) : BodyLogs (interpreter.run lines)
    (interpreter.logged.run lines) := by
  intro policy
  induction lines using lines_induction generalizing policy with
  | nil =>
    rw [run_nil, run_nil]
    exact logs_pure _
  | line line rest hopening ih =>
    rw [run_cons_of_opening?_eq_none _ hopening, run_cons_of_opening?_eq_none _ hopening]
    refine (interpreter.logs_step line policy).bind fun next => ?_
    cases next with
    | none => exact logs_pure _
    | some next => exact ih next
  | unmatched line opening rest hopening hcut =>
    rw [run_cons_of_cutBlock_eq_none _ hopening hcut, run_cons_of_cutBlock_eq_none _ hopening hcut]
    exact logs_fail _
  | block line opening rest cut hopening hcut hbody hparts hrest =>
    rw [run_cons_of_cutBlock_eq_some _ hopening hcut, run_cons_of_cutBlock_eq_some _ hopening hcut]
    refine (interpreter.logs_block line opening hbody hparts policy).bind fun flow => ?_
    cases flow with
    | completed => exact hrest policy
    | stopped => exact logs_pure _

end Interpreter

end BatchScript
