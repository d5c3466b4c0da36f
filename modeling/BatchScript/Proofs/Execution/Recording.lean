import BatchScript.Proofs.Execution.Turns

/-!
# What single lines record

A line that opens no block records at most one result, under its own number, and counts a failure as
uncaught if no attempt with a `@catch` is being run. The line is a success if and only if nothing that
it has recorded is a failure (`Run.Answers`). The same holds of a block that is refused because of one
of its lines, so both keep one promise (`Promise.single`).
-/

namespace BatchScript

variable {σ α : Type}

/-! ## Results of one line -/

/-- What one line records, and what becomes of the count of uncaught failures. -/
structure Tallies (line : Line) (new : List LineResult) (before after : State σ) : Prop where
  number : ∀ result ∈ new, result.line = line.number
  atMostOne : new.length ≤ 1
  uncaught : after.uncaught =
    before.uncaught + if before.catchDepth = 0 then new.countP (!·.success) else 0

theorem Tallies.refl (line : Line) (state : State σ) : Tallies line [] state state where
  number _ hmem := absurd hmem List.not_mem_nil
  atMostOne := Nat.zero_le 1
  uncaught := by rw [List.countP_nil, ite_self, Nat.add_zero]

/-- Everything that results are counted by is the same. -/
structure State.SameCounts (before after : State σ) : Prop where
  results : after.results = before.results
  failures : after.failures = before.failures
  uncaught : after.uncaught = before.uncaught
  catchDepth : after.catchDepth = before.catchDepth

namespace State.SameCounts

variable {before between after : State σ} {new : List LineResult} {line : Line}

theorem records (h : SameCounts before between) (h' : Records new between after) :
    Records new before after where
  results := h.results ▸ h'.results
  failures := h.failures ▸ h'.failures
  catchDepth := h'.catchDepth.trans h.catchDepth

theorem tallies (h : SameCounts before between) (h' : Tallies line new between after) :
    Tallies line new before after where
  number := h'.number
  atMostOne := h'.atMostOne
  uncaught := by rw [h'.uncaught, h.uncaught, h.catchDepth]

end State.SameCounts

theorem State.records_record (settings : Settings) (result : LineResult) (state : State σ) :
    State.Records [result] state (state.record settings result) := by
  unfold State.record State.countFailure State.print
  constructor
  · cases result.success <;> cases settings.verbose <;> simp
  · cases hsuccess : result.success <;> cases settings.verbose <;> simp [hsuccess]
  · cases result.success <;> cases settings.verbose <;> rfl

theorem State.uncaught_record (settings : Settings) (result : LineResult) (state : State σ) :
    (state.record settings result).uncaught =
      state.uncaught + if state.catchDepth = 0 then [result].countP (!·.success) else 0 := by
  unfold State.record State.countFailure State.print
  by_cases hdepth : state.catchDepth = 0 <;> cases hsuccess : result.success <;>
    cases settings.verbose <;> simp [hdepth, hsuccess]

/-- Recording changes neither the variables nor the world. -/
theorem State.vars_record (settings : Settings) (result : LineResult) (state : State σ) :
    (state.record settings result).vars = state.vars := by
  unfold State.record
  cases result.success <;> cases settings.verbose <;> rfl

theorem State.world_record (settings : Settings) (result : LineResult) (state : State σ) :
    (state.record settings result).world = state.world := by
  unfold State.record
  cases result.success <;> cases settings.verbose <;> rfl

/-! ## Answers -/

/-- In every state the run records what a line may record, and if it answers, then with the success of
what it has recorded. -/
def Run.Answers (run : Run σ Bool) (line : Line) : Prop :=
  ∀ state, ∃ new, State.Records new state (run.apply state).2 ∧
    Tallies line new state (run.apply state).2 ∧
    ∀ success, (run.apply state).1 = .ok success → success = new.all (·.success)

namespace Run

variable {line : Line}

theorem answers_pure_true : (pure true : Run σ Bool).Answers line := by
  refine fun state => ⟨[], .refl state, .refl line state, fun success hsuccess => ?_⟩
  exact (Except.ok.inj hsuccess).symm

theorem answers_fail (failure : Failure) : (fail failure : Run σ Bool).Answers line :=
  fun state => ⟨[], .refl state, .refl line state, nofun⟩

/-- Nothing counts that is done before. -/
theorem answers_bind {run : Run σ α} {next : α → Run σ Bool}
    (hrun : ∀ state, State.SameCounts state (run.apply state).2)
    (hnext : ∀ value, (next value).Answers line) : (run >>= next).Answers line := by
  intro state
  have hsame := hrun state
  rw [bind_apply]
  rcases happly : run.apply state with ⟨failure | value, between⟩ <;> rw [happly] at hsame
  · exact ⟨[], hsame.records (.refl between), hsame.tallies (.refl line between), nofun⟩
  · obtain ⟨new, hrecords, htallies, hsuccess⟩ := hnext value between
    exact ⟨new, hsame.records hrecords, hsame.tallies htallies, hsuccess⟩

theorem answers_get_bind {next : State σ → Run σ Bool} (h : ∀ state, (next state).Answers line) :
    (get >>= next).Answers line :=
  answers_bind (fun _ => ⟨rfl, rfl, rfl, rfl⟩) h

end Run

namespace Interpreter

open Run

variable (interpreter : Interpreter σ) (line : Line)

theorem answers_record {result : LineResult} (h : result.line = line.number) :
    (interpreter.record result).Answers line := by
  intro state
  refine ⟨[result], State.records_record _ _ state, ⟨?_, Nat.le_refl 1, ?_⟩, ?_⟩
  · exact List.forall_mem_singleton.2 h
  · exact State.uncaught_record _ _ state
  · intro success hsuccess
    rw [List.all_cons, List.all_nil, Bool.and_true]
    exact (Except.ok.inj hsuccess).symm

theorem answers_command (name : String) (args : List String) :
    (interpreter.command line name args).Answers line := by
  refine answers_get_bind fun state => ?_
  dsimp only
  split
  · exact interpreter.answers_record line rfl
  · exact answers_bind (fun _ => ⟨rfl, rfl, rfl, rfl⟩) fun outcome =>
      interpreter.answers_record line rfl

theorem answers_update (changed : Except VariableFault Variables) :
    (interpreter.update line changed).Answers line := by
  cases changed with
  | ok vars =>
    exact answers_bind (fun _ => ⟨rfl, rfl, rfl, rfl⟩) fun _ => interpreter.answers_record line rfl
  | error fault => exact interpreter.answers_record line rfl

theorem answers_perform (directive : Directive) :
    (interpreter.perform line directive).Answers line := by
  refine answers_get_bind fun state => ?_
  cases directive with
  | set | exported | unset => exact interpreter.answers_update line _
  | echo =>
    exact answers_bind (fun _ => ⟨rfl, rfl, rfl, rfl⟩) fun _ => interpreter.answers_record line rfl
  | onError => exact interpreter.answers_record line rfl
  | opens | divides | closes => exact answers_pure_true

theorem answers_act : (interpreter.act line).Answers line := by
  obtain ⟨number, raw, content⟩ := line
  cases content with
  | blank | comment =>
    exact answers_bind (fun _ => ⟨rfl, rfl, rfl, rfl⟩) fun _ => answers_pure_true
  | command name args => exact interpreter.answers_command _ name args
  | directive keyword body =>
    unfold act
    dsimp only
    split
    · exact answers_fail _
    · exact interpreter.answers_perform _ _

end Interpreter

/-! ## Single lines and refused blocks -/

/-- What a single line does under a policy: it records what a line may record, and its failure ends
it as the policy says. -/
def Promise.single (line : Line) (policy : Policy) : Promise σ :=
  fun new before outcome after => Tallies line new before after ∧
    ∀ flow, outcome = .ok flow → flow = policy.settle (new.all (·.success))

theorem Run.Answers.keeps_single {run : Run σ Bool} {line : Line} (h : run.Answers line)
    (policy : Policy) :
    Run.Keeps (do return policy.settle (← run)) (.single line policy) := by
  intro state
  obtain ⟨new, hrecords, htallies, hsuccess⟩ := h state
  rw [bind_apply]
  rcases hrun : run.apply state with ⟨failure | success, after⟩
  · rw [hrun] at hrecords htallies
    exact ⟨new, hrecords, htallies, nofun⟩
  · rw [hrun] at hrecords htallies hsuccess
    refine ⟨new, hrecords, htallies, fun flow hflow => ?_⟩
    rw [← hsuccess success rfl]
    exact (Except.ok.inj hflow).symm

namespace Interpreter

variable (interpreter : Interpreter σ) (line : Line) (policy : Policy)

theorem keeps_runLine : (interpreter.runLine line policy).Keeps (.single line policy) :=
  (interpreter.answers_act line).keeps_single policy

/-- A refused block is a failure of one line. -/
theorem keeps_failBlock (failure : Failure) :
    (interpreter.failBlock line failure policy).Keeps (.single line policy) :=
  (interpreter.answers_record line rfl).keeps_single policy

end Interpreter

end BatchScript
