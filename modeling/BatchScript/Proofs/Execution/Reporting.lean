import BatchScript.Proofs.Execution.Calls

/-!
# How a run is reported

The verbosity and the format of a run decide what is printed, and nothing else. Two interpreters that
differ in no other settings do the same on every range of lines, of an accepted script or not: the
outcome is the same, the dispatcher is called the same, and the states that are left differ in their
transcripts at most (`Interpreter.runRange_reporting`).

The states of the two runs go side by side (`State.SameButTranscript`). Blocks keep them so by the
simulation of all blocks; what is left to show is that single lines do.
-/

namespace BatchScript

variable {σ α β : Type}

/-! ## States -/

/-- The states are the same but for what was printed. -/
def State.SameButTranscript (state state' : State σ) : Prop :=
  ∃ transcript, state' = { state with transcript }

namespace State

theorem sameButTranscript_refl (state : State σ) : state.SameButTranscript state :=
  ⟨state.transcript, rfl⟩

theorem SameButTranscript.record {state state' : State σ} (h : state.SameButTranscript state')
    (settings settings' : Settings) (result : LineResult) :
    (state.record settings result).SameButTranscript (state'.record settings' result) := by
  obtain ⟨transcript, rfl⟩ := h
  unfold State.record
  cases result.success <;> cases settings.verbose <;> cases settings'.verbose <;> exact ⟨_, rfl⟩

end State

/-! ## Runs -/

/-- The runs do the same, whatever was printed before and whatever they print. -/
def Run.Alike (run run' : Run σ α) : Prop :=
  run.Simulates run' State.SameButTranscript State.SameButTranscript

namespace Run

variable {run run' : Run σ α} {next next' : α → Run σ β}

theorem alike_pure (value : α) : (pure value : Run σ α).Alike (pure value) :=
  simulates_pure (fun _ _ => id) value

theorem alike_fail (failure : Failure) : (fail failure : Run σ α).Alike (fail failure) :=
  simulates_fail (fun _ _ => id) failure

theorem Alike.bind (h : run.Alike run') (h' : ∀ value, (next value).Alike (next' value)) :
    (run >>= next).Alike (run' >>= next') :=
  Simulates.bind h (fun _ _ => id) h'

theorem alike_modify {change change' : State σ → State σ}
    (h : ∀ state transcript,
      (change state).SameButTranscript (change' { state with transcript })) :
    (modify change).Alike (modify change') := by
  rintro state _ ⟨transcript, rfl⟩
  exact ⟨rfl, h state transcript⟩

theorem alike_get_bind {next next' : State σ → Run σ α}
    (h : ∀ state transcript, (next state).Alike (next' { state with transcript })) :
    (get >>= next).Alike (get >>= next') := by
  rintro state _ ⟨transcript, rfl⟩
  exact h state transcript state _ ⟨transcript, rfl⟩

end Run

namespace Interpreter

open Run

/-- The interpreter with other settings for what is printed. -/
def reporting (interpreter : Interpreter σ) (verbose : Bool) (format : Format) : Interpreter σ :=
  { interpreter with settings := { interpreter.settings with verbose, format } }

variable (interpreter : Interpreter σ) (verbose : Bool) (format : Format)

/-! ## Single lines -/

theorem alike_record (result : LineResult) :
    (interpreter.record result).Alike ((interpreter.reporting verbose format).record result) :=
  (alike_modify fun _ transcript => State.SameButTranscript.record ⟨transcript, rfl⟩ _ _ result).bind
    fun _ => alike_pure _

theorem alike_dispatchCommand (name : String) (args : List String) :
    (interpreter.dispatchCommand name args).Alike
      ((interpreter.reporting verbose format).dispatchCommand name args) := by
  rintro state _ ⟨transcript, rfl⟩
  exact ⟨rfl, transcript, rfl⟩

theorem alike_command (line : Line) (name : String) (args : List String) :
    (interpreter.command line name args).Alike
      ((interpreter.reporting verbose format).command line name args) := by
  refine alike_get_bind fun state _ => ?_
  show Run.Alike (if Text.trimmed (state.vars.resolveString name) = "" then _ else _)
    (if Text.trimmed (state.vars.resolveString name) = "" then _ else _)
  split
  · exact interpreter.alike_record verbose format _
  · exact (interpreter.alike_dispatchCommand verbose format _ _).bind fun _ =>
      interpreter.alike_record verbose format _

theorem alike_update (line : Line) (changed : Except VariableFault Variables) :
    (interpreter.update line changed).Alike
      ((interpreter.reporting verbose format).update line changed) := by
  cases changed with
  | ok vars =>
    exact (alike_modify fun _ transcript => ⟨transcript, rfl⟩).bind fun _ =>
      interpreter.alike_record verbose format _
  | error fault => exact interpreter.alike_record verbose format _

/-- The format decides where an echo goes, and its text is recorded in both. -/
theorem alike_perform (line : Line) (directive : Directive) :
    (interpreter.perform line directive).Alike
      ((interpreter.reporting verbose format).perform line directive) := by
  refine alike_get_bind fun state _ => ?_
  cases directive with
  | set | exported | unset => exact interpreter.alike_update verbose format line _
  | echo text =>
    exact (alike_modify fun _ _ => ⟨_, rfl⟩).bind fun _ => interpreter.alike_record verbose format _
  | onError => exact interpreter.alike_record verbose format _
  | opens | divides | closes => exact alike_pure true

theorem alike_step (line : Line) (policy : Policy) :
    (interpreter.step line policy).Alike
      ((interpreter.reporting verbose format).step line policy) := by
  obtain ⟨number, raw, content⟩ := line
  cases content with
  | blank | comment =>
    exact (alike_modify fun _ transcript => ⟨transcript, rfl⟩).bind fun _ => alike_pure _
  | command name args =>
    exact (interpreter.alike_command verbose format _ name args).bind fun _ => alike_pure _
  | directive keyword body =>
    unfold step
    dsimp only
    split
    · exact alike_fail _
    · exact (interpreter.alike_perform verbose format _ _).bind fun _ => alike_pure _

/-! ## Blocks -/

/-- The relation has no need of a grade. -/
theorem simulation_reporting : Simulation interpreter (interpreter.reporting verbose format)
    fun _ => State.SameButTranscript where
  limit := rfl
  mono _ := id
  vars_eq := by
    rintro _ state _ ⟨transcript, rfl⟩
    rfl
  files_eq := by
    rintro _ state _ ⟨transcript, rfl⟩
    rfl
  failures_eq := by
    rintro _ state _ ⟨transcript, rfl⟩
    rfl
  vars := by
    rintro _ state _ ⟨transcript, rfl⟩ vars
    exact ⟨transcript, rfl⟩
  catchDepth := by
    rintro _ state _ ⟨transcript, rfl⟩ change
    exact ⟨transcript, rfl⟩
  reject line failure := interpreter.alike_record verbose format _

/-- A part of a block does the same under every policy. -/
def BodyAlike (body body' : Body σ) : Prop :=
  ∀ policy, (body policy).Alike (body' policy)

theorem alike_block (line : Line) (opening : Opening) {body body' : Body σ}
    (hbody : BodyAlike body body') {run run' : List Line → Body σ}
    {parts : List (Line × List Line)} (hparts : ∀ part ∈ parts, BodyAlike (run part.2) (run' part.2))
    (policy : Policy) :
    (interpreter.block line opening body (partsBy run parts) policy).Alike
      ((interpreter.reporting verbose format).block line opening body' (partsBy run' parts)
        policy) := by
  intro state state' hrelated
  have hsimulates : PartsSimulate (fun _ => State.SameButTranscript) (partsBy run parts)
      (partsBy run' parts) :=
    partsSimulate_partsBy fun part hpart policy _ => hparts part hpart policy
  have simulation := interpreter.simulation_reporting verbose format
  -- The grade does not show in the relation, so no argument tells it.
  exact @Simulation.simulates_block _ _ _ _ _ simulation _ _ _ _ 0 line opening
    (fun policy _ => hbody policy) hsimulates policy state state' hrelated

/-! ## Ranges -/

theorem alike_run (lines : List Line) :
    BodyAlike (interpreter.run lines) ((interpreter.reporting verbose format).run lines) := by
  intro policy
  induction lines using lines_induction generalizing policy with
  | nil =>
    rw [run_nil, run_nil]
    exact alike_pure _
  | line line rest hopening ih =>
    rw [run_cons_of_opening?_eq_none _ hopening, run_cons_of_opening?_eq_none _ hopening]
    refine (interpreter.alike_step verbose format line policy).bind fun next => ?_
    cases next with
    | none => exact alike_pure _
    | some next => exact ih next
  | unmatched line opening rest hopening hcut =>
    rw [run_cons_of_cutBlock_eq_none _ hopening hcut, run_cons_of_cutBlock_eq_none _ hopening hcut]
    exact alike_fail _
  | block line opening rest cut hopening hcut hbody hparts hrest =>
    rw [run_cons_of_cutBlock_eq_some _ hopening hcut, run_cons_of_cutBlock_eq_some _ hopening hcut]
    refine (interpreter.alike_block verbose format line opening hbody hparts policy).bind
      fun flow => ?_
    cases flow with
    | completed => exact hrest policy
    | stopped => exact alike_pure _

theorem alike_runRange (lines : List Line) (start stop : Nat) (policy : Policy) :
    (interpreter.runRange lines start stop policy).Alike
      ((interpreter.reporting verbose format).runRange lines start stop policy) :=
  interpreter.alike_run verbose format ((lines.take stop).drop start) policy

/-- Runs of a range that differ in what is reported come to the same outcome, and leave states that
differ in their transcripts at most: the variables, the exports, the process and the world are the same,
and so are the results and what is counted. With a log of the calls beside the state of the dispatcher,
the two runs add the same calls to it. -/
theorem runRange_reporting (lines : List Line) (start stop : Nat) (policy : Policy) (state : State σ)
    (calls : List Call) :
    let ran := (interpreter.runRange lines start stop policy).apply state
    let ran' := ((interpreter.reporting verbose format).runRange lines start stop policy).apply state
    let logged := (interpreter.logged.runRange lines start stop policy).apply (state.withCalls calls)
    let logged' := ((interpreter.reporting verbose format).logged.runRange lines start stop
      policy).apply (state.withCalls calls)
    ran'.1 = ran.1 ∧ ran'.2 = { ran.2 with transcript := ran'.2.transcript } ∧
      logged'.2.world.state.2 = logged.2.world.state.2 := by
  intro ran ran' logged logged'
  obtain ⟨houtcome, transcript, hafter⟩ : ran'.1 = ran.1 ∧ ran.2.SameButTranscript ran'.2 :=
    interpreter.alike_runRange verbose format lines start stop policy _ _
      state.sameButTranscript_refl
  obtain ⟨-, _, hlogged⟩ : logged'.1 = logged.1 ∧ logged.2.SameButTranscript logged'.2 :=
    interpreter.logged.alike_runRange verbose format lines start stop policy _ _
      (state.withCalls calls).sameButTranscript_refl
  refine ⟨houtcome, ?_, ?_⟩
  · rw [hafter]
  · rw [hlogged]

end Interpreter

end BatchScript
