import BatchScript.Proofs.Execution.Agreement
import BatchScript.Proofs.Execution.Calls

/-!
# The limit for loops

Each time that a `@while` is entered it runs its body no more often than the limit allows, and fails if
its condition is true once more (`exists_loops`). Apart from that the limit does nothing: a run that comes
to no loop that its guard refuses is the same run under every limit that is no smaller, and calls the
dispatcher alike (`limits_loops`). The calls are those of the interpreter with a log, which comes to such
a loop only if the interpreter without the log does (`Trips.unlogged`).
-/

namespace BatchScript

variable {σ : Type}

/-! ## Activations without a log -/

/-- The run of a range without the log of the calls. -/
def Activation.unlogged (activation : Activation (σ × List Call)) : Activation σ :=
  ⟨activation.start, activation.stop, activation.policy, activation.state.plain⟩

/-- A state with notes, without the logs of the calls. -/
def State.unlogged (state : State ((σ × List Call) × List (Activation (σ × List Call)))) :
    State (σ × List (Activation σ)) :=
  state.plain.plain.beside (state.world.state.2.map Activation.unlogged)

/-- Two states with notes that differ by the logs of the calls. -/
def State.Unlogged (_grade : Nat) (state : State (σ × List (Activation σ)))
    (state' : State ((σ × List Call) × List (Activation (σ × List Call)))) : Prop :=
  state = state'.unlogged

theorem State.record_unlogged (settings : Settings) (result : LineResult)
    (state : State ((σ × List Call) × List (Activation (σ × List Call)))) :
    state.unlogged.record settings result = (state.record settings result).unlogged := by
  unfold record
  cases result.success <;> cases settings.verbose <;> rfl

/-- A run that is logged does the same without the log. -/
theorem Run.Logs.apply_plain {α : Type} {run : Run σ α} {logged : Run (σ × List Call) α}
    (h : run.Logs logged) (state : State (σ × List Call)) :
    run.apply state.plain = ((logged.apply state).1, (logged.apply state).2.plain) := by
  obtain ⟨events, -, happly⟩ := h state.plain state.world.state.2
  have hlogged : logged.apply state = _ := happly
  rw [hlogged]
  rfl

namespace Interpreter

variable (interpreter : Interpreter σ) (lines : List Line)

theorem outcome_unlogged (activation : Activation (σ × List Call)) :
    interpreter.outcome lines activation.unlogged = interpreter.logged.outcome lines activation :=
  congrArg Prod.fst ((interpreter.logs_run _ activation.policy).apply_plain activation.state)

theorem ended_unlogged (activation : Activation (σ × List Call)) :
    interpreter.ended lines activation.unlogged =
      (interpreter.logged.ended lines activation).plain :=
  congrArg Prod.snd ((interpreter.logs_run _ activation.policy).apply_plain activation.state)

theorem reached_unlogged (state : State (σ × List Call)) (runs : List (Activation (σ × List Call))) :
    interpreter.reached lines state.plain (runs.map Activation.unlogged) =
      (interpreter.logged.reached lines state runs).plain := by
  unfold reached
  rw [List.getLast?_map]
  cases runs.getLast? with
  | none => rfl
  | some run => exact interpreter.ended_unlogged lines run

theorem goesOn_unlogged {run : Activation (σ × List Call)} :
    interpreter.GoesOn lines run.unlogged ↔ interpreter.logged.GoesOn lines run := by
  unfold GoesOn
  rw [outcome_unlogged]
  rfl

/-! ## Blocks without a log -/

/-- With its activations noted a block does the same with and without a log. -/
theorem simulation_unlogged :
    Simulation interpreter.noting interpreter.logged.noting State.Unlogged where
  limit := rfl
  mono _ := id
  vars_eq := by
    rintro _ _ state rfl
    rfl
  files_eq := by
    rintro _ _ state rfl
    rfl
  failures_eq := by
    rintro _ _ state rfl
    rfl
  vars := by
    rintro _ _ state rfl vars
    rfl
  catchDepth := by
    rintro _ _ state rfl change
    rfl
  reject := by
    rintro _ line failure _ state rfl
    exact ⟨rfl, State.record_unlogged _ _ state⟩

theorem bodySimulates_unlogged (start stop : Nat) :
    BodySimulates State.Unlogged (interpreter.notedRange lines start stop)
      (interpreter.logged.notedRange lines start stop) := by
  rintro policy _ _ state rfl
  let activation : Activation (σ × List Call) := ⟨start, stop, policy, state.plain⟩
  refine ⟨(interpreter.outcome_unlogged lines activation).symm, ?_⟩
  show (interpreter.ended lines activation.unlogged).beside
      (state.world.state.2.map Activation.unlogged ++ [activation.unlogged]) =
    (interpreter.logged.ended lines activation).plain.beside
      ((state.world.state.2 ++ [activation]).map Activation.unlogged)
  rw [ended_unlogged, List.map_append]
  rfl

variable {interpreter lines} {position start stop : Nat} {span : Span} {line : Line}
  {opening : Opening} {policy : Policy}

/-- What a block does without the log of the calls, and its activations. -/
theorem blockOn_unlogged (state : State (σ × List Call)) :
    (interpreter.blockOn lines position span line opening policy).apply state.plain =
      (((interpreter.logged.blockOn lines position span line opening policy).apply state).1,
        ((interpreter.logged.blockOn lines position span line opening policy).apply state).2.plain) ∧
    interpreter.activations lines position span line opening policy state.plain =
      (interpreter.logged.activations lines position span line opening policy state).map
        Activation.unlogged := by
  have hparts : PartsSimulate State.Unlogged (interpreter.notedSegments lines span)
      (interpreter.logged.notedSegments lines span) :=
    forall₂_filterMap lines span fun _ _ => interpreter.bodySimulates_unlogged lines _ _
  have hstart : State.Unlogged 0 (state.plain.beside []) (state.beside []) := rfl
  obtain ⟨houtcome, hafter⟩ := interpreter.simulation_unlogged.simulates_block line opening
    (interpreter.bodySimulates_unlogged lines (position + 1) (span.segmentEnd position)) hparts policy
    hstart
  obtain ⟨hlogged, -⟩ :=
    interpreter.logged.noting_block lines position span line opening policy state
  have hnoted : (interpreter.notingBlockOn lines position span line opening policy).apply
      (state.plain.beside []) =
        (((interpreter.logged.notingBlockOn lines position span line opening policy).apply
            (state.beside [])).1,
          ((interpreter.logged.notingBlockOn lines position span line opening policy).apply
            (state.beside [])).2.unlogged) := Prod.ext houtcome.symm hafter
  rw [hlogged] at hnoted
  exact blockOn_of_noting hnoted

variable {state : State (σ × List Call)}

/-- What a turn does without the log of the calls. -/
theorem Turn.exists_unlogged {next : Nat} {run : Body (σ × List Call)}
    (h : interpreter.logged.Turn lines stop start line run next) :
    ∃ run', interpreter.Turn lines stop start line run' next ∧ ∀ policy state,
      (run' policy).apply (State.plain state) =
        (((run policy).apply state).1, ((run policy).apply state).2.plain) := by
  cases h with
  | line hstart hline hopening =>
    exact ⟨_, .line hstart hline hopening, fun policy =>
      ((interpreter.logs_act line).bind fun _ => Run.logs_pure _).apply_plain⟩
  | block hstart hline hopening hfind =>
    exact ⟨_, .block hstart hline hopening hfind, fun policy state => (blockOn_unlogged state).1⟩

theorem Exceeds.unlogged {condition : String} {bound : Nat}
    {runs : List (Activation (σ × List Call))}
    (h : interpreter.logged.Exceeds lines condition bound state runs) :
    interpreter.Exceeds lines condition bound state.plain (runs.map Activation.unlogged) where
  length := by rw [List.length_map, h.length]
  goesOn := List.forall_mem_map.2 fun run hmem =>
    (interpreter.goesOn_unlogged lines).2 (h.goesOn run hmem)
  value := by
    rw [reached_unlogged]
    exact h.value

/-- An interpreter with a log comes to loops that their guard refuses only where it would do so without
the log. -/
theorem Trips.unlogged {activation : Activation (σ × List Call)}
    (h : interpreter.logged.Trips lines activation) :
    interpreter.Trips lines activation.unlogged := by
  induction h with
  | here hstart hline hopening hfind hexceeds =>
    refine .here hstart hline hopening hfind ?_
    rw [(blockOn_unlogged _).2]
    exact hexceeds.unlogged
  | inside hstart hline hopening hfind hmem _ ih =>
    refine .inside hstart hline hopening hfind ?_ ih
    rw [(blockOn_unlogged _).2]
    exact List.mem_map_of_mem hmem
  | @later _ _ _ policy state _ _ _ hturn hrun _ ih =>
    obtain ⟨run', hturn', happly⟩ := hturn.exists_unlogged
    have hrun' := happly policy state
    rw [hrun] at hrun'
    exact .later hturn' hrun' ih

/-! ## The law of the limit -/

/-- A range comes to a loop that its guard refuses only if there is a loop in it. -/
theorem Trips.exists_loop {activation : Activation σ} (h : interpreter.Trips lines activation) :
    ∃ position line condition, activation.start ≤ position ∧ position < activation.stop ∧
      lines[position]? = some line ∧ Directive.opening? line = some (.loop condition) := by
  induction h with
  | here hstart hline hopening => exact ⟨_, _, _, Nat.le_refl _, hstart, hline, hopening⟩
  | inside hstart hline hopening hfind hmem _ ih =>
    obtain ⟨position, line, condition, hfirst, hlast, hloop⟩ := ih
    have hnested := (invokes_of_mem hstart hline hopening hfind hmem).nested
    exact ⟨position, line, condition, by omega, by omega, hloop⟩
  | later hturn _ _ ih =>
    obtain ⟨position, line, condition, hfirst, hlast, hloop⟩ := ih
    have hlt := hturn.lt
    dsimp only at hfirst hlast
    exact ⟨position, line, condition, by dsimp only; omega, hlast, hloop⟩

/-- Every `@while` obeys the law of loops, and if a run under one limit comes to no loop that its guard
refuses, then the run under a limit that is no smaller has the same outcome, leaves the same state, and
makes the same calls. -/
theorem limits_loops (interpreter : Interpreter σ) (lines : List Line) :
    (∀ {position stop : Nat} {line : Line} {condition : String} {span : Span},
      lines[position]? = some line → Directive.opening? line = some (.loop condition) →
      Span.find lines position stop = .ok span → ∀ (policy : Policy) (state : State σ),
      ∃ runs outcome after,
        interpreter.Loops lines position span line condition policy state runs outcome after) ∧
    ∀ {low high : Nat}, low ≤ high → ∀ (policy : Policy) (state : State σ),
      ¬ (interpreter.limited low).Trips lines ⟨0, lines.length, policy, state⟩ →
      ((interpreter.limited high).run lines policy).apply state =
          ((interpreter.limited low).run lines policy).apply state ∧
        ∀ calls, ((interpreter.limited high).logged.run lines policy).apply (state.withCalls calls) =
          ((interpreter.limited low).logged.run lines policy).apply (state.withCalls calls) := by
  refine ⟨fun hline hopening hfind => interpreter.exists_loops hline hopening hfind, ?_⟩
  intro low high hle policy state htrips
  have hlogged : ∀ calls, ¬ (interpreter.limited low).logged.Trips lines
      ⟨0, lines.length, policy, state.withCalls calls⟩ :=
    fun calls h => htrips h.unlogged
  have hsame : ∀ {τ : Type} (interpreter : Interpreter τ) (state : State τ),
      ¬ (interpreter.limited low).Trips lines ⟨0, lines.length, policy, state⟩ →
      ((interpreter.limited high).run lines policy).apply state =
        ((interpreter.limited low).run lines policy).apply state := by
    intro τ interpreter state htrips
    have hagrees : (interpreter.limited low).Agrees high lines ⟨0, lines.length, policy, state⟩ :=
      agrees_of_not_trips hle _ htrips
    rw [run_eq_runRange, run_eq_runRange]
    exact agrees_iff.1 hagrees
  exact ⟨hsame interpreter state htrips, fun calls =>
    hsame interpreter.logged (state.withCalls calls) (hlogged calls)⟩

end Interpreter

/-! ### A loop that needs all its rounds -/

/-- A loop that its first round ends. -/
def Script.once : Script :=
  .parse "@while $BUSY
@set BUSY = no
@endwhile
build"

/-- A state in which the loop has a round to run. -/
def State.busy : State Unit :=
  { State.sample with vars := { State.sample.vars with
      script := State.sample.vars.script.insert "BUSY" "yes" } }

theorem State.value_of_busy (state : State σ) :
    state.value "$BUSY" = .ok (Condition.isTrue (state.vars.resolve "$BUSY".toList)) := by
  have hread : Condition.read "$BUSY".toList = .truth "$BUSY".toList := by
    rw [Condition.read_eq]
    decide +kernel
  rw [value, Condition.holds, hread]
  rfl

namespace Interpreter

open Script

theorem line_once : once.lines[0]? = some ⟨1, "@while $BUSY", .directive "while" "$BUSY"⟩ := by
  decide +kernel

theorem opening?_once :
    Directive.opening? ⟨1, "@while $BUSY", .directive "while" "$BUSY"⟩ = some (.loop "$BUSY") := by
  decide +kernel

theorem find_once : Span.find once.lines 0 4 = .ok ⟨.loop, 0, 2, []⟩ := by
  decide +kernel

/-- One round is enough for the loop. -/
theorem not_trips_once :
    ¬ (sample.limited 1).Trips once.lines ⟨0, once.lines.length, .abort, State.busy⟩ := by
  have hlength : once.lines.length = 4 := by decide +kernel
  have hfirst : ∀ {activation : Activation Unit},
      (sample.limited 1).Trips once.lines activation → activation.start = 0 := by
    intro activation h
    obtain ⟨position, line, condition, hstart, -, hline, hopening⟩ := h.exists_loop
    have hnone : ∀ line ∈ once.lines.drop 1, Directive.opening? line = none := by decide +kernel
    cases position with
    | zero => exact Nat.le_zero.1 hstart
    | succ position =>
      rw [Nat.add_comm, ← List.getElem?_drop] at hline
      rw [hnone line (List.mem_of_getElem? hline)] at hopening
      cases hopening
  rw [hlength]
  intro h
  cases h with
  | here _ hline hopening hfind hexceeds =>
    cases hline.symm.trans line_once
    cases hopening.symm.trans opening?_once
    cases hfind.symm.trans find_once
    obtain ⟨runs, outcome, after, hloops⟩ :=
      (sample.limited 1).exists_loops line_once opening?_once find_once .abort State.busy
    rw [hloops.activations] at hexceeds
    obtain ⟨run, rfl⟩ := List.length_eq_one_iff.1 hexceeds.length
    have hstarts : run = ⟨1, 2, .abort, State.busy⟩ := hloops.starts 0 run rfl
    obtain ⟨ended, hrun, hvalue⟩ : ∃ ended, ((sample.limited 1).run
          ((once.lines.take 2).drop 1) .abort).apply State.busy = (.ok .completed, ended) ∧
        Condition.isTrue (ended.vars.resolve "$BUSY".toList) = false :=
      apply_run_of_ofLines? (fun ended => Condition.isTrue (ended.vars.resolve "$BUSY".toList))
        (by decide +kernel)
    have hended : (sample.limited 1).reached once.lines State.busy [run] = ended := by
      rw [hstarts]
      exact congrArg Prod.snd hrun
    have htrue := hexceeds.value
    rw [hended, State.value_of_busy, hvalue] at htrue
    cases htrue
  | inside hstart hline hopening hfind hmem h =>
    have hnested := (invokes_of_mem hstart hline hopening hfind hmem).nested
    have hzero := hfirst h
    omega
  | later hturn _ h =>
    exact absurd (hfirst h) (Nat.ne_of_gt hturn.lt.2)

/-- A loop that needs all the rounds that the smaller limit allows. -/
theorem limits_loops_sample :
    (once.lines[0]? = some ⟨1, "@while $BUSY", .directive "while" "$BUSY"⟩ ∧
      Directive.opening? ⟨1, "@while $BUSY", .directive "while" "$BUSY"⟩ = some (.loop "$BUSY") ∧
      Span.find once.lines 0 4 = .ok ⟨.loop, 0, 2, []⟩ ∧
      ∀ (policy : Policy) (state : State Unit), ∃ runs outcome after,
        sample.Loops once.lines 0 ⟨.loop, 0, 2, []⟩ ⟨1, "@while $BUSY", .directive "while" "$BUSY"⟩
          "$BUSY" policy state runs outcome after) ∧
    ¬ (sample.limited 1).Trips once.lines ⟨0, once.lines.length, .abort, State.busy⟩ ∧
      ((sample.limited 3).run once.lines .abort).apply State.busy =
          ((sample.limited 1).run once.lines .abort).apply State.busy ∧
        ∀ calls, ((sample.limited 3).logged.run once.lines .abort).apply (State.busy.withCalls calls) =
          ((sample.limited 1).logged.run once.lines .abort).apply (State.busy.withCalls calls) := by
  obtain ⟨hloops, hlimits⟩ := sample.limits_loops once.lines
  exact ⟨⟨line_once, opening?_once, find_once, hloops line_once opening?_once find_once⟩,
    not_trips_once, hlimits (by decide) .abort State.busy not_trips_once⟩

end Interpreter

end BatchScript
