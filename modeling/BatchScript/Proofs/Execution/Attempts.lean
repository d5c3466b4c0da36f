import BatchScript.Proofs.Execution.Activations

/-!
# Attempts

What a `@try` does is told by the runs of its segments (`attemptRuns`): the body is run once, to its end
whatever fails in it, then the `@catch` if there is one and a line of the body has failed, and then the
`@finally` if there is one. Nothing else is recorded, and what stops the attempt is said by
`attempt_noted`. A body that is entered under `continue` and does not change the policy at its own level
goes on through all its lines (`Walk.exists_to_level`).
-/

namespace BatchScript

variable {σ : Type}

/-- The state with another number of attempts that are being run. -/
def State.atDepth (state : State σ) (depth : Nat) : State σ :=
  { state with catchDepth := depth }

theorem State.atDepth_of_eq {state : State σ} {depth : Nat} (h : state.catchDepth = depth) :
    state.atDepth depth = state := by
  subst h
  rfl

namespace Interpreter

/-- What leaves the number of attempts as it was is run with one more of them being run, if there is a
`@catch`. -/
theorem covered_apply {run : Run σ Flow}
    (h : ∀ state, (run.apply state).2.catchDepth = state.catchDepth) (hasCatch : Bool)
    (state : State σ) :
    (covered hasCatch run).apply state =
      ((run.apply (state.atDepth (state.catchDepth + if hasCatch then 1 else 0))).1,
        (run.apply (state.atDepth (state.catchDepth + if hasCatch then 1 else 0))).2.atDepth
          state.catchDepth) := by
  cases hasCatch with
  | false =>
    show run.apply state = ((run.apply state).1, (run.apply state).2.atDepth state.catchDepth)
    rw [State.atDepth_of_eq (h state)]
  | true =>
    show (_, (run.apply (state.atDepth (state.catchDepth + 1))).2.atDepth
      ((run.apply (state.atDepth (state.catchDepth + 1))).2.catchDepth - 1)) = _
    rw [h]
    rfl

/-- What an attempt does at its end, when it has come to a flow. -/
def cleanUp (cleanup? : Option (Body σ)) (policy : Policy) (flow : Flow) : Run σ Flow :=
  match cleanup? with
  | none => return flow
  | some cleanup => do
    return if (← cleanup policy).under policy = .stopped then .stopped else flow

/-- After the body an attempt handles its failures, and then cleans up. -/
theorem attempt_apply {body : Body σ} {parts : List (Line × Body σ)} {policy : Policy}
    {state between : State σ} {ending : Flow}
    (hdepth : ∀ state, ((body .continue).apply state).2.catchDepth = state.catchDepth)
    (hbody : (body .continue).apply (state.atDepth
      (state.catchDepth + if (part? parts .catch).isSome then 1 else 0)) = (.ok ending, between)) :
    (attempt body parts policy).apply state =
      (handle (state.failures < between.failures) (part? parts .catch) policy >>=
        cleanUp (part? parts .finally) policy).apply (between.atDepth state.catchDepth) := by
  unfold attempt
  dsimp only
  rw [Run.bind_apply, Run.get_apply]
  dsimp only
  rw [Run.bind_apply, covered_apply hdepth, hbody]
  rfl

variable (interpreter : Interpreter σ) (lines : List Line) (span : Span) (policy : Policy)
  (state : State σ)

/-! ## Runs of the segments -/

/-- The run of the body of an attempt, to its end whatever fails in it. If there is a `@catch`, one
more attempt is being run meanwhile. -/
def bodyRun : Activation σ :=
  span.activation span.opener .continue
    (state.atDepth (state.catchDepth + if (span.branch? lines .catch).isSome then 1 else 0))

/-- Whether a line of the body has failed. -/
def bodyFails : Bool :=
  (interpreter.recorded lines (bodyRun lines span state)).any (!·.success)

/-- The state after the body. -/
def afterBody : State σ :=
  (interpreter.ended lines (bodyRun lines span state)).atDepth state.catchDepth

/-- The run of a handler in a state, if there is one and it is needed. -/
def handlerRun? (needed : Bool) (handler? : Option Nat) : Option (Activation σ) :=
  if needed then handler?.map (span.activation · policy state) else none

/-- The run of the `@catch`, if a line of the body has failed and there is one. -/
def catchRun? : Option (Activation σ) :=
  handlerRun? span policy (interpreter.afterBody lines span state)
    (interpreter.bodyFails lines span state) (span.branch? lines .catch)

/-- The state after the body and the `@catch`. -/
def afterCatch : State σ :=
  interpreter.reached lines (interpreter.afterBody lines span state)
    (interpreter.catchRun? lines span policy state).toList

/-- The run of the `@finally`, if there is one. -/
def finallyRun? : Option (Activation σ) :=
  handlerRun? span policy (interpreter.afterCatch lines span policy state) true
    (span.branch? lines .finally)

/-- The state after all segments of an attempt. -/
def afterFinally : State σ :=
  interpreter.reached lines (interpreter.afterCatch lines span policy state)
    (interpreter.finallyRun? lines span policy state).toList

/-- The runs of the segments of an attempt, in their order. -/
def attemptRuns : List (Activation σ) :=
  bodyRun lines span state :: ((interpreter.catchRun? lines span policy state).toList ++
    (interpreter.finallyRun? lines span policy state).toList)

/-- A line of the body has failed and there is no `@catch`, or the `@catch` is stopped, or the
`@finally` is. -/
def Unhandled : Prop :=
  (interpreter.bodyFails lines span state = true ∧ span.branch? lines .catch = none) ∨
    (∃ run ∈ interpreter.catchRun? lines span policy state, interpreter.Stops lines run) ∨
    ∃ run ∈ interpreter.finallyRun? lines span policy state, interpreter.Stops lines run

/-! ## Steps of an attempt -/

variable {interpreter lines span policy state}

theorem noted_of_succeeds {marker : Nat}
    (h : BodySucceeds (interpreter.runRange lines (marker + 1) (span.segmentEnd marker)))
    (policy : Policy) (state : State σ) (kept : List (Activation σ)) :
    ∃ flow, interpreter.outcome lines (span.activation marker policy state) = .ok flow ∧
      (interpreter.notedRange lines (marker + 1) (span.segmentEnd marker) policy).apply
        (state.beside kept) = (.ok flow,
          (interpreter.ended lines (span.activation marker policy state)).beside
            (kept ++ [span.activation marker policy state])) := by
  obtain ⟨flow, hflow⟩ := h policy state
  have houtcome : interpreter.outcome lines (span.activation marker policy state) = .ok flow := hflow
  exact ⟨flow, houtcome, Prod.ext houtcome rfl⟩

/-- The `@catch` of an attempt is run if it is needed. -/
theorem handle_noted {handler? : Option Nat}
    (h : ∀ marker, handler? = some marker →
      BodySucceeds (interpreter.runRange lines (marker + 1) (span.segmentEnd marker)))
    (failed : Bool) (policy : Policy) (state : State σ) (kept : List (Activation σ)) :
    ∃ flow,
      (handle failed (handler?.map fun marker =>
        interpreter.notedRange lines (marker + 1) (span.segmentEnd marker)) policy).apply
          (state.beside kept) = (.ok flow,
            (interpreter.reached lines state
              (handlerRun? span policy state failed handler?).toList).beside
                (kept ++ (handlerRun? span policy state failed handler?).toList)) ∧
      (flow = .stopped ↔ policy = .abort ∧ ((failed = true ∧ handler? = none) ∨
        ∃ run ∈ handlerRun? span policy state failed handler?, interpreter.Stops lines run)) := by
  cases failed with
  | false =>
    refine ⟨.completed, ?_, by simp [handlerRun?]⟩
    show (_, _) = (_, State.beside _ (kept ++ []))
    rw [List.append_nil]
    rfl
  | true =>
    cases handler? with
    | none =>
      refine ⟨Flow.stopped.under policy, ?_, by simp [handlerRun?, Flow.under_eq_stopped_iff]⟩
      show (_, _) = (_, State.beside _ (kept ++ []))
      rw [List.append_nil]
      rfl
    | some marker =>
      obtain ⟨flow, houtcome, hnoted⟩ := noted_of_succeeds (h marker rfl) policy state kept
      refine ⟨flow.under policy, ?_, ?_⟩
      · show Run.apply (do return (← interpreter.notedRange lines _ _ policy).under policy) _ = _
        rw [Run.bind_apply, hnoted]
        rfl
      · simp [handlerRun?, Flow.under_eq_stopped_iff, Stops, houtcome]

/-- The `@finally` of an attempt is run, whatever has come of the attempt before. -/
theorem cleanup_noted {cleanup? : Option Nat}
    (h : ∀ marker, cleanup? = some marker →
      BodySucceeds (interpreter.runRange lines (marker + 1) (span.segmentEnd marker)))
    (flow : Flow) (policy : Policy) (state : State σ) (kept : List (Activation σ)) :
    ∃ last,
      (cleanUp (cleanup?.map fun marker =>
        interpreter.notedRange lines (marker + 1) (span.segmentEnd marker)) policy flow).apply
          (state.beside kept) = (.ok last,
            (interpreter.reached lines state
              (handlerRun? span policy state true cleanup?).toList).beside
                (kept ++ (handlerRun? span policy state true cleanup?).toList)) ∧
      (last = .stopped ↔ flow = .stopped ∨ (policy = .abort ∧
        ∃ run ∈ handlerRun? span policy state true cleanup?, interpreter.Stops lines run)) := by
  cases cleanup? with
  | none =>
    refine ⟨flow, ?_, by simp [handlerRun?]⟩
    show (_, _) = (_, State.beside _ (kept ++ []))
    rw [List.append_nil]
    rfl
  | some marker =>
    obtain ⟨ending, houtcome, hnoted⟩ := noted_of_succeeds (h marker rfl) policy state kept
    refine ⟨if ending.under policy = .stopped then .stopped else flow, ?_, ?_⟩
    · show Run.apply (do return if (← interpreter.notedRange lines _ _ policy).under policy = .stopped
        then .stopped else flow) _ = _
      rw [Run.bind_apply, hnoted]
      rfl
    · have hstops : (∃ run ∈ handlerRun? span policy state true (some marker),
          interpreter.Stops lines run) ↔ ending = .stopped := by
        simp [handlerRun?, Stops, houtcome]
      rw [hstops, ← Flow.under_eq_stopped_iff]
      split
      next hunder => simp [hunder]
      next hunder => simp [hunder]

/-- Whether lines of the body have failed is told by the count of failures. -/
theorem decide_failures_lt :
    decide (state.failures < (interpreter.afterBody lines span state).failures) =
      interpreter.bodyFails lines span state :=
  Bool.eq_iff_iff.2 (decide_eq_true_iff.trans
    (interpreter.records_recorded lines (bodyRun lines span state)).failures_lt_iff)

section Segments

variable (hsegments : ∀ marker, (marker = span.opener ∨ marker ∈ span.branches) →
  BodySucceeds (interpreter.runRange lines (marker + 1) (span.segmentEnd marker)))

include hsegments

/-- An attempt runs its segments, and is stopped under `abort` if a failure is not handled. -/
theorem attempt_noted (line : Line) :
    ∃ flow,
      (interpreter.notingBlockOn lines span.opener span line .attempt policy).apply
        (state.beside []) = (.ok flow, (interpreter.afterFinally lines span policy state).beside
          (interpreter.attemptRuns lines span policy state)) ∧
      (flow = .stopped ↔ policy = .abort ∧ interpreter.Unhandled lines span policy state) := by
  have hpart : ∀ branch, part? (interpreter.notedSegments lines span) branch =
      (span.branch? lines branch).map fun marker =>
        interpreter.notedRange lines (marker + 1) (span.segmentEnd marker) :=
    part?_filterMap lines span _
  have hbranch : ∀ branch marker, span.branch? lines branch = some marker →
      BodySucceeds (interpreter.runRange lines (marker + 1) (span.segmentEnd marker)) :=
    fun _ _ h => hsegments _ (.inr (Span.mem_branches_of_branch? h))
  have hdepth : ∀ state, (((interpreter.notedRange lines (span.opener + 1)
      (span.segmentEnd span.opener)) .continue).apply state).2.catchDepth = state.catchDepth :=
    fun state => interpreter.catchDepth_runRange lines _ _ .continue state.plain
  -- The three steps, each on the state that the one before it leaves.
  obtain ⟨ending, -, hbody⟩ := noted_of_succeeds (hsegments span.opener (.inl rfl)) .continue
    (bodyRun lines span state).state []
  obtain ⟨caught, hcatch, hcaught⟩ := handle_noted (hbranch .catch)
    (interpreter.bodyFails lines span state) policy (interpreter.afterBody lines span state)
    [bodyRun lines span state]
  obtain ⟨flow, hfinally, hflow⟩ := cleanup_noted (hbranch .finally) caught policy
    (interpreter.afterCatch lines span policy state)
    ([bodyRun lines span state] ++ (interpreter.catchRun? lines span policy state).toList)
  refine ⟨flow, ?_, ?_⟩
  · show Run.apply (attempt _ (interpreter.notedSegments lines span) policy) _ = _
    rw [attempt_apply hdepth (by rw [hpart, Option.isSome_map]; exact hbody), hpart, hpart]
    show Run.apply (handle (decide (state.failures < (interpreter.afterBody lines span state).failures))
      _ policy >>= _) ((interpreter.afterBody lines span state).beside [bodyRun lines span state]) = _
    rw [decide_failures_lt, Run.bind_apply, hcatch]
    exact hfinally
  · rw [hflow, hcaught, ← and_or_left, or_assoc]
    rfl

end Segments

/-! ### Results -/

theorem results_handlerRun? (needed : Bool) (handler? : Option Nat) :
    (interpreter.reached lines state
      (handlerRun? span policy state needed handler?).toList).results.toList =
        state.results.toList ++
          (handlerRun? span policy state needed handler?).toList.flatMap
            (interpreter.recorded lines) := by
  cases needed with
  | false => exact (List.append_nil _).symm
  | true =>
    cases handler? with
    | none => exact (List.append_nil _).symm
    | some marker =>
      show (interpreter.ended lines (span.activation marker policy state)).results.toList =
        state.results.toList ++ [span.activation marker policy state].flatMap _
      rw [List.flatMap_singleton]
      exact (interpreter.records_recorded lines (span.activation marker policy state)).results

/-- Nothing is recorded by an attempt but by its segments. -/
theorem results_afterFinally :
    (interpreter.afterFinally lines span policy state).results.toList = state.results.toList ++
      (interpreter.attemptRuns lines span policy state).flatMap (interpreter.recorded lines) := by
  have hbody : (interpreter.afterBody lines span state).results.toList = state.results.toList ++
      interpreter.recorded lines (bodyRun lines span state) :=
    (interpreter.records_recorded lines (bodyRun lines span state)).results
  have hcatch : (interpreter.afterCatch lines span policy state).results.toList = _ :=
    results_handlerRun? _ _
  have hfinally : (interpreter.afterFinally lines span policy state).results.toList = _ :=
    results_handlerRun? _ _
  rw [hfinally, hcatch, hbody, attemptRuns, List.flatMap_cons, List.flatMap_append,
    List.append_assoc, List.append_assoc]
  rfl

end Interpreter

/-! ## Lines of a level -/

namespace Validation

/-- A position of a range at which no block of the range is open. -/
structure AtLevel (limits : Limits) (lines : List Line) (start stop position : Nat) : Prop where
  start_le : start ≤ position
  lt_stop : position < stop
  depthAt_eq : depthAt limits lines position = depthAt limits lines start

end Validation

namespace Interpreter

open Validation

variable {interpreter : Interpreter σ} {limits : Limits} {lines : List Line}
  {start stop position : Nat}

variable (interpreter lines) in
/-- The run of a range comes to a position and takes its turn there to the end. -/
def Attempted (activation : Activation σ) (position : Nat) : Prop :=
  ∃ passed before line run next after,
    interpreter.Walk lines activation.stop activation.policy activation.start activation.state
      position passed before ∧
    interpreter.Turn lines activation.stop position line run next ∧
    (run (inForce activation.policy passed)).apply before = (.ok .completed, after)

section Accepted

variable (h : Accepts limits [] lines) (hentered : Entered lines start stop)

include h hentered

/-- A walk comes to places at the level of its range only. -/
theorem Walk.atLevel {policy : Policy} {first state : State σ} {passed : List Line}
    (hwalk : interpreter.Walk lines stop policy start first position passed state)
    (hstop : position < stop) : AtLevel limits lines start stop position where
  start_le := Nat.le_trans (Nat.le_add_right _ _) hwalk.length_le.1
  lt_stop := hstop
  depthAt_eq :=
    (h.level (hwalk.entered hentered)).same.symm.trans (h.level hentered).same

/-- A turn goes no further than the next place at the level of its range. -/
theorem Turn.next_le {line : Line} {run : Body σ} {next : Nat}
    (hturn : interpreter.Turn lines stop start line run next)
    (hlevel : AtLevel limits lines start stop position) (hstart : start < position) :
    next ≤ position := by
  cases hturn with
  | line => exact hstart
  | block hbefore _ _ hfind =>
    obtain ⟨rfl, -, hspan⟩ := (h.level hentered).delimits_of_find h hbefore hfind
    refine Nat.lt_of_not_le fun hinside => ?_
    -- Inside the block more blocks are open than at its opener.
    exact Nat.ne_of_gt (hspan.depthAt_lt hstart hinside) hlevel.depthAt_eq

omit hentered in
/-- From wherever a walk under `continue` has come to, it goes on to the next places at the level of the
range, if no line on the way changes the policy. -/
theorem Walk.exists_to_level (hlevel : AtLevel limits lines start stop position)
    (hcontinue : ∀ other < position, AtLevel limits lines start stop other →
      ∀ line, lines[other]? = some line → line.onError? ≠ some .abort)
    {first between : State σ} {passed : List Line} {reached : Nat}
    (hentered : Entered lines start stop)
    (hwalk : interpreter.Walk lines stop .continue start first reached passed between)
    (hforce : inForce .continue passed = .continue) (hreached : reached ≤ position) :
    ∃ passed before, interpreter.Walk lines stop .continue start first position passed before ∧
      inForce .continue passed = .continue := by
  -- Every turn leaves fewer lines before the position.
  induction hsize : position - reached using Nat.strongRecOn generalizing reached passed between with
  | ind size ih =>
  rcases Nat.eq_or_lt_of_le hreached with rfl | hlt
  · exact ⟨passed, between, hwalk, hforce⟩
  · have hat := hwalk.atLevel h hentered (Nat.lt_trans hlt hlevel.lt_stop)
    have hrest : AtLevel limits lines reached stop position :=
      ⟨hreached, hlevel.lt_stop, hlevel.depthAt_eq.trans hat.depthAt_eq.symm⟩
    have hentered' := hwalk.entered hentered
    obtain ⟨line, run, next, hturn⟩ :=
      exists_turn h interpreter hentered' (Nat.lt_trans hlt hlevel.lt_stop)
    obtain ⟨after, hafter⟩ := hturn.exists_completed h hentered' between
    have hset : line.onError? ≠ some .abort :=
      hcontinue reached hlt hat line hturn.getElem?_eq
    refine ih (position - next) (by have := hturn.lt; omega)
      (hwalk.turn hturn (hforce.symm ▸ hafter)) ?_ (hturn.next_le h hentered' hrest hlt) rfl
    rw [inForce_concat, hforce]
    rcases hpolicy : line.onError? with _ | _ | _
    · rfl
    · rfl
    · exact absurd hpolicy hset

/-- Under `continue` every line at the level of a range is attempted, whatever fails before it, if no
line before it at this level says to abort. -/
theorem attempted (hlevel : AtLevel limits lines start stop position)
    (hcontinue : ∀ other < position, AtLevel limits lines start stop other →
      ∀ line, lines[other]? = some line → line.onError? ≠ some .abort) (first : State σ) :
    interpreter.Attempted lines ⟨start, stop, .continue, first⟩ position := by
  have hhere : interpreter.Walk lines stop .continue start first start [] first := .here
  obtain ⟨passed, before, hwalk, hforce⟩ :=
    hhere.exists_to_level h hlevel hcontinue hentered rfl hlevel.start_le
  have hreached := hwalk.entered hentered
  obtain ⟨line, run, next, hturn⟩ := exists_turn h interpreter hreached hlevel.lt_stop
  obtain ⟨after, hafter⟩ := hturn.exists_completed h hreached before
  exact ⟨passed, before, line, run, next, after, hwalk, hturn, hforce.symm ▸ hafter⟩

end Accepted

/-! ## The protocol -/

/-- How a `@try` is run in a range that goes on to `stop`: its body once, then its `@catch` if a line of
the body has failed and there is one, and then its `@finally` if there is one, whatever has come of the
segments before. Nothing else is recorded. The attempt is stopped under `abort` if a failure is not
handled or a later segment is stopped, else the range goes on after the terminator. All lines at the
level of the body are attempted up to the first one that says to abort. -/
structure Attempts (interpreter : Interpreter σ) (limits : Limits) (lines : List Line) (span : Span)
    (stop : Nat) (line : Line) (policy : Policy) (state : State σ) (flow : Flow) : Prop where
  runs : (interpreter.blockOn lines span.opener span line .attempt policy).apply state =
    (.ok flow, interpreter.afterFinally lines span policy state)
  once : interpreter.activations lines span.opener span line .attempt policy state =
    interpreter.attemptRuns lines span policy state
  results : (interpreter.afterFinally lines span policy state).results.toList =
    state.results.toList ++
      (interpreter.attemptRuns lines span policy state).flatMap (interpreter.recorded lines)
  resumes : (interpreter.runRange lines span.opener stop policy).apply state =
    match flow with
    | .completed => (interpreter.runRange lines (span.terminator + 1) stop policy).apply
      (interpreter.afterFinally lines span policy state)
    | .stopped => (.ok .stopped, interpreter.afterFinally lines span policy state)
  stopped_iff : flow = .stopped ↔
    policy = .abort ∧ interpreter.Unhandled lines span policy state
  attempted : ∀ position,
    AtLevel limits lines (span.opener + 1) (span.segmentEnd span.opener) position →
    (∀ other < position, AtLevel limits lines (span.opener + 1) (span.segmentEnd span.opener) other →
      ∀ line, lines[other]? = some line → line.onError? ≠ some .abort) →
    interpreter.Attempted lines (bodyRun lines span state) position

end Interpreter

namespace Validation.Begins

variable {limits : Limits} {lines : List Line} {line : Line} {span : Span} {stop : Nat}

theorem exists_attempts (hbegins : Begins limits lines line .attempt span stop)
    (h : Accepts limits [] lines) (interpreter : Interpreter σ) (policy : Policy) (state : State σ) :
    ∃ flow, interpreter.Attempts limits lines span stop line policy state flow := by
  obtain ⟨flow, hnoted, hflow⟩ := Interpreter.attempt_noted
    (fun marker hmarker => hbegins.segments_succeed h interpreter hmarker) line
  obtain ⟨hruns, honce⟩ := Interpreter.blockOn_of_noting hnoted
  refine ⟨flow, hruns, honce, Interpreter.results_afterFinally, ?_, hflow, ?_⟩
  · rw [hbegins.runRange_eq, Run.followedBy, Run.bind_apply]
    have hblock : (interpreter.block line .attempt
        (interpreter.runRange lines (span.opener + 1) (span.segmentEnd span.opener))
        (interpreter.segments lines span) policy).apply state = _ := hruns
    rw [hblock]
    cases flow <;> rfl
  · intro position hlevel hcontinue
    exact Interpreter.attempted h (hbegins.entered.body hbegins.opener_lt hbegins.find) hlevel
      hcontinue _

end Validation.Begins

namespace Script

/-- In an accepted script every `@try` that a run comes to is found, with its terminator, and is run
as the protocol says, under every policy, in every state and with every dispatcher. -/
theorem attempt_runs {script : Script} {limits : Limits} {warnings : List Diagnostic}
    (h : script.ensureValid limits = .ok warnings) {start stop : Nat}
    (hentered : Entered script.lines start stop) (hstart : start < stop) {line : Line}
    (hline : script.lines[start]? = some line)
    (hopening : Directive.opening? line = some .attempt) :
    ∃ span, span.opener = start ∧ Span.find script.lines start stop = .ok span ∧
      roleAt script.lines span.terminator = some (.closes .attempt) ∧
      ∀ {σ : Type} (interpreter : Interpreter σ) (policy : Policy) (state : State σ),
        ∃ flow, interpreter.Attempts limits script.lines span stop line policy state flow := by
  have haccepts := accepts_of_ensureValid h
  obtain ⟨span, rfl, hbegins⟩ := haccepts.exists_begins hentered hstart hline hopening
  exact ⟨span, rfl, hbegins.find, hbegins.closes, hbegins.exists_attempts haccepts⟩

/-- An attempt whose body fails before its last line. -/
def guarded : Script :=
  .parse "@try
fail
build
@catch
repair
@finally
clean
@endtry"

theorem attempt_runs_sample :
    guarded.ensureValid {} = .ok [] ∧ Entered guarded.lines 0 8 ∧
      guarded.lines[0]? = some ⟨1, "@try", .directive "try" ""⟩ ∧
      Directive.opening? ⟨1, "@try", .directive "try" ""⟩ = some .attempt ∧
      ∃ span, span.opener = 0 ∧ Span.find guarded.lines 0 8 = .ok span ∧
        roleAt guarded.lines span.terminator = some (.closes .attempt) ∧
        ∀ {σ : Type} (interpreter : Interpreter σ) (policy : Policy) (state : State σ),
          ∃ flow, interpreter.Attempts {} guarded.lines span 8 ⟨1, "@try", .directive "try" ""⟩ policy
            state flow := by
  have hvalid : guarded.ensureValid {} = .ok [] := ensureValid_of_nil (by decide +kernel)
  have hentered : Entered guarded.lines 0 8 := .whole
  have hline : guarded.lines[0]? = some ⟨1, "@try", .directive "try" ""⟩ := by decide +kernel
  have hopening : Directive.opening? ⟨1, "@try", .directive "try" ""⟩ = some .attempt := by
    decide +kernel
  exact ⟨hvalid, hentered, hline, hopening,
    attempt_runs hvalid hentered (by decide) hline hopening⟩

end Script

end BatchScript
