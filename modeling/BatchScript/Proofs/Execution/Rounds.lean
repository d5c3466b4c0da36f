import BatchScript.Proofs.Execution.Activations

/-!
# Rounds of loops under a condition

A `@while` asks for its condition in the state that it has come to, and runs its body there if the
condition is true: a round (`Rounds`). Each time that the loop is entered it has a number of rounds of
its own. When these are used up and the condition is true once more, the guard refuses the loop
(`Exceeds`), and that is the only way in which a loop can record the result of the guard: no condition
fails with the same wording.
-/

namespace BatchScript

variable {σ : Type}

/-! ## Faults of conditions -/

/-- The wordings of the faults begin with different letters. -/
theorem EvaluationFault.eq_loopLimit {fault : EvaluationFault} {limit : Nat}
    (h : fault.message = (loopLimit limit).message) : ∃ other, fault = loopLimit other := by
  have hhead : ∀ {text : String} {first : Char} (rest : String), text.toList.head? = some first →
      (text ++ rest).toList.head? = some first := fun rest hfirst => by
    rw [String.toList_append, List.head?_append, hfirst]
    rfl
  have hlimit : (loopLimit limit).message.toList.head? = some '@' :=
    hhead _ (hhead _ (show "@while loop exceeded ".toList.head? = some '@' by decide +kernel))
  cases fault with
  | loopLimit other => exact ⟨other, rfl⟩
  | malformedExists text =>
    have hfirst : (malformedExists text).message.toList.head? = some 'e' :=
      hhead _ (show "exists() expects a single quoted path, got: ".toList.head? = some 'e' by
        decide +kernel)
    rw [h, hlimit] at hfirst
    cases hfirst
  | nonNumeric operator left right =>
    have hfirst : (nonNumeric operator left right).message.toList.head? = some 'o' :=
      hhead _ (hhead _ (hhead _ (hhead _ (hhead _ (hhead _
        (show "operator '".toList.head? = some 'o' by decide +kernel))))))
    rw [h, hlimit] at hfirst
    cases hfirst

theorem Comparison.apply_ne_loopLimit (operator : Comparison) (left right : List Char) (limit : Nat) :
    operator.apply left right ≠ .error (.loopLimit limit) := by
  unfold apply
  split
  · nofun
  · cases operator <;> nofun

/-- No condition fails as the guard of a loop does. -/
theorem Condition.evaluate_ne_loopLimit (pathExists : String → Bool) (vars : Variables)
    (condition : Condition) (limit : Nat) :
    condition.evaluate pathExists vars ≠ .error (.loopLimit limit) := by
  fun_induction Condition.evaluate pathExists vars condition with
  | case1 | case2 | case3 | case8 | case11 => nofun
  | case4 | case5 | case6 | case7 => assumption
  | case9 operand fault hoperand ih => exact fun h => ih (hoperand.trans (Except.error.inj h ▸ rfl))
  | case10 operator left right => exact operator.apply_ne_loopLimit _ _ limit

theorem State.value_ne_loopLimit (state : State σ) (condition : String) (limit : Nat) :
    state.value condition ≠ .error (.loopLimit limit) :=
  Condition.evaluate_ne_loopLimit _ _ _ limit

/-! ## Refusals -/

/-- The result that records that a line could not be run. -/
def Line.refusal (line : Line) (failure : Failure) : LineResult :=
  ⟨line.number, line.text, false, "", some failure.message, 0⟩

/-- A condition that has no value is not refused as the guard refuses its loop. -/
theorem Line.refusal_ne_loopLimit {line : Line} {state : State σ} {condition : String}
    {fault : EvaluationFault} (h : state.value condition = .error fault) (limit : Nat) :
    line.refusal (.evaluation fault) ≠ line.refusal (.evaluation (.loopLimit limit)) := by
  intro hrefusal
  have hmessage := Option.some.inj (congrArg LineResult.error hrefusal)
  obtain ⟨other, rfl⟩ :=
    EvaluationFault.eq_loopLimit ((String.append_right_inj "Evaluation error: ").1 hmessage)
  exact state.value_ne_loopLimit condition other h

namespace Interpreter

variable (interpreter : Interpreter σ)

theorem failBlock_apply (line : Line) (failure : Failure) (policy : Policy) (state : State σ) :
    (interpreter.failBlock line failure policy).apply state =
      (.ok (Flow.stopped.under policy), interpreter.leave (.refusal line failure state)) :=
  rfl

theorem leave_noting (line : Line) (failure : Failure) (state : State σ)
    (kept : List (Activation σ)) :
    interpreter.noting.leave (.refusal line failure (state.beside kept)) =
      (interpreter.leave (.refusal line failure state)).beside kept :=
  State.record_beside _ _ state kept

theorem results_leave_refusal (line : Line) (failure : Failure) (state : State σ) :
    (interpreter.leave (.refusal line failure state)).results.toList =
      state.results.toList ++ [line.refusal failure] := by
  have hresults : (interpreter.leave (.refusal line failure state)).results =
      state.results.push (line.refusal failure) := State.results_record _ _ state
  rw [hresults, Array.toList_push]

/-! ## Steps of a loop -/

/-- A loop goes on after a run of its body that has not failed and is not stopped under `abort`. -/
def Continues (policy : Policy) (outcome : Except Failure Flow) : Prop :=
  ∃ flow, outcome = .ok flow ∧ flow.under policy = .completed

section Steps

variable {condition : String} {state between : State σ} {body : Body σ} {policy : Policy}
  {outcome : Except Failure Flow} (line : Line)

theorem repeating_of_false (h : state.value condition = .ok false) (remaining : Nat) :
    (interpreter.repeating line condition body policy remaining).apply state =
      (.ok .completed, state) := by
  cases remaining <;> rw [repeating, branch_apply, h] <;> rfl

theorem repeating_of_error {fault : EvaluationFault} (h : state.value condition = .error fault)
    (remaining : Nat) :
    (interpreter.repeating line condition body policy remaining).apply state =
      (.ok (Flow.stopped.under policy),
        interpreter.leave (.refusal line (.evaluation fault) state)) := by
  cases remaining <;> rw [repeating, branch_apply, h] <;> rfl

theorem repeating_zero (h : state.value condition = .ok true) :
    (interpreter.repeating line condition body policy 0).apply state =
      (.ok (Flow.stopped.under policy), interpreter.leave (.refusal line
        (.evaluation (.loopLimit interpreter.settings.maxLoopIterations)) state)) := by
  rw [repeating, branch_apply, h]
  rfl

variable (h : state.value condition = .ok true) (hbody : (body policy).apply state = (outcome, between))

include h hbody

theorem repeating_succ_of_continues (hcontinues : Continues policy outcome) (remaining : Nat) :
    (interpreter.repeating line condition body policy (remaining + 1)).apply state =
      (interpreter.repeating line condition body policy remaining).apply between := by
  obtain ⟨flow, rfl, hflow⟩ := hcontinues
  have hgoes : flow.under policy ≠ .stopped := by rw [hflow]; nofun
  rw [repeating, branch_apply, h]
  dsimp only
  rw [Run.bind_apply, hbody]
  dsimp only
  rw [if_neg hgoes]

theorem repeating_succ_of_not_continues (hcontinues : ¬ Continues policy outcome) (remaining : Nat) :
    (interpreter.repeating line condition body policy (remaining + 1)).apply state =
      (outcome, between) := by
  rw [repeating, branch_apply, h]
  dsimp only
  rw [Run.bind_apply, hbody]
  cases outcome with
  | error failure => rfl
  | ok flow =>
    have hstops : flow.under policy = .stopped := by
      cases hflow : flow.under policy with
      | completed => exact absurd ⟨flow, rfl, hflow⟩ hcontinues
      | stopped => rfl
    obtain ⟨rfl, rfl⟩ := Flow.under_eq_stopped_iff.1 hstops
    rfl

end Steps

/-! ## Rounds -/

variable (lines : List Line)

/-- A loop whose body is this range goes on after the run. -/
def GoesOn (activation : Activation σ) : Prop :=
  Continues activation.policy (interpreter.outcome lines activation)

variable (start stop : Nat) (line : Line) (condition : String) (policy : Policy)

/-- The rounds of a loop that may still run its body a number of times, with the outcome and the state
after the loop. The condition is asked for in the state before each round. -/
inductive Rounds : (remaining : Nat) → State σ → List (Activation σ) → Except Failure Flow → State σ →
    Prop where
  | finished {remaining : Nat} {state : State σ} (hvalue : state.value condition = .ok false) :
      Rounds remaining state [] (.ok .completed) state
  | refused {remaining : Nat} {state : State σ} {fault : EvaluationFault}
      (hvalue : state.value condition = .error fault) :
      Rounds remaining state [] (.ok (Flow.stopped.under policy))
        (interpreter.leave (.refusal line (.evaluation fault) state))
  | guarded {state : State σ} (hvalue : state.value condition = .ok true) :
      Rounds 0 state [] (.ok (Flow.stopped.under policy))
        (interpreter.leave (.refusal line
          (.evaluation (.loopLimit interpreter.settings.maxLoopIterations)) state))
  | last {remaining : Nat} {state : State σ} (hvalue : state.value condition = .ok true)
      (hlast : ¬ interpreter.GoesOn lines ⟨start, stop, policy, state⟩) :
      Rounds (remaining + 1) state [⟨start, stop, policy, state⟩]
        (interpreter.outcome lines ⟨start, stop, policy, state⟩)
        (interpreter.ended lines ⟨start, stop, policy, state⟩)
  | next {remaining : Nat} {state after : State σ} {runs : List (Activation σ)}
      {outcome : Except Failure Flow} (hvalue : state.value condition = .ok true)
      (hgoes : interpreter.GoesOn lines ⟨start, stop, policy, state⟩)
      (hrest : Rounds remaining (interpreter.ended lines ⟨start, stop, policy, state⟩) runs outcome
        after) :
      Rounds (remaining + 1) state (⟨start, stop, policy, state⟩ :: runs) outcome after

/-- The rounds of a loop are used up, and its condition is true once more. -/
structure Exceeds (bound : Nat) (state : State σ) (runs : List (Activation σ)) : Prop where
  length : runs.length = bound
  goesOn : ∀ run ∈ runs, interpreter.GoesOn lines run
  value : (interpreter.reached lines state runs).value condition = .ok true

variable {interpreter lines start stop line condition policy} {remaining : Nat} {state after : State σ}
  {runs : List (Activation σ)} {outcome : Except Failure Flow}

theorem exceeds_cons {bound : Nat} {run : Activation σ} :
    interpreter.Exceeds lines condition (bound + 1) state (run :: runs) ↔
      interpreter.GoesOn lines run ∧
        interpreter.Exceeds lines condition bound (interpreter.ended lines run) runs := by
  constructor
  · rintro ⟨hlength, hgoes, hvalue⟩
    obtain ⟨hrun, hruns⟩ := List.forall_mem_cons.1 hgoes
    rw [reached_cons] at hvalue
    exact ⟨hrun, Nat.succ.inj hlength, hruns, hvalue⟩
  · rintro ⟨hrun, hlength, hruns, hvalue⟩
    refine ⟨congrArg (· + 1) hlength, List.forall_mem_cons.2 ⟨hrun, hruns⟩, ?_⟩
    rw [reached_cons]
    exact hvalue

namespace Rounds

theorem length_le
    (h : interpreter.Rounds lines start stop line condition policy remaining state runs outcome after) :
    runs.length ≤ remaining := by
  induction h with
  | finished | refused | guarded => exact Nat.zero_le _
  | last => exact Nat.succ_le_succ (Nat.zero_le _)
  | next _ _ _ ih => exact Nat.succ_le_succ ih

/-- Each round is run in the state that the one before it leaves. -/
theorem getElem?_eq
    (h : interpreter.Rounds lines start stop line condition policy remaining state runs outcome after)
    (index : Nat) {run : Activation σ} (hrun : runs[index]? = some run) :
    run = ⟨start, stop, policy, interpreter.reached lines state (runs.take index)⟩ := by
  induction h generalizing index with
  | finished | refused | guarded => cases hrun
  | last =>
    cases index with
    | zero =>
      cases hrun
      rfl
    | succ index => cases hrun
  | next _ _ _ ih =>
    cases index with
    | zero =>
      cases hrun
      rfl
    | succ index =>
      rw [List.take_succ_cons, reached_cons]
      exact ih index hrun

/-- There is a round exactly as long as there may be one, the rounds before it let the loop go on, and
the condition is true in the state that they leave. -/
theorem lt_length_iff
    (h : interpreter.Rounds lines start stop line condition policy remaining state runs outcome after)
    (index : Nat) :
    index < runs.length ↔ index < remaining ∧
      (∀ run ∈ runs.take index, interpreter.GoesOn lines run) ∧
      (interpreter.reached lines state (runs.take index)).value condition = .ok true := by
  induction h generalizing index with
  | finished hvalue | refused hvalue =>
    refine iff_of_false (Nat.not_lt_zero index) fun ⟨_, _, htrue⟩ => ?_
    rw [List.take_nil] at htrue
    cases hvalue.symm.trans htrue
  | guarded => exact iff_of_false (Nat.not_lt_zero index) fun h => Nat.not_lt_zero index h.1
  | last hvalue hlast =>
    cases index with
    | zero => exact iff_of_true Nat.one_pos ⟨Nat.succ_pos _, nofun, hvalue⟩
    | succ index =>
      refine iff_of_false (Nat.not_lt.2 (Nat.succ_le_succ (Nat.zero_le index))) fun h => ?_
      exact hlast (h.2.1 _ List.mem_cons_self)
  | next hvalue hgoes _ ih =>
    cases index with
    | zero => exact iff_of_true (Nat.succ_pos _) ⟨Nat.succ_pos _, nofun, hvalue⟩
    | succ index =>
      rw [List.length_cons, Nat.succ_lt_succ_iff, Nat.succ_lt_succ_iff, ih, List.take_succ_cons,
        List.forall_mem_cons, reached_cons, and_iff_right hgoes]

/-- A loop records one result of its own at most, and the result of the guard exactly if the loop is
refused by it. -/
theorem exists_own
    (h : interpreter.Rounds lines start stop line condition policy remaining state runs outcome after) :
    ∃ own, after.results.toList = (interpreter.reached lines state runs).results.toList ++ own ∧
      own.length ≤ 1 ∧
      (line.refusal (.evaluation (.loopLimit interpreter.settings.maxLoopIterations)) ∈ own ↔
        interpreter.Exceeds lines condition remaining state runs) := by
  induction h with
  | finished hvalue =>
    refine ⟨[], (List.append_nil _).symm, Nat.zero_le 1, iff_of_false List.not_mem_nil fun h => ?_⟩
    cases hvalue.symm.trans h.value
  | @refused _ state fault hvalue =>
    refine ⟨[line.refusal (.evaluation fault)], interpreter.results_leave_refusal _ _ state,
      Nat.le_refl 1, iff_of_false (fun h => ?_) fun h => ?_⟩
    · exact Line.refusal_ne_loopLimit hvalue _ (List.mem_singleton.1 h).symm
    · cases hvalue.symm.trans h.value
  | @guarded state hvalue =>
    exact ⟨_, interpreter.results_leave_refusal _ _ state, Nat.le_refl 1,
      iff_of_true (List.mem_singleton_self _) ⟨rfl, nofun, hvalue⟩⟩
  | last _ hlast =>
    exact ⟨[], (List.append_nil _).symm, Nat.zero_le 1, iff_of_false List.not_mem_nil fun h =>
      hlast (h.goesOn _ List.mem_cons_self)⟩
  | next _ hgoes _ ih =>
    rwa [exceeds_cons, and_iff_right hgoes, reached_cons]

/-- A loop that its guard refuses counts as a failure under its policy. -/
theorem outcome_of_exceeds
    (h : interpreter.Rounds lines start stop line condition policy remaining state runs outcome after)
    (hexceeds : interpreter.Exceeds lines condition remaining state runs) :
    outcome = .ok (Flow.stopped.under policy) := by
  induction h with
  | finished hvalue | refused hvalue => cases hvalue.symm.trans hexceeds.value
  | guarded => rfl
  | last _ hlast => exact absurd (hexceeds.goesOn _ List.mem_cons_self) hlast
  | next _ _ _ ih => exact ih (exceeds_cons.1 hexceeds).2

end Rounds

/-- A loop that is over, or whose condition has no value, has no rounds. -/
theorem exists_rounds_nil (interpreter : Interpreter σ) (lines : List Line) (start stop : Nat)
    (line : Line) {condition : String} (policy : Policy) (remaining : Nat) {state : State σ}
    (h : state.value condition ≠ .ok true) (kept : List (Activation σ)) :
    ∃ outcome after,
      interpreter.Rounds lines start stop line condition policy remaining state [] outcome after ∧
        (interpreter.noting.repeating line condition (interpreter.notedRange lines start stop) policy
          remaining).apply (state.beside kept) = (outcome, after.beside kept) := by
  have hvalue : (state.beside kept).value condition = state.value condition := rfl
  rcases hstate : state.value condition with fault | _ | _
  · refine ⟨_, _, .refused hstate, ?_⟩
    rw [repeating_of_error _ line (hvalue.trans hstate), leave_noting]
  · refine ⟨_, _, .finished hstate, ?_⟩
    rw [repeating_of_false _ line (hvalue.trans hstate)]
  · exact absurd hstate h

/-- Every loop has rounds, and they are what it notes. -/
theorem exists_rounds (interpreter : Interpreter σ) (lines : List Line) (start stop : Nat) (line : Line)
    (condition : String) (policy : Policy) (remaining : Nat) (state : State σ)
    (kept : List (Activation σ)) :
    ∃ runs outcome after,
      interpreter.Rounds lines start stop line condition policy remaining state runs outcome after ∧
        (interpreter.noting.repeating line condition (interpreter.notedRange lines start stop) policy
          remaining).apply (state.beside kept) = (outcome, after.beside (kept ++ runs)) := by
  induction remaining generalizing state kept with
  | zero =>
    by_cases htrue : state.value condition = .ok true
    · refine ⟨[], _, _, .guarded htrue, ?_⟩
      have hnoted : (state.beside kept).value condition = .ok true := htrue
      rw [repeating_zero _ line hnoted, leave_noting, List.append_nil]
      rfl
    · obtain ⟨outcome, after, hrounds, hnoted⟩ :=
        interpreter.exists_rounds_nil lines start stop line policy 0 htrue kept
      exact ⟨[], outcome, after, hrounds, by rw [hnoted, List.append_nil]⟩
  | succ remaining ih =>
    by_cases htrue : state.value condition = .ok true
    · have hvalue : (state.beside kept).value condition = .ok true := htrue
      have hnoted := interpreter.notedRange_beside lines start stop policy state kept
      by_cases hgoes : interpreter.GoesOn lines ⟨start, stop, policy, state⟩
      · obtain ⟨runs, outcome, after, hrounds, hrest⟩ :=
          ih (interpreter.ended lines ⟨start, stop, policy, state⟩)
            (kept ++ [⟨start, stop, policy, state⟩])
        refine ⟨_, _, _, .next htrue hgoes hrounds, ?_⟩
        rw [repeating_succ_of_continues _ line hvalue hnoted hgoes, hrest, List.append_assoc]
        rfl
      · refine ⟨_, _, _, .last htrue hgoes, ?_⟩
        rw [repeating_succ_of_not_continues _ line hvalue hnoted hgoes]
    · obtain ⟨outcome, after, hrounds, hnoted⟩ :=
        interpreter.exists_rounds_nil lines start stop line policy (remaining + 1) htrue kept
      exact ⟨[], outcome, after, hrounds, by rw [hnoted, List.append_nil]⟩

/-- The rounds of a `@while` are its activations. -/
theorem exists_rounds_blockOn (interpreter : Interpreter σ) (lines : List Line) (position : Nat)
    (span : Span) (line : Line) (condition : String) (policy : Policy) (state : State σ) :
    ∃ runs outcome after, interpreter.Rounds lines (position + 1) (span.segmentEnd position) line
        condition policy interpreter.settings.maxLoopIterations state runs outcome after ∧
      (interpreter.blockOn lines position span line (.loop condition) policy).apply state =
        (outcome, after) ∧
      interpreter.activations lines position span line (.loop condition) policy state = runs := by
  obtain ⟨runs, outcome, after, hrounds, hnoted⟩ := interpreter.exists_rounds lines (position + 1)
    (span.segmentEnd position) line condition policy interpreter.settings.maxLoopIterations state []
  have hblock : (interpreter.notingBlockOn lines position span line (.loop condition) policy).apply
      (state.beside []) = (outcome, after.beside runs) := hnoted
  exact ⟨runs, outcome, after, hrounds, blockOn_of_noting hblock⟩

/-! ## The law of loops -/

/-- How a `@while` is run that was entered in a state. Each round is run in the state that the one
before it leaves, the first one in the state at the start of the loop, and there is one exactly as long
as the limit allows it, the rounds before it let the loop go on, and the condition is true in the state
that they leave. Beside what its rounds record the loop records one result at most, and it is that of
the guard exactly if all rounds that the limit allows were run and the condition is true once more. -/
structure Loops (interpreter : Interpreter σ) (lines : List Line) (position : Nat) (span : Span)
    (line : Line) (condition : String) (policy : Policy) (state : State σ) (runs : List (Activation σ))
    (outcome : Except Failure Flow) (after : State σ) : Prop where
  activations : interpreter.activations lines position span line (.loop condition) policy state = runs
  ends : (interpreter.blockOn lines position span line (.loop condition) policy).apply state =
    (outcome, after)
  bounded : runs.length ≤ interpreter.settings.maxLoopIterations
  starts : ∀ (index : Nat) (run : Activation σ), runs[index]? = some run →
    run = ⟨position + 1, span.terminator, policy, interpreter.reached lines state (runs.take index)⟩
  asks : ∀ index, index < runs.length ↔ index < interpreter.settings.maxLoopIterations ∧
    (∀ run ∈ runs.take index, interpreter.GoesOn lines run) ∧
    (interpreter.reached lines state (runs.take index)).value condition = .ok true
  records : ∃ own, after.results.toList = (interpreter.reached lines state runs).results.toList ++ own ∧
    own.length ≤ 1 ∧
    (line.refusal (.evaluation (.loopLimit interpreter.settings.maxLoopIterations)) ∈ own ↔
      interpreter.Exceeds lines condition interpreter.settings.maxLoopIterations state runs)
  refuses : interpreter.Exceeds lines condition interpreter.settings.maxLoopIterations state runs →
    outcome = .ok (Flow.stopped.under policy)

/-- Every `@while` that has an end in its range obeys the law of loops. -/
theorem exists_loops (interpreter : Interpreter σ) {position : Nat} {span : Span}
    (hline : lines[position]? = some line)
    (hopening : Directive.opening? line = some (.loop condition))
    (hfind : Span.find lines position stop = .ok span) (policy : Policy) (state : State σ) :
    ∃ runs outcome after,
      interpreter.Loops lines position span line condition policy state runs outcome after := by
  have hend : span.segmentEnd position = span.terminator :=
    Span.segmentEnd_of_opening hfind hline hopening rfl _
  obtain ⟨runs, outcome, after, hrounds, houtcome, hactivations⟩ :=
    interpreter.exists_rounds_blockOn lines position span line condition policy state
  rw [hend] at hrounds
  exact ⟨runs, outcome, after, hactivations, houtcome, hrounds.length_le,
    fun index _ hrun => hrounds.getElem?_eq index hrun, hrounds.lt_length_iff, hrounds.exists_own,
    hrounds.outcome_of_exceeds⟩

end Interpreter

end BatchScript
