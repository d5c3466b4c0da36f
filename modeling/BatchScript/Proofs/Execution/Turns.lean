import BatchScript.Proofs.Execution.Ranges
import BatchScript.Proofs.Execution.Promise

/-!
# Ranges turn by turn

A range of lines is run in turns: a line that opens no block is one turn, a whole block is one turn
(`Turn`). The lines that a range has passed at its own level tell the policy of the next turn
(`inForce`), and what happens inside a block has no say in it. A range that ends without a fault has
walked through its turns (`runRange_eq_ok_iff`), and it is stopped only by a turn under `abort`
(`runRange_scoped`).
-/

namespace BatchScript

variable {σ : Type}

/-! ## Policies -/

/-- The policy that a line sets for the lines after it. -/
def Line.onError? (line : Line) : Option Policy :=
  match Directive.ofLine line with
  | .ok (.onError policy) => some policy
  | _ => none

theorem Line.onError?_of_opening? {line : Line} {opening : Opening}
    (h : Directive.opening? line = some opening) : line.onError? = none := by
  unfold Directive.opening? at h
  unfold Line.onError?
  split at h
  next reads => rw [reads]
  next => cases h

/-- The policy after lines of one level: the last one that they set, else the one at the start. -/
def inForce (policy : Policy) (passed : List Line) : Policy :=
  (passed.filterMap Line.onError?).getLast?.getD policy

theorem inForce_concat (policy : Policy) (passed : List Line) (line : Line) :
    inForce policy (passed ++ [line]) = line.onError?.getD (inForce policy passed) := by
  unfold inForce
  rw [List.filterMap_append, List.getLast?_append]
  cases h : line.onError? <;> simp [h]

/-- A policy is in force if it was given, or set by a line. -/
theorem inForce_eq_continue {passed : List Line}
    (h : ∀ line ∈ passed, line.onError? ≠ some .abort) :
    inForce .continue passed = .continue := by
  unfold inForce
  cases hlast : (passed.filterMap Line.onError?).getLast? with
  | none => rfl
  | some policy =>
    obtain ⟨line, hline, hset⟩ := List.mem_filterMap.1 (List.mem_of_getLast? hlast)
    cases policy with
    | «continue» => rfl
    | abort => exact absurd hset (h line hline)

/-! ## Turns -/

namespace Interpreter

variable (interpreter : Interpreter σ)

/-- Does what a line that opens no block says, and answers whether that is a success. -/
def act (line : Line) : Run σ Bool :=
  match line.content with
  | .blank | .comment => do
    Run.modify .skip
    return true
  | .command name args => interpreter.command line name args
  | .directive keyword body =>
    match Directive.read keyword body with
    | .error fault => .fail (.parse line.number fault)
    | .ok directive => interpreter.perform line directive

/-- Runs a line that opens no block under a policy, which decides whether its failure stops the
range. -/
def runLine (line : Line) : Body σ :=
  fun policy => do return policy.settle (← interpreter.act line)

theorem step_eq_act (line : Line) (policy : Policy) :
    interpreter.step line policy = do
      return proceed policy (← interpreter.act line) (line.onError?.getD policy) := by
  obtain ⟨number, raw, content⟩ := line
  cases content with
  | blank | comment => rfl
  | command name args => simp only [step, act, Line.onError?, Directive.ofLine, Option.getD_none]
  | directive keyword body =>
    simp only [step, act, Line.onError?, Directive.ofLine]
    cases Directive.read keyword body with
    | error fault => rfl
    | ok directive => cases directive <;> rfl

/-- A line that opens no block runs first, and then the lines after it under the policy that it leaves. -/
theorem run_cons_eq_runLine {line : Line} (hopening : Directive.opening? line = none)
    (rest : List Line) (policy : Policy) :
    interpreter.run (line :: rest) policy =
      (interpreter.runLine line policy).followedBy
        (interpreter.run rest (line.onError?.getD policy)) := by
  rw [run_cons_of_opening?_eq_none _ hopening, runLine,
    settle_followedBy policy _ _ (interpreter.run rest), step_eq_act, Run.bind_assoc]
  exact bind_congr fun success => pure_bind _ _

/-- What a range does in one turn at a position: the line that it passes at its own level, the run,
and the position of the next turn. -/
inductive Turn (lines : List Line) (stop position : Nat) : Line → Body σ → Nat → Prop where
  | line {line : Line} (hposition : position < stop) (hline : lines[position]? = some line)
      (hopening : Directive.opening? line = none) :
      Turn lines stop position line (interpreter.runLine line) (position + 1)
  | block {line : Line} {opening : Opening} {span : Span} (hposition : position < stop)
      (hline : lines[position]? = some line) (hopening : Directive.opening? line = some opening)
      (hfind : Span.find lines position stop = .ok span) :
      Turn lines stop position line
        (interpreter.block line opening
          (interpreter.runRange lines (position + 1) (span.segmentEnd position))
          (interpreter.segments lines span))
        (span.terminator + 1)

variable {interpreter} {lines : List Line} {line : Line} {run : Body σ}
  {start stop position next : Nat} {policy : Policy}

/-- A range takes its first turn, and then goes on under the policy that the turn leaves. -/
theorem Turn.runRange_eq (h : interpreter.Turn lines stop position line run next)
    (policy : Policy) :
    interpreter.runRange lines position stop policy =
      (run policy).followedBy
        (interpreter.runRange lines next stop (line.onError?.getD policy)) := by
  cases h with
  | line hposition hline hopening =>
    have hcons : (lines.take stop).drop position = line :: slice lines (position + 1) stop :=
      slice_cons hline hposition
    rw [runRange, hcons]
    exact interpreter.run_cons_eq_runLine hopening _ policy
  | block hposition hline hopening hfind =>
    rw [interpreter.runRange_of_find_eq_ok hline hposition hopening hfind,
      Line.onError?_of_opening? hopening]
    rfl

/-- A range takes a turn, is at its end, or meets a block that is not closed in it, whoever runs it. -/
theorem exists_turn_or (interpreter : Interpreter σ) (lines : List Line) (stop position : Nat) :
    (∃ line run next, interpreter.Turn lines stop position line run next) ∨
      (stop ≤ position ∨ lines.length ≤ position) ∨
      ∃ failure, ∀ (other : Interpreter σ) policy,
        other.runRange lines position stop policy = .fail failure := by
  rcases Nat.lt_or_ge position stop with hposition | hend
  · rcases hline : lines[position]? with _ | line
    · exact .inr (.inl (.inr (List.getElem?_eq_none_iff.1 hline)))
    · rcases hopening : Directive.opening? line with _ | opening
      · exact .inl ⟨_, _, _, .line hposition hline hopening⟩
      · rcases hfind : Span.find lines position stop with failure | span
        · exact .inr (.inr ⟨failure, fun other => other.runRange_of_find_eq_error hline hposition
            hopening hfind⟩)
        · exact .inl ⟨_, _, _, .block hposition hline hopening hfind⟩
  · exact .inr (.inl (.inl hend))

theorem runRange_at_end (interpreter : Interpreter σ)
    (h : stop ≤ position ∨ lines.length ≤ position) (policy : Policy) :
    interpreter.runRange lines position stop policy = return .completed := by
  rcases h with h | h
  · exact interpreter.runRange_of_le h policy
  · have hnil : (lines.take stop).drop position = [] :=
      List.drop_eq_nil_of_le (Nat.le_trans (List.length_take_le' stop lines) h)
    rw [runRange, hnil, run_nil]

/-- A block ends after its opener. -/
theorem Span.lt_terminator {span : Span} (h : Span.find lines position stop = .ok span) :
    position < span.terminator := by
  obtain ⟨-, hbehind, hinside⟩ := Span.segment_bounds h (.inl rfl)
  exact Nat.lt_of_lt_of_le hbehind hinside

theorem Turn.lt (h : interpreter.Turn lines stop position line run next) :
    position < stop ∧ position < next := by
  cases h with
  | line hposition => exact ⟨hposition, Nat.lt_succ_self _⟩
  | block hposition _ _ hfind =>
    exact ⟨hposition, Nat.lt_succ_of_lt (Span.lt_terminator hfind)⟩

theorem Turn.getElem?_eq (h : interpreter.Turn lines stop position line run next) :
    lines[position]? = some line := by
  cases h with
  | line _ hline => exact hline
  | block _ hline => exact hline

/-! ### Under `continue` -/

end Interpreter

/-- No state is there in which the run is stopped. -/
def Run.NeverStops (run : Run σ Flow) : Prop :=
  ∀ state after, run.apply state ≠ (.ok .stopped, after)

namespace Run

theorem neverStops_completed : (return .completed : Run σ Flow).NeverStops := by
  intro state after h
  cases h

theorem neverStops_fail (failure : Failure) : (fail failure : Run σ Flow).NeverStops := by
  intro state after h
  cases h

theorem neverStops_bind {α : Type} {run : Run σ α} {next : α → Run σ Flow}
    (h : ∀ value, (next value).NeverStops) : (run >>= next).NeverStops := by
  intro state after hrun
  obtain ⟨value, between, -, hnext⟩ := exists_of_bind_apply hrun
  exact h value between after hnext

theorem NeverStops.bind {run : Run σ Flow} {next : Flow → Run σ Flow} (h : run.NeverStops)
    (h' : (next .completed).NeverStops) : (run >>= next).NeverStops := by
  intro state after hrun
  obtain ⟨flow, between, hflow, hnext⟩ := exists_of_bind_apply hrun
  cases flow with
  | completed => exact h' between after hnext
  | stopped => exact h state between hflow

theorem neverStops_within (run : Run σ Flow) : (run.within .continue).NeverStops :=
  neverStops_bind fun flow => by cases flow <;> exact neverStops_completed

end Run

namespace Interpreter

open Run

variable (interpreter : Interpreter σ)

theorem neverStops_failBlock (line : Line) (failure : Failure) :
    (interpreter.failBlock line failure .continue).NeverStops :=
  neverStops_bind fun _ => neverStops_completed

theorem neverStops_branch (line : Line) (condition : String) {yes no : Run σ Flow}
    (hyes : yes.NeverStops) (hno : no.NeverStops) :
    (interpreter.branch line condition .continue yes no).NeverStops := by
  refine neverStops_bind fun value => ?_
  rcases value with fault | _ | _
  · exact interpreter.neverStops_failBlock line _
  · exact hno
  · exact hyes

theorem neverStops_chooseMarker (parts : List (Line × Body σ)) :
    (interpreter.chooseMarker .continue parts).NeverStops := by
  induction parts with
  | nil => exact neverStops_completed
  | cons part others ih =>
    rw [chooseMarker]
    split
    · exact neverStops_fail _
    · exact interpreter.neverStops_branch _ _ (neverStops_within _) ih
    · exact neverStops_within _

theorem neverStops_iterate (var : String) (body : Body σ) (index : Nat) (items : List String) :
    (iterate var body .continue index items).NeverStops := by
  induction items generalizing index with
  | nil => exact neverStops_completed
  | cons item items ih =>
    rw [iterate, ← followedBy_within]
    exact neverStops_bind fun _ => (neverStops_within _).bind (ih (index + 1))

theorem neverStops_preserving (name : String) {run : Run σ Flow} (h : run.NeverStops) :
    (preserving name run).NeverStops := by
  intro state after hrun
  have hflow : (run.apply state).1 = .ok .stopped := congrArg Prod.fst hrun
  exact h state _ (Prod.ext hflow rfl)

theorem neverStops_foreach (line : Line) (var list : String) (body : Body σ) :
    (interpreter.foreach line var list body .continue).NeverStops := by
  unfold foreach
  split
  · exact neverStops_bind fun _ =>
      neverStops_preserving _ (neverStops_preserving _ (neverStops_iterate var body 0 _))
  · exact interpreter.neverStops_failBlock line _

theorem neverStops_repeating (line : Line) (condition : String) (body : Body σ)
    (remaining : Nat) :
    (interpreter.repeating line condition body .continue remaining).NeverStops := by
  induction remaining with
  | zero =>
    exact interpreter.neverStops_branch line condition (interpreter.neverStops_failBlock line _)
      neverStops_completed
  | succ remaining ih =>
    rw [repeating, ← followedBy_within]
    exact interpreter.neverStops_branch line condition ((neverStops_within _).bind ih)
      neverStops_completed

theorem neverStops_handle (failed : Bool) (handler? : Option (Body σ)) :
    (handle failed handler? .continue).NeverStops := by
  cases failed with
  | false => exact neverStops_completed
  | true =>
    cases handler? with
    | none => exact neverStops_completed
    | some handler => exact neverStops_within (handler .continue)

theorem neverStops_attempt (body : Body σ) (parts : List (Line × Body σ)) :
    (attempt body parts .continue).NeverStops := by
  refine neverStops_bind fun _ => neverStops_bind fun _ => neverStops_bind fun _ => ?_
  refine (neverStops_handle _ _).bind ?_
  cases part? parts .finally with
  | none => exact neverStops_completed
  | some cleanup =>
    show Run.NeverStops (do
      return if (← cleanup .continue).under .continue = .stopped then .stopped else .completed)
    rw [ending_completed]
    exact neverStops_within (cleanup .continue)

/-- Under `continue` no block is stopped, whatever its parts do. -/
theorem neverStops_block (line : Line) (opening : Opening) (body : Body σ)
    (parts : List (Line × Body σ)) :
    (interpreter.block line opening body parts .continue).NeverStops := by
  cases opening with
  | conditional condition =>
    exact interpreter.neverStops_branch line condition (neverStops_within _)
      (interpreter.neverStops_chooseMarker parts)
  | foreach var list => exact interpreter.neverStops_foreach line var list body
  | loop condition => exact interpreter.neverStops_repeating line condition body _
  | attempt => exact neverStops_attempt body parts

theorem neverStops_runLine (line : Line) : (interpreter.runLine line .continue).NeverStops :=
  neverStops_bind fun success => by cases success <;> exact neverStops_completed

variable {interpreter} {lines : List Line} {line : Line} {run : Body σ}
  {start stop position next : Nat} {policy : Policy} {passed : List Line}
  {first between state after : State σ} {flow : Flow}

/-- A turn that is stopped has run under `abort`. -/
theorem Turn.eq_abort (h : interpreter.Turn lines stop position line run next)
    (hrun : (run policy).apply state = (.ok .stopped, after)) : policy = .abort := by
  cases policy with
  | abort => rfl
  | «continue» =>
    cases h with
    | line => exact absurd hrun (interpreter.neverStops_runLine line state after)
    | block => exact absurd hrun (interpreter.neverStops_block _ _ _ _ state after)

/-! ## Walks -/

variable (interpreter) in
/-- The turns that a range takes from its start on: the position that it has come to, the lines that
it has passed at its own level, and the state there. Each turn runs under the policy that the lines
before it leave. -/
inductive Walk (lines : List Line) (stop : Nat) (policy : Policy) (start : Nat)
    (first : State σ) : (position : Nat) → (passed : List Line) → State σ → Prop where
  | here : Walk lines stop policy start first start [] first
  | turn {position next : Nat} {passed : List Line} {line : Line} {run : Body σ}
      {state after : State σ} (h : Walk lines stop policy start first position passed state)
      (hturn : interpreter.Turn lines stop position line run next)
      (hrun : (run (inForce policy passed)).apply state = (.ok .completed, after)) :
      Walk lines stop policy start first next (passed ++ [line]) after

variable (interpreter) in
/-- How a range ends at a position: at the end of the range or of the lines, or in a turn that is
stopped. -/
inductive Ends (lines : List Line) (stop position : Nat) (policy : Policy) (state : State σ) :
    Flow → State σ → Prop where
  | completed (hend : stop ≤ position ∨ lines.length ≤ position) :
      Ends lines stop position policy state .completed state
  | stopped {line : Line} {run : Body σ} {next : Nat} {after : State σ}
      (hturn : interpreter.Turn lines stop position line run next)
      (hrun : (run policy).apply state = (.ok .stopped, after)) :
      Ends lines stop position policy state .stopped after

theorem Walk.runRange_eq (h : interpreter.Walk lines stop policy start first position passed state) :
    (interpreter.runRange lines start stop policy).apply first =
      (interpreter.runRange lines position stop (inForce policy passed)).apply state := by
  induction h with
  | here => rfl
  | turn _ hturn hrun ih =>
    rw [ih, hturn.runRange_eq, inForce_concat, Run.followedBy, Run.bind_apply, hrun]

theorem Ends.runRange_eq (h : interpreter.Ends lines stop position policy state flow after) :
    (interpreter.runRange lines position stop policy).apply state = (.ok flow, after) := by
  cases h with
  | completed hend =>
    rw [runRange_at_end interpreter hend]
    rfl
  | stopped hturn hrun =>
    rw [hturn.runRange_eq, Run.followedBy, Run.bind_apply, hrun]
    rfl

variable (interpreter) in
/-- How a range fails at a position: in a turn, or at a block that is not closed in the range. -/
inductive Fails (lines : List Line) (stop position : Nat) (policy : Policy) (state : State σ) :
    Failure → State σ → Prop where
  | turn {line : Line} {run : Body σ} {next : Nat} {failure : Failure} {after : State σ}
      (hturn : interpreter.Turn lines stop position line run next)
      (hrun : (run policy).apply state = (.error failure, after)) :
      Fails lines stop position policy state failure after
  | unmatched {failure : Failure}
      (h : ∀ policy, interpreter.runRange lines position stop policy = .fail failure) :
      Fails lines stop position policy state failure state

theorem Fails.runRange_eq {failure : Failure}
    (h : interpreter.Fails lines stop position policy state failure after) :
    (interpreter.runRange lines position stop policy).apply state = (.error failure, after) := by
  cases h with
  | turn hturn hrun => rw [hturn.runRange_eq, Run.followedBy, Run.bind_apply, hrun]
  | unmatched h =>
    rw [h]
    rfl

/-- From wherever a walk has come to, it goes on to an end or to a failure. -/
theorem Walk.exists_last
    (h : interpreter.Walk lines stop policy start first position passed state) :
    ∃ position passed between, interpreter.Walk lines stop policy start first position passed
      between ∧
      ((∃ flow after, interpreter.Ends lines stop position (inForce policy passed) between flow after) ∨
        ∃ failure after,
          interpreter.Fails lines stop position (inForce policy passed) between failure after) := by
  -- Every turn leaves fewer lines of the range.
  induction hsize : stop - position using Nat.strongRecOn generalizing position passed state with
  | ind size ih =>
  rcases exists_turn_or interpreter lines stop position with
    ⟨line, run, next, hturn⟩ | hend | ⟨failure, hfails⟩
  · have hlt := hturn.lt
    rcases hrun : (run (inForce policy passed)).apply state with ⟨failure | _ | _, after⟩
    · exact ⟨_, _, _, h, .inr ⟨_, _, .turn hturn hrun⟩⟩
    · exact ih _ (by omega) (h.turn hturn hrun) rfl
    · exact ⟨_, _, _, h, .inl ⟨_, _, .stopped hturn hrun⟩⟩
  · exact ⟨_, _, _, h, .inl ⟨_, _, .completed hend⟩⟩
  · exact ⟨_, _, _, h, .inr ⟨_, _, .unmatched (hfails interpreter)⟩⟩

/-- A range that ends without a fault walks to its end. -/
theorem exists_ends (hrun : (interpreter.runRange lines start stop policy).apply first =
      (.ok flow, after)) :
    ∃ position passed between, interpreter.Walk lines stop policy start first position passed
      between ∧ interpreter.Ends lines stop position (inForce policy passed) between flow after := by
  have hhere : interpreter.Walk lines stop policy start first start [] first := .here
  obtain ⟨position, passed, between, hwalk, ⟨flow', after', hends⟩ | ⟨failure, after', hfails⟩⟩ :=
    hhere.exists_last
  · rw [hwalk.runRange_eq, hends.runRange_eq] at hrun
    cases hrun
    exact ⟨position, passed, between, hwalk, hends⟩
  · rw [hwalk.runRange_eq, hfails.runRange_eq] at hrun
    cases hrun

/-- A range ends without a fault if and only if it walks to an end. -/
theorem runRange_eq_ok_iff :
    (interpreter.runRange lines start stop policy).apply first = (.ok flow, after) ↔
      ∃ position passed between,
        interpreter.Walk lines stop policy start first position passed between ∧
        interpreter.Ends lines stop position (inForce policy passed) between flow after := by
  constructor
  · exact exists_ends
  · rintro ⟨position, passed, between, hwalk, hends⟩
    rw [hwalk.runRange_eq, hends.runRange_eq]

/-- The error policy is that of a range alone. A range that ends without a fault walks through its
turns, each under the policy that the last `@onerror` among the lines passed at the level of the
range has set, or else under the policy that the range was entered with. It is stopped only by a turn
under `abort`, so a range that is entered with `continue` and passes no `@onerror abort` at its level
completes. -/
theorem runRange_scoped
    (h : (interpreter.runRange lines start stop policy).apply first = (.ok flow, after)) :
    ∃ position passed between,
      interpreter.Walk lines stop policy start first position passed between ∧
      interpreter.Ends lines stop position (inForce policy passed) between flow after ∧
      (flow = .stopped → inForce policy passed = .abort) ∧
      (policy = .continue → (∀ line ∈ passed, line.onError? ≠ some .abort) → flow = .completed) := by
  obtain ⟨position, passed, between, hwalk, hends⟩ := runRange_eq_ok_iff.1 h
  have habort : flow = .stopped → inForce policy passed = .abort := by
    rintro rfl
    cases hends with
    | stopped hturn hrun => exact hturn.eq_abort hrun
  refine ⟨position, passed, between, hwalk, hends, habort, ?_⟩
  rintro rfl hpassed
  cases flow with
  | completed => rfl
  | stopped => exact absurd ((inForce_eq_continue hpassed).symm.trans (habort rfl)) (by decide)

end Interpreter

/-! ### A sample -/

/-- A dispatcher for which all commands but `fail` succeed. -/
def Dispatcher.sample : Dispatcher Unit :=
  fun name _ _ world => (⟨name ≠ "fail", "", none⟩, world)

/-- An interpreter with the settings as they are by default. -/
def Interpreter.sample : Interpreter Unit :=
  ⟨{}, .sample⟩

/-- No variables, no files, and nothing recorded. -/
def State.sample : State Unit where
  vars := .ofEnvironment (.ofProcess .isolated .empty)
  world := ⟨⟨[], []⟩, ()⟩

/-- A script that is stopped by its last failure, but not by the one inside its block. -/
def Script.scoped : Script :=
  .parse "@onerror abort
@try
@onerror continue
fail
@catch
@endtry
fail
build"

/-- A run of lines can be followed in their block tree. -/
theorem Interpreter.apply_run_of_ofLines? {α : Type} {interpreter : Interpreter σ}
    {lines : List Line} {policy : Policy} {state : State σ} {flow : Flow} {value : α}
    (observe : State σ → α)
    (h : ((Tree.ofLines? lines).map fun tree =>
      (((interpreter.runTree tree policy).apply state).1.toOption,
        observe ((interpreter.runTree tree policy).apply state).2)) = some (some flow, value)) :
    ∃ after, (interpreter.run lines policy).apply state = (.ok flow, after) ∧
      observe after = value := by
  obtain ⟨tree, htree, hflow⟩ := Option.map_eq_some_iff.1 h
  rw [← Tree.lines_of_ofLines? htree, interpreter.run_lines tree]
  rcases hrun : (interpreter.runTree tree policy).apply state with ⟨outcome, after⟩
  rw [hrun] at hflow
  cases outcome <;> cases hflow
  exact ⟨after, rfl, rfl⟩

theorem Interpreter.runRange_scoped_sample :
    ∃ after, (sample.runRange Script.scoped.lines 0 8 .continue).apply State.sample =
        (.ok .stopped, after) ∧
      ∃ position passed between,
        sample.Walk Script.scoped.lines 8 .continue 0 State.sample position passed between ∧
        sample.Ends Script.scoped.lines 8 position (inForce .continue passed) between .stopped
          after ∧
        inForce .continue passed = .abort := by
  obtain ⟨after, hrun, -⟩ : ∃ after, (sample.run Script.scoped.lines .continue).apply State.sample =
      (.ok .stopped, after) ∧ after.uncaught = 1 :=
    apply_run_of_ofLines? State.uncaught (by decide +kernel)
  rw [run_eq_runRange] at hrun
  obtain ⟨position, passed, between, hwalk, hends, habort, -⟩ := runRange_scoped hrun
  exact ⟨after, hrun, position, passed, between, hwalk, hends, habort rfl⟩

end BatchScript
