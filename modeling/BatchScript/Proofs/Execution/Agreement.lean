import BatchScript.Proofs.Execution.Rounds

/-!
# Limits that make no difference

Two limits for loops tell apart only loops that their guard refuses. Whether a block does the same under
both is told by its activations: if each of them does the same, so does the block, unless it is a loop
that exceeds the smaller limit (`agrees_block`). To show this, the run under the one limit follows the
run under the other one, with its activations noted, as long as all notes are of activations that do the
same (`Run.Follows`).
-/

namespace BatchScript

variable {σ α β : Type}

/-! ## Runs that follow others -/

/-- All activations that are noted are good. -/
def State.Allows (good : Activation σ → Prop) (state : State (σ × List (Activation σ))) : Prop :=
  ∀ activation ∈ state.world.state.2, good activation

/-- If all that a run has noted in the end is good, then so was all that was noted before, and another
run does the same without notes. -/
def Run.Follows (run : Run σ α) (noted : Run (σ × List (Activation σ)) α)
    (good : Activation σ → Prop) : Prop :=
  ∀ state, (noted.apply state).2.Allows good → state.Allows good ∧
    run.apply state.plain = ((noted.apply state).1, (noted.apply state).2.plain)

/-- A part of a block that follows the part with notes, under every policy. -/
def BodyFollows (good : Activation σ → Prop) (body : Body σ)
    (noted : Body (σ × List (Activation σ))) : Prop :=
  ∀ policy, (body policy).Follows (noted policy) good

namespace Run

variable {good : Activation σ → Prop} {run : Run σ α} {noted : Run (σ × List (Activation σ)) α}

theorem follows_pure (value : α) : (pure value : Run σ α).Follows (pure value) good :=
  fun _ hgood => ⟨hgood, rfl⟩

theorem follows_fail (failure : Failure) : (fail failure : Run σ α).Follows (fail failure) good :=
  fun _ hgood => ⟨hgood, rfl⟩

theorem Follows.bind {next : α → Run σ β} {next' : α → Run (σ × List (Activation σ)) β}
    (h : run.Follows noted good) (h' : ∀ value, (next value).Follows (next' value) good) :
    (run >>= next).Follows (noted >>= next') good := by
  intro state hgood
  rw [bind_apply] at hgood ⊢
  rw [bind_apply]
  -- The notes in between are good because those at the end are.
  rcases hnoted : noted.apply state with ⟨failure | value, between⟩
  all_goals
    have hrun := h state
    rw [hnoted] at hgood hrun
  · obtain ⟨hbefore, happly⟩ := hrun hgood
    rw [happly]
    exact ⟨hbefore, rfl⟩
  · obtain ⟨hbetween, hnext⟩ := h' value between hgood
    obtain ⟨hbefore, happly⟩ := hrun hbetween
    rw [happly]
    exact ⟨hbefore, hnext⟩

theorem follows_get_bind {next : State σ → Run σ α} {next' : State (σ × List (Activation σ)) → Run _ α}
    (h : ∀ state, (next state.plain).Follows (next' state) good) :
    (get >>= next).Follows (get >>= next') good :=
  fun state => h state state

end Run

namespace Interpreter

open Run

variable {good : Activation σ → Prop} {body : Body σ} {noted : Body (σ × List (Activation σ))}
  {parts : List (Line × Body σ)} {notedParts : List (Line × Body (σ × List (Activation σ)))}

theorem follows_under (h : BodyFollows good body noted) (inner outer : Policy) :
    Run.Follows (do return (← body inner).under outer) (do return (← noted inner).under outer)
      good :=
  (h inner).bind fun _ => follows_pure _

/-! ### Loops over items -/

theorem bindItem_beside (var item : String) (index : Nat) (state : State σ)
    (kept : List (Activation σ)) :
    (bindItem var item index).apply (state.beside kept) =
      (((bindItem var item index).apply state).1,
        ((bindItem var item index).apply state).2.beside kept) := by
  have hvars : (state.beside kept).vars = state.vars := rfl
  unfold bindItem
  dsimp only
  rw [hvars]
  cases state.vars.set var item with
  | error fault => rfl
  | ok vars =>
    dsimp only
    cases vars.set loopIndex (toString index) <;> rfl

theorem follows_bindItem (var item : String) (index : Nat) :
    (bindItem var item index).Follows (bindItem var item index) good := by
  intro state
  have hnoted := bindItem_beside var item index state.plain state.world.state.2
  have hstate : state.plain.beside state.world.state.2 = state := rfl
  rw [hstate] at hnoted
  rw [hnoted]
  exact fun hgood => ⟨hgood, rfl⟩

theorem follows_iterate (var : String) (h : BodyFollows good body noted) (policy : Policy)
    (index : Nat) (items : List String) :
    (iterate var body policy index items).Follows (iterate var noted policy index items) good := by
  induction items generalizing index with
  | nil => exact follows_pure _
  | cons item items ih =>
    rw [iterate, iterate]
    refine (follows_bindItem var item index).bind fun _ => (h policy).bind fun flow => ?_
    split
    · exact follows_pure _
    · exact ih (index + 1)

theorem follows_preserving (name : String) {run : Run σ Flow}
    {run' : Run (σ × List (Activation σ)) Flow} (h : run.Follows run' good) :
    (preserving name run).Follows (preserving name run') good := by
  intro state hgood
  obtain ⟨hbefore, happly⟩ := h state hgood
  refine ⟨hbefore, ?_⟩
  unfold preserving
  rw [ensuring_apply, happly]
  rfl

/-! ### Attempts -/

theorem follows_covered (hasCatch : Bool) {run : Run σ Flow}
    {run' : Run (σ × List (Activation σ)) Flow} (h : run.Follows run' good) :
    (covered hasCatch run).Follows (covered hasCatch run') good := by
  cases hasCatch with
  | false => exact h
  | true =>
    intro state hgood
    obtain ⟨hbefore, happly⟩ := h { state with catchDepth := state.catchDepth + 1 } hgood
    refine ⟨hbefore, ?_⟩
    unfold covered
    rw [if_pos rfl, if_pos rfl, ensuring_apply]
    exact congrArg (fun ended : Except Failure Flow × State σ =>
      (ended.1, { ended.2 with catchDepth := ended.2.catchDepth - 1 })) happly

/-- The parts of a block follow the parts with notes, which stand after the same markers. -/
def PartsFollow (good : Activation σ → Prop) : List (Line × Body σ) →
    List (Line × Body (σ × List (Activation σ))) → Prop :=
  List.Forall₂ fun part part' => part'.1 = part.1 ∧ BodyFollows good part.2 part'.2

theorem follows_handle (hparts : PartsFollow good parts notedParts) (failed : Bool)
    (policy : Policy) :
    (handle failed (part? parts .catch) policy).Follows
      (handle failed (part? notedParts .catch) policy) good := by
  cases failed with
  | false => exact follows_pure _
  | true =>
    obtain ⟨hnone, hnone'⟩ | ⟨handler, handler', hhandler, hhandler', hfollows⟩ :=
      part?_of_forall₂ hparts .catch
    · rw [hnone, hnone']
      exact follows_pure _
    · rw [hhandler, hhandler']
      exact follows_under hfollows policy policy

theorem follows_attempt (h : BodyFollows good body noted) (hparts : PartsFollow good parts notedParts)
    (policy : Policy) : (attempt body parts policy).Follows (attempt noted notedParts policy) good := by
  refine follows_get_bind fun first => ?_
  dsimp only
  rw [isSome_part?_of_forall₂ hparts]
  refine (follows_covered _ (h .continue)).bind fun _ => follows_get_bind fun last => ?_
  refine (follows_handle hparts _ policy).bind fun flow => ?_
  obtain ⟨hnone, hnone'⟩ | ⟨cleanup, cleanup', hcleanup, hcleanup', hfollows⟩ :=
    part?_of_forall₂ hparts .finally
  · rw [hnone, hnone']
    exact follows_pure _
  · rw [hcleanup, hcleanup']
    exact (hfollows policy).bind fun _ => follows_pure _

/-! ## Limits -/

variable (interpreter : Interpreter σ)

/-- The interpreter with another limit for loops. -/
def limited (limit : Nat) : Interpreter σ :=
  { interpreter with settings := { interpreter.settings with maxLoopIterations := limit } }

variable (limit : Nat)

theorem record_limited (result : LineResult) :
    (interpreter.limited limit).record result = interpreter.record result :=
  rfl

theorem dispatchCommand_limited (name : String) (args : List String) :
    (interpreter.limited limit).dispatchCommand name args = interpreter.dispatchCommand name args :=
  rfl

theorem command_limited (line : Line) (name : String) (args : List String) :
    (interpreter.limited limit).command line name args = interpreter.command line name args := by
  simp only [command, record_limited, dispatchCommand_limited]

theorem perform_limited (line : Line) (directive : Directive) :
    (interpreter.limited limit).perform line directive = interpreter.perform line directive := by
  unfold perform
  simp only [update, succeed, reject, record_limited]
  rfl

/-- Lines that open no block do not look at the limit. -/
theorem runLine_limited (line : Line) :
    (interpreter.limited limit).runLine line = interpreter.runLine line := by
  unfold runLine act
  simp only [command_limited, perform_limited]

theorem follows_failBlock (line : Line) (failure : Failure) (policy : Policy) :
    ((interpreter.limited limit).failBlock line failure policy).Follows
      (interpreter.noting.failBlock line failure policy) good := by
  intro state
  have hnoted := interpreter.leave_noting line failure state.plain state.world.state.2
  have hstate : state.plain.beside state.world.state.2 = state := rfl
  rw [hstate] at hnoted
  rw [failBlock_apply, failBlock_apply, hnoted]
  exact fun hgood => ⟨hgood, rfl⟩

theorem follows_branch (line : Line) (condition : String) (policy : Policy) {yes no : Run σ Flow}
    {yes' no' : Run (σ × List (Activation σ)) Flow} (hyes : yes.Follows yes' good)
    (hno : no.Follows no' good) :
    ((interpreter.limited limit).branch line condition policy yes no).Follows
      (interpreter.noting.branch line condition policy yes' no') good := by
  intro state
  have hvalue : state.plain.value condition = state.value condition := rfl
  rw [branch_apply, branch_apply, hvalue]
  rcases state.value condition with fault | _ | _
  · exact interpreter.follows_failBlock limit line _ policy state
  · exact hno state
  · exact hyes state

theorem follows_chooseMarker (hparts : PartsFollow good parts notedParts) (policy : Policy) :
    ((interpreter.limited limit).chooseMarker policy parts).Follows
      (interpreter.noting.chooseMarker policy notedParts) good := by
  induction hparts with
  | nil => exact follows_pure _
  | @cons part part' others others' hpart _ ih =>
    obtain ⟨marker, part⟩ := part
    obtain ⟨marker', part'⟩ := part'
    obtain ⟨hmarker, hpart⟩ := hpart
    obtain rfl : marker' = marker := hmarker
    rw [chooseMarker, chooseMarker]
    split
    · exact follows_fail _
    · exact interpreter.follows_branch limit _ _ policy (follows_under hpart policy policy) ih
    · exact follows_under hpart policy policy

theorem follows_foreach (line : Line) (var list : String) (h : BodyFollows good body noted)
    (policy : Policy) :
    ((interpreter.limited limit).foreach line var list body policy).Follows
      (interpreter.noting.foreach line var list noted policy) good := by
  unfold foreach
  split
  · exact follows_get_bind fun state => follows_preserving _ (follows_preserving _
      (follows_iterate var h policy 0 _))
  · exact interpreter.follows_failBlock limit line _ policy

/-! ## Blocks -/

variable (lines : List Line)

/-- The run of a range is the same under another limit. -/
def Agrees (activation : Activation σ) : Prop :=
  ((interpreter.limited limit).runRange lines activation.start activation.stop
      activation.policy).apply activation.state =
    (interpreter.outcome lines activation, interpreter.ended lines activation)

theorem follows_notedRange (start stop : Nat) :
    BodyFollows (interpreter.Agrees limit lines)
      ((interpreter.limited limit).runRange lines start stop)
      (interpreter.notedRange lines start stop) := by
  intro policy state hgood
  obtain ⟨hbefore, hagrees⟩ := List.forall_mem_append.1 hgood
  exact ⟨hbefore, hagrees _ (List.mem_singleton_self _)⟩

theorem partsFollow_segments (span : Span) :
    PartsFollow (interpreter.Agrees limit lines) ((interpreter.limited limit).segments lines span)
      (interpreter.notedSegments lines span) :=
  forall₂_filterMap lines span fun _ _ => interpreter.follows_notedRange limit lines _ _

variable {interpreter limit lines} {start stop position : Nat} {span : Span} {line : Line}
  {opening : Opening} {condition : String} {policy : Policy} {state after : State σ}
  {runs : List (Activation σ)} {outcome : Except Failure Flow} {remaining more : Nat}

/-- A loop that does not exceed its rounds does the same if it may run more of them. -/
theorem Rounds.apply_limited
    (h : interpreter.Rounds lines start stop line condition policy remaining state runs outcome after)
    (hexceeds : ¬ interpreter.Exceeds lines condition remaining state runs)
    (hruns : ∀ run ∈ runs, interpreter.Agrees limit lines run) (hle : remaining ≤ more) :
    ((interpreter.limited limit).repeating line condition
      ((interpreter.limited limit).runRange lines start stop) policy more).apply state =
        (outcome, after) := by
  induction h generalizing more with
  | finished hvalue => exact repeating_of_false _ line hvalue more
  | refused hvalue => exact repeating_of_error _ line hvalue more
  | guarded hvalue => exact absurd ⟨rfl, nofun, hvalue⟩ hexceeds
  | last hvalue hlast =>
    obtain ⟨more, rfl⟩ := Nat.exists_eq_succ_of_ne_zero (Nat.ne_zero_of_lt hle)
    have hrun := hruns _ (List.mem_singleton_self _)
    exact repeating_succ_of_not_continues _ line hvalue hrun hlast more
  | next hvalue hgoes _ ih =>
    obtain ⟨more, rfl⟩ := Nat.exists_eq_succ_of_ne_zero (Nat.ne_zero_of_lt hle)
    obtain ⟨hrun, hruns⟩ := List.forall_mem_cons.1 hruns
    rw [exceeds_cons, and_iff_right hgoes] at hexceeds
    rw [repeating_succ_of_continues _ line hvalue hrun hgoes more]
    exact ih hexceeds hruns (Nat.le_of_succ_le_succ hle)

/-- A block does the same under a limit that is no smaller, if its activations do, unless it is a loop
that exceeds its rounds. -/
theorem agrees_block (hle : interpreter.settings.maxLoopIterations ≤ limit)
    (hinner : ∀ inner ∈ interpreter.activations lines position span line opening policy state,
      interpreter.Agrees limit lines inner)
    (hexceeds : ∀ condition, opening = .loop condition → ¬ interpreter.Exceeds lines condition
      interpreter.settings.maxLoopIterations state
      (interpreter.activations lines position span line opening policy state)) :
    ((interpreter.limited limit).blockOn lines position span line opening policy).apply state =
      (interpreter.blockOn lines position span line opening policy).apply state := by
  -- A block that is no loop does not look at the limit.
  have hblock : ((interpreter.limited limit).blockOn lines position span line opening
      policy).Follows (interpreter.notingBlockOn lines position span line opening policy)
        (interpreter.Agrees limit lines) →
      ((interpreter.limited limit).blockOn lines position span line opening policy).apply state =
        (interpreter.blockOn lines position span line opening policy).apply state := by
    intro hfollows
    obtain ⟨hnoted, -⟩ := interpreter.noting_block lines position span line opening policy state
    obtain ⟨-, happly⟩ := hfollows (state.beside []) hinner
    rw [hnoted] at happly
    exact happly
  have hbody := interpreter.follows_notedRange limit lines (position + 1) (span.segmentEnd position)
  have hparts := interpreter.partsFollow_segments limit lines span
  cases opening with
  | conditional condition =>
    exact hblock (interpreter.follows_branch limit line condition policy
      (follows_under hbody policy policy) (interpreter.follows_chooseMarker limit hparts policy))
  | foreach var list => exact hblock (interpreter.follows_foreach limit line var list hbody policy)
  | attempt => exact hblock (follows_attempt hbody hparts policy)
  | loop condition =>
    obtain ⟨runs, outcome, after, hrounds, houtcome, rfl⟩ :=
      interpreter.exists_rounds_blockOn lines position span line condition policy state
    rw [houtcome]
    exact hrounds.apply_limited (hexceeds condition rfl) hinner hle

/-! ## Ranges -/

/-- In its run a range comes to a loop that its guard refuses: to a loop that it begins with, inside the
block that it begins with, or after a first turn that is completed. -/
inductive Trips (interpreter : Interpreter σ) (lines : List Line) : Activation σ → Prop where
  | here {start stop : Nat} {policy : Policy} {state : State σ} {line : Line} {condition : String}
      {span : Span} (hstart : start < stop) (hline : lines[start]? = some line)
      (hopening : Directive.opening? line = some (.loop condition))
      (hfind : Span.find lines start stop = .ok span)
      (hexceeds : interpreter.Exceeds lines condition interpreter.settings.maxLoopIterations state
        (interpreter.activations lines start span line (.loop condition) policy state)) :
      Trips interpreter lines ⟨start, stop, policy, state⟩
  | inside {start stop : Nat} {policy : Policy} {state : State σ} {line : Line} {opening : Opening}
      {span : Span} {inner : Activation σ} (hstart : start < stop) (hline : lines[start]? = some line)
      (hopening : Directive.opening? line = some opening)
      (hfind : Span.find lines start stop = .ok span)
      (hmem : inner ∈ interpreter.activations lines start span line opening policy state)
      (h : Trips interpreter lines inner) : Trips interpreter lines ⟨start, stop, policy, state⟩
  | later {start stop next : Nat} {policy : Policy} {state between : State σ} {passed : Line}
      {run : Body σ} (hturn : interpreter.Turn lines stop start passed run next)
      (hrun : (run policy).apply state = (.ok .completed, between))
      (h : Trips interpreter lines ⟨next, stop, passed.onError?.getD policy, between⟩) :
      Trips interpreter lines ⟨start, stop, policy, state⟩

theorem agrees_iff : interpreter.Agrees limit lines ⟨start, stop, policy, state⟩ ↔
    ((interpreter.limited limit).runRange lines start stop policy).apply state =
      (interpreter.runRange lines start stop policy).apply state :=
  Iff.rfl

/-- A range does the same if its first turn does, and the rest of the range after it. -/
theorem agrees_of_turn {next : Nat} {run run' : Body σ}
    (hturn : interpreter.Turn lines stop start line run next)
    (hturn' : (interpreter.limited limit).Turn lines stop start line run' next)
    (hrun : (run' policy).apply state = (run policy).apply state)
    (hrest : ∀ between, (run policy).apply state = (.ok .completed, between) →
      interpreter.Agrees limit lines ⟨next, stop, line.onError?.getD policy, between⟩) :
    interpreter.Agrees limit lines ⟨start, stop, policy, state⟩ := by
  rw [agrees_iff, hturn.runRange_eq, hturn'.runRange_eq, Run.followedBy, Run.followedBy,
    Run.bind_apply, Run.bind_apply, hrun]
  rcases hfirst : (run policy).apply state with ⟨failure | _ | _, between⟩
  · rfl
  · exact hrest between hfirst
  · rfl

/-- A range that comes to no loop that its guard refuses does the same under a limit that is no
smaller. -/
theorem agrees_of_not_trips (hle : interpreter.settings.maxLoopIterations ≤ limit)
    (activation : Activation σ) (h : ¬ interpreter.Trips lines activation) :
    interpreter.Agrees limit lines activation := by
  -- The rest of a range and the ranges that its blocks run are shorter.
  induction hsize : activation.stop - activation.start using Nat.strongRecOn
    generalizing activation with
  | ind size ih =>
  obtain ⟨start, stop, policy, state⟩ := activation
  dsimp only at hsize
  have hrest : ∀ {line run next}, interpreter.Turn lines stop start line run next → ∀ between,
      (run policy).apply state = (.ok .completed, between) →
      interpreter.Agrees limit lines ⟨next, stop, line.onError?.getD policy, between⟩ := by
    intro line run next hturn between hrun
    have hlt := hturn.lt
    exact ih (stop - next) (by omega) _ (fun htrips => h (.later hturn hrun htrips)) rfl
  rcases interpreter.exists_turn_or lines stop start with
    ⟨line, run, next, hturn⟩ | hend | ⟨failure, hfails⟩
  · cases hturn with
    | line hstart hline hopening =>
      exact agrees_of_turn (.line hstart hline hopening) (.line hstart hline hopening)
        (by rw [runLine_limited]) (hrest (.line hstart hline hopening))
    | block hstart hline hopening hfind =>
      refine agrees_of_turn (.block hstart hline hopening hfind) (.block hstart hline hopening hfind) ?_
        (hrest (.block hstart hline hopening hfind))
      refine agrees_block hle (fun inner hmem => ?_) ?_
      · have hnested := (invokes_of_mem hstart hline hopening hfind hmem).nested
        have hsmaller : inner.stop - inner.start < size := by
          dsimp only at hnested
          omega
        exact ih _ hsmaller inner (fun htrips => h (.inside hstart hline hopening hfind hmem htrips)) rfl
      · rintro condition rfl hexceeds
        exact h (.here hstart hline hopening hfind hexceeds)
  · rw [agrees_iff, runRange_at_end _ hend, runRange_at_end _ hend]
  · rw [agrees_iff, hfails, hfails]

end Interpreter

end BatchScript
