import BatchScript.Proofs.Execution.Structured

/-!
# What runs promise

A run of lines appends results, counts the failures among them, and leaves the number of attempts
that are being run as it was (`State.Records`). What else is said of a run is a promise: a statement
on the new results, the outcome and the states before and after. A promise that nothing breaks which
blocks do by themselves (`Promise.Lawful`) is kept by every block whose parts keep it
(`Promise.Lawful.keeps_block`), so that each promise is shown for single lines and for attempts only.
-/

namespace BatchScript

variable {σ : Type}

/-! ## Values of conditions -/

/-- The value of a condition in a state. -/
def State.value (state : State σ) (condition : String) : Except EvaluationFault Bool :=
  Condition.holds state.world.files.pathExists state.vars condition

theorem Interpreter.branch_apply (interpreter : Interpreter σ) (line : Line) (condition : String)
    (policy : Policy) (yes no : Run σ Flow) (state : State σ) :
    (interpreter.branch line condition policy yes no).apply state =
      match state.value condition with
      | .ok true => yes.apply state
      | .ok false => no.apply state
      | .error fault => (interpreter.failBlock line (.evaluation fault) policy).apply state := by
  have hvalue : (Run.evaluate condition).apply state = (.ok (state.value condition), state) := rfl
  rw [branch, Run.bind_apply, hvalue]
  rcases state.value condition with fault | _ | _ <;> rfl

/-! ## What is recorded -/

/-- Between two states exactly these results are recorded, and the failures among them counted. -/
structure State.Records (new : List LineResult) (before after : State σ) : Prop where
  results : after.results.toList = before.results.toList ++ new
  failures : after.failures = before.failures + new.countP (!·.success)
  catchDepth : after.catchDepth = before.catchDepth

namespace State.Records

variable {first last : List LineResult} {before between after : State σ}

theorem refl (state : State σ) : Records [] state state :=
  ⟨(List.append_nil _).symm, rfl, rfl⟩

theorem trans (h : Records first before between) (h' : Records last between after) :
    Records (first ++ last) before after where
  results := by rw [h'.results, h.results, List.append_assoc]
  failures := by rw [h'.failures, h.failures, List.countP_append, Nat.add_assoc]
  catchDepth := h'.catchDepth.trans h.catchDepth

theorem unique (h : Records first before after) (h' : Records last before after) : first = last :=
  List.append_cancel_left (h.results.symm.trans h'.results)

/-- The count of failures has grown if and only if a new result is a failure. -/
theorem failures_lt_iff (h : Records first before after) :
    before.failures < after.failures ↔ first.any (!·.success) = true := by
  rw [h.failures, Nat.lt_add_right_iff_pos, List.countP_pos_iff, List.any_eq_true]

end State.Records

/-! ## Promises -/

/-- What is said of runs: of the results they record, of the state they start in, of their outcome
and of the state they leave. -/
abbrev Promise (σ : Type) :=
  (new : List LineResult) → (before : State σ) → Except Failure Flow → (after : State σ) → Prop

/-- In every state the run does as promised. -/
def Run.Keeps (run : Run σ Flow) (promise : Promise σ) : Prop :=
  ∀ state, ∃ new, State.Records new state (run.apply state).2 ∧
    promise new state (run.apply state).1 (run.apply state).2

namespace Run.Keeps

variable {run : Run σ Flow} {promise other : Promise σ}

theorem mono (h : run.Keeps promise)
    (himp : ∀ {new before outcome after}, promise new before outcome after →
      other new before outcome after) : run.Keeps other := by
  intro state
  obtain ⟨new, hrecords, hpromise⟩ := h state
  exact ⟨new, hrecords, himp hpromise⟩

/-- Two promises are kept for the same new results. -/
theorem and (h : run.Keeps promise) (h' : run.Keeps other) :
    run.Keeps fun new before outcome after =>
      promise new before outcome after ∧ other new before outcome after := by
  intro state
  obtain ⟨new, hrecords, hpromise⟩ := h state
  obtain ⟨new', hrecords', hother⟩ := h' state
  obtain rfl := hrecords.unique hrecords'
  exact ⟨new, hrecords, hpromise, hother⟩

/-- A run whose stop goes on outwards as a policy says. -/
theorem within {policy : Policy} (h : run.Keeps promise)
    (hunder : ∀ {new before flow after}, promise new before (.ok flow) after →
      promise new before (.ok (flow.under policy)) after) : (run.within policy).Keeps promise := by
  intro state
  obtain ⟨new, hrecords, hpromise⟩ := h state
  unfold Run.within
  rw [Run.bind_apply]
  rcases hrun : run.apply state with ⟨outcome, after⟩
  rw [hrun] at hrecords hpromise
  cases outcome with
  | error failure => exact ⟨new, hrecords, hpromise⟩
  | ok flow => exact ⟨new, hrecords, hunder hpromise⟩

/-- A run that goes on with another one, unless it stops or fails. -/
theorem followedBy {rest : Run σ Flow} {whole : Promise σ} (h : run.Keeps promise)
    (h' : rest.Keeps other)
    (hends : ∀ {new before outcome after}, outcome ≠ .ok .completed →
      promise new before outcome after → whole new before outcome after)
    (hseq : ∀ {first last before between outcome after}, State.Records first before between →
      State.Records last between after → promise first before (.ok .completed) between →
      other last between outcome after → whole (first ++ last) before outcome after) :
    (run.followedBy rest).Keeps whole := by
  intro state
  obtain ⟨new, hrecords, hpromise⟩ := h state
  unfold Run.followedBy
  rw [Run.bind_apply]
  rcases hrun : run.apply state with ⟨outcome, between⟩
  rw [hrun] at hrecords hpromise
  rcases outcome with failure | _ | _
  · exact ⟨new, hrecords, hends nofun hpromise⟩
  · obtain ⟨new', hrecords', hother⟩ := h' between
    exact ⟨new ++ new', hrecords.trans hrecords', hseq hrecords hrecords' hpromise hother⟩
  · exact ⟨new, hrecords, hends nofun hpromise⟩

end Run.Keeps

/-- The state with other variables in the script scope. -/
def State.withScript (state : State σ) (script : Bindings) : State σ :=
  { state with vars := { state.vars with script } }

/-- A name gets its value back in the script scope. -/
theorem Variables.exists_restore_eq (vars : Variables) (name : String) (saved : Option String) :
    ∃ script, vars.restore name saved = { vars with script } := by
  cases saved <;> exact ⟨_, rfl⟩

/-- A promise that blocks under a policy keep by themselves: it holds where nothing is done, does not
depend on the script scope, holds of two runs in sequence, and holds whether or not the policy passes
a stop on. -/
structure Promise.Lawful (promise : Promise σ) (policy : Policy) : Prop where
  rest : ∀ state, promise [] state (.ok .completed) state
  fail : ∀ state failure, promise [] state (.error failure) state
  script : ∀ {new before outcome after}, promise new before outcome after → ∀ first last,
    promise new (before.withScript first) outcome (after.withScript last)
  seq : ∀ {first last before between outcome after}, State.Records first before between →
    State.Records last between after → promise first before (.ok .completed) between →
    promise last between outcome after → promise (first ++ last) before outcome after
  under : ∀ {new before flow after}, promise new before (.ok flow) after →
    promise new before (.ok (flow.under policy)) after

namespace Promise.Lawful

open Run Interpreter

variable {promise : Promise σ} {policy : Policy} (lawful : promise.Lawful policy)

include lawful

/-! ## Rules -/

theorem keeps_completed : (return .completed : Run σ Flow).Keeps promise :=
  fun state => ⟨[], .refl state, lawful.rest state⟩

theorem keeps_fail (failure : Failure) : (Run.fail failure : Run σ Flow).Keeps promise :=
  fun state => ⟨[], .refl state, lawful.fail state failure⟩

theorem keeps_within {run : Run σ Flow} (h : run.Keeps promise) :
    (run.within policy).Keeps promise :=
  h.within lawful.under

theorem keeps_followedBy {run rest : Run σ Flow} (h : run.Keeps promise) (h' : rest.Keeps promise) :
    (run.followedBy rest).Keeps promise :=
  h.followedBy h' (fun _ => id) lawful.seq

/-- Nothing is recorded where the script scope is changed. -/
theorem keeps_bind_of_script {change : Run σ Unit} {run : Run σ Flow}
    (hchange : ∀ state, ∃ outcome script, change.apply state = (outcome, state.withScript script))
    (h : run.Keeps promise) : (change >>= fun _ => run).Keeps promise := by
  intro state
  obtain ⟨outcome, script, happly⟩ := hchange state
  rw [bind_apply, happly]
  cases outcome with
  | error failure =>
    exact ⟨[], ⟨(List.append_nil _).symm, rfl, rfl⟩,
      lawful.script (lawful.fail state failure) state.vars.script script⟩
  | ok value =>
    obtain ⟨new, hrecords, hpromise⟩ := h (state.withScript script)
    exact ⟨new, ⟨hrecords.results, hrecords.failures, hrecords.catchDepth⟩,
      lawful.script hpromise state.vars.script _⟩

/-! ## Conditionals -/

omit lawful in
theorem keeps_branch {interpreter : Interpreter σ} {line : Line} {condition : String}
    {yes no : Run σ Flow}
    (hfail : ∀ failure, (interpreter.failBlock line failure policy).Keeps promise)
    (hyes : yes.Keeps promise) (hno : no.Keeps promise) :
    (interpreter.branch line condition policy yes no).Keeps promise := by
  intro state
  rw [branch_apply]
  rcases state.value condition with fault | _ | _
  · exact hfail _ state
  · exact hno state
  · exact hyes state

omit lawful in
theorem keeps_chooseMarker {interpreter : Interpreter σ} {parts : List (Line × Body σ)}
    (hcompleted : (return .completed : Run σ Flow).Keeps promise)
    (hfault : ∀ failure, (Run.fail failure : Run σ Flow).Keeps promise)
    (hfail : ∀ part ∈ parts, ∀ failure,
      (interpreter.failBlock part.1 failure policy).Keeps promise)
    (hparts : ∀ part ∈ parts, ((part.2 policy).within policy).Keeps promise) :
    (interpreter.chooseMarker policy parts).Keeps promise := by
  induction parts with
  | nil => exact hcompleted
  | cons part others ih =>
    obtain ⟨hpartFail, hfail⟩ := List.forall_mem_cons.1 hfail
    obtain ⟨hpart, hparts⟩ := List.forall_mem_cons.1 hparts
    rw [chooseMarker]
    split
    · exact hfault _
    · exact keeps_branch hpartFail hpart (ih hfail hparts)
    · exact hpart

/-! ## Loops -/

omit lawful in
theorem bindItem_apply (var item : String) (index : Nat) (state : State σ) :
    ∃ outcome script, (bindItem var item index).apply state =
      (outcome, state.withScript script) := by
  unfold bindItem Variables.set
  cases Variables.validName var <;> cases Variables.validName loopIndex <;> exact ⟨_, _, rfl⟩

theorem keeps_iterate {var : String} {body : Body σ} (hbody : (body policy).Keeps promise)
    (index : Nat) (items : List String) :
    (iterate var body policy index items).Keeps promise := by
  induction items generalizing index with
  | nil => exact lawful.keeps_completed
  | cons item items ih =>
    rw [iterate, ← followedBy_within]
    exact lawful.keeps_bind_of_script (bindItem_apply var item index)
      (lawful.keeps_followedBy (lawful.keeps_within hbody) (ih (index + 1)))

theorem keeps_preserving (name : String) {run : Run σ Flow} (h : run.Keeps promise) :
    (preserving name run).Keeps promise := by
  intro state
  obtain ⟨new, hrecords, hpromise⟩ := h state
  obtain ⟨script, hscript⟩ :=
    (run.apply state).2.vars.exists_restore_eq name (state.vars.lookup name)
  refine ⟨new, ⟨hrecords.results, hrecords.failures, hrecords.catchDepth⟩, ?_⟩
  unfold preserving
  rw [ensuring_apply, hscript]
  exact lawful.script hpromise state.vars.script script

theorem keeps_foreach {interpreter : Interpreter σ} {line : Line} {var list : String}
    {body : Body σ}
    (hfail : ∀ failure, (interpreter.failBlock line failure policy).Keeps promise)
    (hbody : (body policy).Keeps promise) :
    (interpreter.foreach line var list body policy).Keeps promise := by
  unfold foreach
  split
  · exact fun state => lawful.keeps_preserving _
      (lawful.keeps_preserving _ (lawful.keeps_iterate hbody 0 _)) state
  · exact hfail _

theorem keeps_repeating {interpreter : Interpreter σ} {line : Line} {condition : String}
    {body : Body σ}
    (hfail : ∀ failure, (interpreter.failBlock line failure policy).Keeps promise)
    (hbody : (body policy).Keeps promise) (remaining : Nat) :
    (interpreter.repeating line condition body policy remaining).Keeps promise := by
  induction remaining with
  | zero => exact keeps_branch hfail (hfail _) lawful.keeps_completed
  | succ remaining ih =>
    rw [repeating, ← followedBy_within]
    exact keeps_branch hfail (lawful.keeps_followedBy (lawful.keeps_within hbody) ih)
      lawful.keeps_completed

end Promise.Lawful

/-! ## Attempts -/

/-- What the body of an attempt gives to the attempt: a failure in it stops the attempt under the
policy, unless there is a `@catch` to handle it. -/
def Promise.tried (promise : Promise σ) (policy : Policy) (hasCatch : Bool) : Promise σ :=
  fun new before outcome after =>
    promise new before (outcome.map fun _ =>
      if new.any (!·.success) && !hasCatch then Flow.stopped.under policy else .completed) after

/-- The body of an attempt with a `@catch` runs one level deeper. -/
theorem Run.Keeps.covered {run : Run σ Flow} {promise whole : Promise σ} (h : run.Keeps promise)
    {hasCatch : Bool}
    (hwith : hasCatch = true → ∀ {new before outcome after},
      promise new { before with catchDepth := before.catchDepth + 1 } outcome after →
        whole new before outcome { after with catchDepth := after.catchDepth - 1 })
    (hwithout : hasCatch = false → ∀ {new before outcome after},
      promise new before outcome after → whole new before outcome after) :
    (Interpreter.covered hasCatch run).Keeps whole := by
  cases hasCatch with
  | false => exact h.mono (hwithout rfl)
  | true =>
    intro state
    obtain ⟨new, hrecords, hpromise⟩ := h { state with catchDepth := state.catchDepth + 1 }
    refine ⟨new, ⟨hrecords.results, hrecords.failures, ?_⟩, hwith rfl hpromise⟩
    exact Nat.sub_eq_of_eq_add hrecords.catchDepth

theorem Run.fails_apply (run : Run σ Flow) (state : State σ) :
    run.fails.apply state = ((run.apply state).1.map fun _ =>
      decide (state.failures < (run.apply state).2.failures), (run.apply state).2) := by
  unfold Run.fails
  rw [bind_apply, get_apply]
  dsimp only
  rw [bind_apply]
  rcases run.apply state with ⟨_ | _, after⟩ <;> rfl

/-! ### How an attempt ends -/

theorem Run.ending_completed (policy : Policy) (cleanup : Run σ Flow) :
    (do return if (← cleanup).under policy = .stopped then .stopped else .completed) =
      cleanup.within policy :=
  bind_congr fun flow => by cases flow.under policy <;> rfl

theorem Run.ending_stopped (policy : Policy) (cleanup : Run σ Flow) :
    (do return if (← cleanup).under policy = .stopped then Flow.stopped else .stopped) =
      (cleanup.within policy >>= fun _ => return Flow.stopped) := by
  unfold Run.within
  rw [bind_assoc]
  exact bind_congr fun flow => by cases flow.under policy <;> rfl

namespace Promise.Lawful

open Run Interpreter

variable {promise : Promise σ} {policy : Policy} (lawful : promise.Lawful policy)

include lawful

/-- The body of an attempt and what handles its failures. -/
theorem keeps_handle {handler? : Option (Body σ)} {run : Run σ Flow}
    (hrun : run.Keeps (promise.tried policy handler?.isSome))
    (hhandler : ∀ handler, handler? = some handler → (handler policy).Keeps promise) :
    (run.fails >>= fun failed => handle failed handler? policy).Keeps promise := by
  intro state
  obtain ⟨new, hrecords, htried⟩ := hrun state
  rw [bind_apply, fails_apply]
  rcases happly : run.apply state with ⟨outcome, between⟩
  rw [happly] at hrecords htried
  cases outcome with
  | error failure => exact ⟨new, hrecords, htried⟩
  | ok flow =>
    have hfailed : decide (state.failures < between.failures) = new.any (!·.success) :=
      Bool.eq_iff_iff.2 (decide_eq_true_iff.trans hrecords.failures_lt_iff)
    unfold Promise.tried at htried
    dsimp only [Except.map] at htried ⊢
    rw [hfailed]
    cases hnew : new.any (!·.success) with
    | false =>
      rw [hnew] at htried
      exact ⟨new, hrecords, htried⟩
    | true =>
      rw [hnew] at htried
      cases handler? with
      | none => exact ⟨new, hrecords, htried⟩
      | some handler =>
        obtain ⟨new', hrecords', hpromise⟩ :=
          lawful.keeps_within (hhandler handler rfl) between
        exact ⟨new ++ new', hrecords.trans hrecords', lawful.seq hrecords hrecords' htried hpromise⟩

/-- What runs at the end of an attempt, whether or not the attempt was stopped before. -/
theorem keeps_cleanup {run : Run σ Flow} {cleanup : Body σ}
    (hstays : ∀ {first last before between outcome after}, State.Records first before between →
      State.Records last between after → promise first before (.ok .stopped) between →
      promise last between outcome after →
        promise (first ++ last) before (outcome.map fun _ => .stopped) after)
    (hrun : run.Keeps promise) (hcleanup : (cleanup policy).Keeps promise) :
    Run.Keeps (do
      let flow ← run
      return if (← cleanup policy).under policy = .stopped then .stopped else flow) promise := by
  intro state
  obtain ⟨new, hrecords, hpromise⟩ := hrun state
  rw [bind_apply]
  rcases happly : run.apply state with ⟨outcome, between⟩
  rw [happly] at hrecords hpromise
  cases outcome with
  | error failure => exact ⟨new, hrecords, hpromise⟩
  | ok flow =>
    obtain ⟨new', hrecords', hpromise'⟩ := lawful.keeps_within hcleanup between
    refine ⟨new ++ new', ?_⟩
    dsimp only
    cases flow with
    | completed =>
      rw [ending_completed]
      exact ⟨hrecords.trans hrecords', lawful.seq hrecords hrecords' hpromise hpromise'⟩
    | stopped =>
      rw [ending_stopped, bind_apply]
      have hstopped := hstays hrecords hrecords' hpromise hpromise'
      rcases hlast : ((cleanup policy).within policy).apply between with ⟨_ | _, after⟩ <;>
        rw [hlast] at hrecords' hstopped <;> exact ⟨hrecords.trans hrecords', hstopped⟩

/-- An attempt, if its stop is kept while its `@finally` runs. -/
theorem keeps_attempt {body : Body σ} {parts : List (Line × Body σ)}
    (hstays : ∀ {first last before between outcome after}, State.Records first before between →
      State.Records last between after → promise first before (.ok .stopped) between →
      promise last between outcome after →
        promise (first ++ last) before (outcome.map fun _ => .stopped) after)
    (hbody : (covered (part? parts .catch).isSome (body .continue)).Keeps
      (promise.tried policy (part? parts .catch).isSome))
    (hparts : ∀ part ∈ parts, (part.2 policy).Keeps promise) :
    (attempt body parts policy).Keeps promise := by
  have hpart : ∀ branch part, part? parts branch = some part → (part policy).Keeps promise := by
    intro branch part h
    obtain ⟨found, hfound, rfl⟩ := Option.map_eq_some_iff.1 h
    exact hparts found (List.mem_of_find?_eq_some hfound)
  have hhandled := lawful.keeps_handle hbody (hpart .catch)
  have hassoc : ∀ last : Flow → Run σ Flow,
      (do
        let before := (← Run.get).failures
        let _ ← covered (part? parts .catch).isSome (body .continue)
        let after := (← Run.get).failures
        let flow ← handle (before < after) (part? parts .catch) policy
        last flow) =
      ((covered (part? parts .catch).isSome (body .continue)).fails >>= fun failed =>
        handle failed (part? parts .catch) policy) >>= last := by
    intro last
    unfold Run.fails
    rw [bind_assoc, bind_assoc]
    refine bind_congr fun before => ?_
    rw [bind_assoc, bind_assoc]
    exact bind_congr fun _ => bind_congr fun after => (pure_bind _ _).symm
  unfold attempt
  cases hfinally : part? parts .finally with
  | none => exact ((hassoc pure).trans (bind_pure (m := Run σ) _)).symm ▸ hhandled
  | some cleanup =>
    exact (hassoc _).symm ▸ lawful.keeps_cleanup hstays hhandled (hpart .finally cleanup hfinally)

/-! ## All kinds -/

/-- A block keeps a promise if its parts do. What an attempt keeps is shown apart, since a stop in
the body of an attempt goes no further. -/
theorem keeps_block {interpreter : Interpreter σ} {line : Line} {opening : Opening} {body : Body σ}
    {parts : List (Line × Body σ)}
    (hfail : ∀ failure, (interpreter.failBlock line failure policy).Keeps promise)
    (hfails : ∀ part ∈ parts, ∀ failure,
      (interpreter.failBlock part.1 failure policy).Keeps promise)
    (hbody : opening ≠ .attempt → (body policy).Keeps promise)
    (hparts : ∀ part ∈ parts, (part.2 policy).Keeps promise)
    (hattempt : opening = .attempt → (attempt body parts policy).Keeps promise) :
    (interpreter.block line opening body parts policy).Keeps promise := by
  cases opening with
  | conditional condition =>
    exact keeps_branch hfail (lawful.keeps_within (hbody nofun))
      (keeps_chooseMarker lawful.keeps_completed lawful.keeps_fail hfails
        fun part hpart => lawful.keeps_within (hparts part hpart))
  | foreach var list => exact lawful.keeps_foreach hfail (hbody nofun)
  | loop condition => exact lawful.keeps_repeating hfail (hbody nofun) _
  | attempt => exact hattempt rfl

end Promise.Lawful

end BatchScript
