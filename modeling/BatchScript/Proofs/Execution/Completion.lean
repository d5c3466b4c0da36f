import BatchScript.Proofs.Block.Ranges
import BatchScript.Proofs.Execution.Laws
import BatchScript.Proofs.Execution.Ranges
import BatchScript.Runner

/-!
# Runs of accepted scripts come to an end

A run fails where a directive cannot be read, where a block is not closed in the lines that are
looked at, and where a loop variable is refused. None of this happens in a script that was accepted:
a run of it ends, completed or stopped, in every state and whatever the dispatcher answers, so the
report on it names no error.
-/

namespace BatchScript

variable {σ α β : Type}

/-! ## Rules for success -/

/-- In every state the run ends with a value. -/
def Run.Succeeds (run : Run σ α) : Prop :=
  ∀ state, ∃ value, (run.apply state).1 = .ok value

namespace Run

theorem succeeds_pure (value : α) : (pure value : Run σ α).Succeeds :=
  fun _ => ⟨value, rfl⟩

theorem succeeds_get : (get : Run σ (State σ)).Succeeds :=
  fun state => ⟨state, rfl⟩

theorem succeeds_modify (change : State σ → State σ) : (modify change).Succeeds :=
  fun _ => ⟨(), rfl⟩

theorem Succeeds.bind {run : Run σ α} {next : α → Run σ β} (hrun : run.Succeeds)
    (hnext : ∀ value, (next value).Succeeds) : (run >>= next).Succeeds := by
  intro state
  obtain ⟨value, hvalue⟩ := hrun state
  rcases h : run.apply state with ⟨outcome, after⟩
  obtain rfl : outcome = .ok value := by simpa [h] using hvalue
  rw [bind_apply, h]
  exact hnext value after

theorem succeeds_evaluate (condition : String) : (evaluate condition : Run σ _).Succeeds :=
  succeeds_get.bind fun _ => succeeds_pure _

end Run

open Run

namespace Interpreter

variable (interpreter : Interpreter σ)

/-! ## Single lines -/

theorem succeeds_record (result : LineResult) : (interpreter.record result).Succeeds :=
  (succeeds_modify _).bind fun _ => succeeds_pure _

theorem succeeds_succeed (line : Line) (output : String) :
    (interpreter.succeed line output).Succeeds :=
  interpreter.succeeds_record _

theorem succeeds_reject (line : Line) (failure : Failure) :
    (interpreter.reject line failure).Succeeds :=
  interpreter.succeeds_record _

theorem succeeds_dispatchCommand (name : String) (args : List String) :
    (interpreter.dispatchCommand name args).Succeeds :=
  fun _ => ⟨_, rfl⟩

/-- Whatever the dispatcher answers is recorded. -/
theorem succeeds_command (line : Line) (name : String) (args : List String) :
    (interpreter.command line name args).Succeeds := by
  refine succeeds_get.bind fun state => ?_
  dsimp only
  split
  · exact interpreter.succeeds_record _
  · exact (interpreter.succeeds_dispatchCommand _ _).bind fun _ => interpreter.succeeds_record _

theorem succeeds_update (line : Line) (changed : Except VariableFault Variables) :
    (interpreter.update line changed).Succeeds := by
  cases changed with
  | ok vars => exact (succeeds_modify _).bind fun _ => interpreter.succeeds_succeed line ""
  | error fault => exact interpreter.succeeds_reject line _

/-- A directive whose variable is refused is recorded as a failed line. -/
theorem succeeds_perform (line : Line) (directive : Directive) :
    (interpreter.perform line directive).Succeeds := by
  refine succeeds_get.bind fun state => ?_
  cases directive with
  | set | exported | unset => exact interpreter.succeeds_update line _
  | echo => exact (succeeds_modify _).bind fun _ => interpreter.succeeds_succeed line _
  | onError => exact interpreter.succeeds_succeed line ""
  | opens | divides | closes => exact succeeds_pure true

/-- A line fails only where its directive cannot be read. -/
theorem succeeds_step {line : Line} (policy : Policy)
    (readable : line.keyword?.isSome → ∃ directive, Directive.ofLine line = .ok directive) :
    (interpreter.step line policy).Succeeds := by
  obtain ⟨number, raw, content⟩ := line
  cases content with
  | blank | comment => exact (succeeds_modify _).bind fun _ => succeeds_pure _
  | command name args =>
    exact (interpreter.succeeds_command _ name args).bind fun _ => succeeds_pure _
  | directive keyword body =>
    obtain ⟨directive, reads⟩ := readable rfl
    have hread : Directive.read keyword body = .ok directive := reads
    simp only [step, hread]
    exact (interpreter.succeeds_perform _ directive).bind fun _ => succeeds_pure _

/-! ## Blocks -/

theorem succeeds_failBlock (line : Line) (failure : Failure) (policy : Policy) :
    (interpreter.failBlock line failure policy).Succeeds :=
  (interpreter.succeeds_reject line failure).bind fun _ => succeeds_pure _

/-- A condition without a value is recorded as a failed line. -/
theorem succeeds_branch (line : Line) (condition : String) (policy : Policy) {yes no : Run σ Flow}
    (hyes : yes.Succeeds) (hno : no.Succeeds) :
    (interpreter.branch line condition policy yes no).Succeeds := by
  refine (succeeds_evaluate condition).bind fun value => ?_
  rcases value with fault | _ | _
  · exact interpreter.succeeds_failBlock line _ policy
  · exact hno
  · exact hyes

/-- A part succeeds if it does under every policy. -/
def BodySucceeds (body : Body σ) : Prop :=
  ∀ policy, (body policy).Succeeds

theorem BodySucceeds.under {body : Body σ} (h : BodySucceeds body) (inner outer : Policy) :
    Run.Succeeds (do return (← body inner).under outer) :=
  (h inner).bind fun _ => succeeds_pure _

theorem succeeds_chooseMarker (policy : Policy) {parts : List (Line × Body σ)}
    (hmarkers : ∀ part ∈ parts, ∃ marker, Directive.ofLine part.1 = .ok marker)
    (hparts : ∀ part ∈ parts, BodySucceeds part.2) :
    (interpreter.chooseMarker policy parts).Succeeds := by
  induction parts with
  | nil => exact succeeds_pure _
  | cons part others ih =>
    obtain ⟨⟨directive, reads⟩, hmarkers⟩ := List.forall_mem_cons.1 hmarkers
    obtain ⟨hpart, hparts⟩ := List.forall_mem_cons.1 hparts
    rw [chooseMarker, reads]
    split
    · cases ‹Except.ok directive = .error _›
    · exact interpreter.succeeds_branch _ _ policy (hpart.under policy policy) (ih hmarkers hparts)
    · exact hpart.under policy policy

/-- Binding succeeds for a name that may be given a value, since the loop index may always be. -/
theorem succeeds_bindItem {var : String} (hvar : Variables.validName var) (item : String)
    (index : Nat) : (bindItem var item index : Run σ Unit).Succeeds := by
  have hindex : Variables.validName loopIndex := by decide
  intro state
  refine ⟨(), ?_⟩
  simp only [bindItem, Variables.set, hvar, hindex, if_true]

theorem succeeds_iterate {var : String} (hvar : Variables.validName var) {body : Body σ}
    (hbody : BodySucceeds body) (policy : Policy) (index : Nat) (items : List String) :
    (iterate var body policy index items).Succeeds := by
  induction items generalizing index with
  | nil => exact succeeds_pure _
  | cons item items ih =>
    rw [iterate]
    refine (succeeds_bindItem hvar item index).bind fun _ => (hbody policy).bind fun flow => ?_
    split
    · exact succeeds_pure _
    · exact ih (index + 1)

theorem succeeds_preserving (name : String) {run : Run σ Flow} (h : run.Succeeds) :
    (preserving name run).Succeeds :=
  fun state => h state

/-- A loop variable that may not be given a value is recorded as a failure before the loop runs. -/
theorem succeeds_foreach (line : Line) (var list : String) {body : Body σ}
    (hbody : BodySucceeds body) (policy : Policy) :
    (interpreter.foreach line var list body policy).Succeeds := by
  unfold foreach
  split
  next hvar =>
    refine succeeds_get.bind fun state => ?_
    exact succeeds_preserving _ (succeeds_preserving _ (succeeds_iterate hvar hbody policy 0 _))
  next => exact interpreter.succeeds_failBlock line _ policy

theorem succeeds_repeating (line : Line) (condition : String) {body : Body σ}
    (hbody : BodySucceeds body) (policy : Policy) (remaining : Nat) :
    (interpreter.repeating line condition body policy remaining).Succeeds := by
  induction remaining with
  | zero =>
    exact interpreter.succeeds_branch line condition policy
      (interpreter.succeeds_failBlock line _ policy) (succeeds_pure _)
  | succ remaining ih =>
    refine interpreter.succeeds_branch line condition policy ((hbody policy).bind fun flow => ?_)
      (succeeds_pure _)
    split
    · exact succeeds_pure _
    · exact ih

theorem succeeds_covered (hasCatch : Bool) {body : Run σ Flow} (h : body.Succeeds) :
    (covered hasCatch body).Succeeds := by
  cases hasCatch with
  | false => exact h
  | true => exact fun state => h _

theorem BodySucceeds.of_part? {parts : List (Line × Body σ)} {branch : Branch} {part : Body σ}
    (hparts : ∀ part ∈ parts, BodySucceeds part.2) (h : part? parts branch = some part) :
    BodySucceeds part := by
  obtain ⟨found, hfound, rfl⟩ := Option.map_eq_some_iff.1 h
  exact hparts found (List.mem_of_find?_eq_some hfound)

theorem succeeds_handle (failed : Bool) {handler? : Option (Body σ)} (policy : Policy)
    (h : ∀ handler, handler? = some handler → BodySucceeds handler) :
    (handle failed handler? policy).Succeeds := by
  cases failed with
  | false => exact succeeds_pure _
  | true =>
    cases handler? with
    | none => exact succeeds_pure _
    | some handler => exact (h handler rfl).under policy policy

theorem succeeds_attempt {body : Body σ} (hbody : BodySucceeds body)
    {parts : List (Line × Body σ)} (hparts : ∀ part ∈ parts, BodySucceeds part.2)
    (policy : Policy) : (attempt body parts policy).Succeeds := by
  unfold attempt
  refine succeeds_get.bind fun _ => (succeeds_covered _ (hbody .continue)).bind fun _ => ?_
  refine succeeds_get.bind fun _ => ?_
  refine (succeeds_handle _ policy fun _ => .of_part? hparts).bind fun flow => ?_
  split
  next => exact succeeds_pure _
  next cleanup hcleanup =>
    exact (BodySucceeds.of_part? hparts hcleanup policy).bind fun _ => succeeds_pure _

/-- A block succeeds if its markers can be read and its parts succeed. -/
theorem succeeds_block (line : Line) (opening : Opening) {body : Body σ}
    (hbody : BodySucceeds body) {parts : List (Line × Body σ)}
    (hmarkers : ∀ part ∈ parts, ∃ marker, Directive.ofLine part.1 = .ok marker)
    (hparts : ∀ part ∈ parts, BodySucceeds part.2) (policy : Policy) :
    (interpreter.block line opening body parts policy).Succeeds := by
  cases opening with
  | conditional condition =>
    exact interpreter.succeeds_branch line condition policy (hbody.under policy policy)
      (interpreter.succeeds_chooseMarker policy hmarkers hparts)
  | foreach var list => exact interpreter.succeeds_foreach line var list hbody policy
  | loop condition => exact interpreter.succeeds_repeating line condition hbody policy _
  | attempt => exact succeeds_attempt hbody hparts policy

/-! ## Ranges -/

/-- Every range that a run of accepted lines comes to is run to an end. -/
theorem succeeds_runRange {limits : Limits} {lines : List Line}
    (h : Validation.Accepts limits [] lines) {start stop : Nat}
    (hentered : Entered lines start stop) :
    BodySucceeds (interpreter.runRange lines start stop) := by
  refine h.range_induction
    (motive := fun start stop => BodySucceeds (interpreter.runRange lines start stop))
    ?_ ?_ ?_ hentered
  · intro start stop hend policy
    rw [interpreter.runRange_of_le hend]
    exact succeeds_pure _
  · intro start stop line hentered hstart hline hopening ih policy
    have hreads := (h.lookups hentered hstart).reads line hline
    rw [interpreter.runRange_of_opening?_eq_none hline hstart hopening]
    refine (interpreter.succeeds_step policy hreads).bind fun next => ?_
    cases next with
    | none => exact succeeds_pure _
    | some next => exact ih next
  · intro line opening span stop hbegins hbody hparts hrest policy
    have hparts' : ∀ part ∈ interpreter.segments lines span, BodySucceeds part.2 := by
      intro part hpart
      obtain ⟨marker, hmarker, -, hrun⟩ := interpreter.exists_of_mem_segments hpart
      exact hrun ▸ hparts marker hmarker
    have hreads : ∀ part ∈ interpreter.segments lines span,
        ∃ marker, Directive.ofLine part.1 = .ok marker := by
      intro part hpart
      obtain ⟨marker, hmarker, hline, -⟩ := interpreter.exists_of_mem_segments hpart
      obtain ⟨found, directive, hfound, reads⟩ := h.reads_marker hbegins.delimits hmarker
      obtain rfl : found = part.1 := Option.some.inj (hfound.symm.trans hline)
      exact ⟨directive, reads⟩
    rw [interpreter.runRange_of_find_eq_ok hbegins.opener hbegins.opener_lt hbegins.opening
      hbegins.find]
    refine (interpreter.succeeds_block line opening hbody hreads hparts' policy).bind fun flow => ?_
    cases flow with
    | completed => exact hrest policy
    | stopped => exact succeeds_pure _

/-- Accepted lines are run to an end. -/
theorem succeeds_run {limits : Limits} {lines : List Line}
    (h : Validation.Accepts limits [] lines) : BodySucceeds (interpreter.run lines) := by
  intro policy
  rw [interpreter.run_eq_runRange]
  exact interpreter.succeeds_runRange h .whole policy

end Interpreter

/-! ## Reports -/

namespace Runner

variable (runner : Runner σ) {script : Script} {name : String} {state after : State σ}
  {report : Report}

section Execute

variable {outcome : Except Failure Flow} (name : String)
  (h : (runner.runAll script.lines).apply state = (outcome, after))

include h

theorem runReporting_apply : (runner.runReporting script name).apply state =
    (.ok (runner.reportOf name outcome after), after) := by
  simp only [runReporting, h]

/-- A run that the program survives is reported. -/
theorem execute_of_runAll (halive : after.crash? = none) :
    (runner.execute script name).apply state = (.ok (runner.reportOf name outcome after), after) :=
  orCrash_apply_of_none (runner.runReporting_apply name h) halive

/-- A run in which the program crashes is not. -/
theorem execute_of_crash {crash : Crash} (hcrash : after.crash? = some crash) :
    (runner.execute script name).apply state = (.error (.crash crash), after) :=
  orCrash_apply_of_some (runner.runReporting_apply name h) hcrash

end Execute

/-- A report on a run is made of what the run has come to. -/
theorem report_of_execute (h : (runner.execute script name).apply state = (.ok report, after)) :
    after = ((runner.runAll script.lines).apply state).2 ∧
      report = runner.reportOf name ((runner.runAll script.lines).apply state).1 after := by
  rcases hrun : (runner.runAll script.lines).apply state with ⟨outcome, ended⟩
  cases hcrash : ended.crash? with
  | none =>
    rw [runner.execute_of_runAll name hrun hcrash] at h
    cases h
    exact ⟨rfl, rfl⟩
  | some crash =>
    rw [runner.execute_of_crash name hrun hcrash] at h
    cases h

/-- Setting variables changes the script scope and nothing else. -/
theorem setAll_apply (initial : List (String × String)) (state : State σ) :
    ∃ outcome script, (setAll initial).apply state =
      (outcome, { state with vars := { state.vars with script } }) := by
  induction initial generalizing state with
  | nil => exact ⟨.ok (), state.vars.script, rfl⟩
  | cons assignment rest ih =>
    rw [setAll, bind_apply, get_apply]
    unfold Variables.set
    dsimp only
    cases Variables.validName assignment.1 with
    | false => exact ⟨.error (.variable (.invalidName assignment.1)), state.vars.script, rfl⟩
    | true => exact ih { state with
        vars := { state.vars with script := state.vars.script.insert assignment.1 assignment.2 } }

/-- The state in which the lines of an accepted script begin to run: the warnings are printed and the
variables of the runner are set. -/
def Starts (warnings : List Diagnostic) (state begun : State σ) : Prop :=
  (setAll runner.initial).apply (state.fresh.warn warnings) = (.ok (), begun)

theorem Starts.exists_script {runner : Runner σ} {warnings : List Diagnostic}
    {state begun : State σ} (h : runner.Starts warnings state begun) :
    ∃ script, begun =
      { state.fresh.warn warnings with vars := { state.vars with script } } := by
  obtain ⟨outcome, script, happly⟩ := setAll_apply runner.initial (state.fresh.warn warnings)
  exact ⟨script, congrArg Prod.snd (h.symm.trans happly)⟩

/-- Runs the lines of a script, or only lists them in a dry run. -/
def make (script : Script) (name : String) : Run σ Report :=
  if runner.settings.dryRun then runner.preview script name else runner.execute script name

/-! ### The cases of a run -/

theorem runScript_of_ensureValid_eq_error {failure : Failure}
    (hrefused : script.ensureValid runner.limits = .error failure) :
    (runner.runScript script name).apply state = (.error failure, state.fresh) := by
  show (runner.runFresh script name).apply state.fresh = _
  unfold runFresh
  rw [hrefused]
  rfl

section Accepted

variable {warnings : List Diagnostic} (hvalid : script.ensureValid runner.limits = .ok warnings)

include hvalid

theorem runFresh_of_ensureValid : runner.runFresh script name = (do
    Run.modify (.warn warnings)
    setAll runner.initial
    let report ← runner.make script name
    runner.writeLog report
    return report) := by
  unfold runFresh make
  rw [hvalid]
  cases hdry : runner.settings.dryRun <;> rfl

theorem runScript_of_setAll_eq_error {failure : Failure}
    (hset : (setAll runner.initial).apply (state.fresh.warn warnings) = (.error failure, after)) :
    (runner.runScript script name).apply state = (.error failure, after) := by
  show (runner.runFresh script name).apply state.fresh = _
  rw [runner.runFresh_of_ensureValid hvalid, bind_apply, modify_apply]
  dsimp only
  rw [bind_apply, hset]

theorem runScript_of_starts {begun : State σ} (hbegun : runner.Starts warnings state begun) :
    (runner.runScript script name).apply state = (do
      let report ← runner.make script name
      runner.writeLog report
      return report : Run σ Report).apply begun := by
  have hset : (setAll runner.initial).apply (state.fresh.warn warnings) = (.ok (), begun) := hbegun
  show (runner.runFresh script name).apply state.fresh = _
  rw [runner.runFresh_of_ensureValid hvalid, bind_apply, modify_apply]
  dsimp only
  rw [bind_apply, hset]

/-- A report on a script that was accepted comes from a preview or from a run of the lines. -/
theorem exists_starts (h : (runner.runScript script name).apply state = (.ok report, after)) :
    ∃ begun ended, runner.Starts warnings state begun ∧
      ((runner.settings.dryRun = true ∧
          (runner.preview script name).apply begun = (.ok report, ended)) ∨
        (runner.settings.dryRun = false ∧
          (runner.execute script name).apply begun = (.ok report, ended))) := by
  rcases hset : (setAll runner.initial).apply (state.fresh.warn warnings) with
    ⟨failure | _, begun⟩
  · rw [runner.runScript_of_setAll_eq_error hvalid hset] at h
    cases h
  · rw [runner.runScript_of_starts hvalid hset] at h
    obtain ⟨made, ended, hmade, h⟩ := exists_of_bind_apply h
    -- Writing the log does not change the report.
    obtain ⟨_, _, -, h⟩ := exists_of_bind_apply h
    cases h
    refine ⟨begun, ended, hset, ?_⟩
    unfold make at hmade
    split at hmade
    next hdry => exact .inl ⟨hdry, hmade⟩
    next hdry => exact .inr ⟨eq_false_of_ne_true hdry, hmade⟩

end Accepted

theorem success_reportOf (name : String) (flow : Flow) (state : State σ) :
    (runner.reportOf name (.ok flow) state).success = true ↔
      flow = .completed ∧ state.uncaught = 0 := by
  cases flow <;> simp [reportOf]

/-- A report on a run, not on a preview, is made of what the run of the lines has recorded. -/
theorem exists_run {warnings : List Diagnostic}
    (hvalid : script.ensureValid runner.limits = .ok warnings)
    (hdry : runner.settings.dryRun = false)
    (h : (runner.runScript script name).apply state = (.ok report, after)) :
    ∃ begun flow ended, runner.Starts warnings state begun ∧
      (runner.runAll script.lines).apply begun = (.ok flow, ended) ∧
      report = runner.reportOf name (.ok flow) ended := by
  obtain ⟨begun, ended, hbegun, ⟨hdry', -⟩ | ⟨-, hmade⟩⟩ := runner.exists_starts hvalid h
  · rw [hdry] at hdry'
    cases hdry'
  · obtain ⟨flow, hflow⟩ := runner.succeeds_run (Script.accepts_of_ensureValid hvalid)
      (.ofFlag runner.settings.continueOnError) begun
    have hrun : (runner.runAll script.lines).apply begun =
        (.ok flow, ((runner.runAll script.lines).apply begun).2) := Prod.ext hflow rfl
    obtain ⟨rfl, rfl⟩ := runner.report_of_execute hmade
    rw [hrun]
    exact ⟨begun, flow, _, hbegun, hrun, rfl⟩

/-- A report on a preview is a success with nothing in its log. -/
theorem preview_eq_ok (h : (runner.preview script name).apply state = (.ok report, after)) :
    report.success = true ∧ report.log = [] := by
  obtain ⟨_, _, -, h⟩ := exists_of_bind_apply h
  obtain ⟨_, _, -, h⟩ := exists_of_bind_apply h
  cases h
  exact ⟨rfl, rfl⟩

end Runner

end BatchScript
