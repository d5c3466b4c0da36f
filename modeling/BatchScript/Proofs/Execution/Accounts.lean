import BatchScript.Proofs.Execution.Completion
import BatchScript.Proofs.Execution.Places

/-!
# Uncaught failures are those outside of covered bodies

A run counts a failure as uncaught by the number of attempts that it is in the body of at the time.
In an accepted script this is told from the lines alone: the count is that of the failed results whose
lines lie in no body of a `@try` that has a `@catch` (`keeps_accounted`). So the report on a script is a
success if and only if the run was not stopped and every failed line of the log is covered.
-/

namespace BatchScript

variable {σ : Type}

/-! ## The promise -/

/-- A failure on a line that no attempt covers. -/
def LineResult.isUncaught (lines : List Line) (spans : List Span) (result : LineResult) : Bool :=
  !result.success && !coveredAt lines spans result.position

theorem LineResult.countP_isUncaught {lines : List Line} {spans : List Span} {covered : Bool}
    {results : List LineResult}
    (h : ∀ result ∈ results, coveredAt lines spans result.position = covered) :
    results.countP (·.isUncaught lines spans) =
      if covered then 0 else results.countP (!·.success) := by
  cases covered with
  | true =>
    refine List.countP_eq_zero.2 fun result hmem => ?_
    rw [isUncaught, h result hmem, Bool.not_true, Bool.and_false]
    exact Bool.false_ne_true
  | false =>
    refine List.countP_congr fun result hmem => ?_
    rw [isUncaught, h result hmem, Bool.not_false, Bool.and_true]

namespace Promise

/-- Where attempts with a `@catch` are being run exactly if the lines are covered, the count of uncaught
failures grows by the failures on lines that are not. -/
def accounted (lines : List Line) (spans : List Span) (covered : Bool) : Promise σ :=
  fun new before _ after => (before.catchDepth = 0 ↔ covered = false) →
    after.uncaught = before.uncaught + new.countP (·.isUncaught lines spans)

theorem lawful_accounted (lines : List Line) (spans : List Span) (covered : Bool)
    (policy : Policy) : (accounted lines spans covered : Promise σ).Lawful policy where
  rest _ _ := rfl
  fail _ _ _ := rfl
  script h _ _ := h
  seq hrecords _ h h' hdepth := by
    have hlast := h' (hrecords.catchDepth ▸ hdepth)
    rw [hlast, h hdepth, List.countP_append, Nat.add_assoc]
  under h := h

theorem accounted_of_single {lines : List Line} {spans : List Span} (hnumbered : Numbered lines)
    {position : Nat} {line : Line} (hline : lines[position]? = some line) {covered : Bool}
    (hcovered : coveredAt lines spans position = covered) {policy : Policy}
    {new : List LineResult} {before after : State σ} {outcome : Except Failure Flow}
    (h : single line policy new before outcome after) :
    accounted lines spans covered new before outcome after := by
  intro hdepth
  have hplaced := placed_of_single hnumbered hline h
  have hcount : new.countP (·.isUncaught lines spans) =
      if covered then 0 else new.countP (!·.success) := by
    refine LineResult.countP_isUncaught fun result hmem => ?_
    obtain ⟨hle, hlt⟩ := hplaced result hmem
    rw [Nat.le_antisymm (Nat.le_of_lt_succ hlt) hle, hcovered]
  rw [hcount, h.1.uncaught]
  cases covered with
  | true => rw [if_neg (mt hdepth.1 Bool.noConfusion), if_pos rfl]
  | false => rw [if_pos (hdepth.2 rfl), if_neg Bool.false_ne_true]

end Promise

/-! ## Ranges -/

namespace Interpreter

open Validation Promise

variable (interpreter : Interpreter σ) {limits : Limits} {lines : List Line} {spans : List Span}
  {start stop : Nat}

/-- The rule for a promise that depends on whether lines are covered. Only a step into the body of an
attempt with a `@catch` leads from lines that are not covered to covered ones, so the promise is shown
for single lines and for the bodies of attempts. -/
theorem keeps_by_coverage (h : Outlines limits lines spans) {promise : Bool → Promise σ}
    (hlawful : ∀ covered policy, (promise covered).Lawful policy)
    (hstays : ∀ covered {first last before between outcome after},
      State.Records first before between → State.Records last between after →
      promise covered first before (.ok .stopped) between → promise covered last between outcome after →
        promise covered (first ++ last) before (outcome.map fun _ => .stopped) after)
    (hsingle : ∀ {covered position line policy new before outcome after},
      lines[position]? = some line → coveredAt lines spans position = covered →
      single line policy new before outcome after → promise covered new before outcome after)
    (hbody : ∀ {line span stop covered}, Begins limits lines line .attempt span stop →
      coveredAt lines spans span.opener = covered →
      (∀ inner, (span.opener + 1 < span.segmentEnd span.opener →
          coveredAt lines spans (span.opener + 1) = inner) → (interpreter.runRange lines
        (span.opener + 1) (span.segmentEnd span.opener) .continue).Keeps (promise inner)) →
      ∀ policy, (Interpreter.covered (span.catches lines) (interpreter.runRange lines
        (span.opener + 1) (span.segmentEnd span.opener) .continue)).Keeps
          ((promise covered).tried policy (span.catches lines)))
    (hentered : Entered lines start stop) (covered : Bool)
    (hcovered : start < stop → coveredAt lines spans start = covered) (policy : Policy) :
    (interpreter.runRange lines start stop policy).Keeps (promise covered) := by
  revert covered policy
  refine h.accepts.range_induction (motive := fun start stop => ∀ covered,
    (start < stop → coveredAt lines spans start = covered) → ∀ policy,
      (interpreter.runRange lines start stop policy).Keeps (promise covered)) ?_ ?_ ?_ hentered
  · intro start stop hend covered _ policy
    rw [interpreter.runRange_of_le hend]
    exact (hlawful covered policy).keeps_completed
  · intro start stop line hentered hstart hline hopening hrest covered hcovered policy
    rw [(Turn.line hstart hline hopening).runRange_eq]
    refine (hlawful covered policy).keeps_followedBy ?_ (hrest covered (fun hnext => ?_) _)
    · exact (interpreter.keeps_runLine line policy).mono (hsingle hline (hcovered hstart))
    · exact (h.coveredAt_next hentered hline hopening hnext).trans (hcovered hstart)
  · intro line opening span stop hbegins hinner hparts hrest covered hcovered policy
    have hcovered := hcovered hbegins.opener_lt
    have hparts' : ∀ marker ∈ span.branches, (interpreter.runRange lines (marker + 1)
        (span.segmentEnd marker) policy).Keeps (promise covered) :=
      fun marker hmarker => hparts marker hmarker covered
        (fun _ => (h.coveredAt_part hbegins hmarker).trans hcovered) policy
    rw [hbegins.runRange_eq]
    refine (hlawful covered policy).keeps_followedBy ?_ (hrest covered
      (fun hstop => (h.coveredAt_rest hbegins hstop).trans hcovered) policy)
    refine hbegins.keeps_block interpreter (hlawful covered policy) ?_ ?_ hparts' ?_
    · intro position hposition refused hrefused failure
      have hinside : coveredAt lines spans position = covered := by
        rcases List.mem_cons.1 hposition with rfl | hmarker
        · exact hcovered
        · exact (h.coveredAt_marker hbegins hmarker).trans hcovered
      exact (interpreter.keeps_failBlock refused policy failure).mono (hsingle hrefused hinside)
    · intro hopening
      have hsame := h.coveredAt_body hbegins (hbegins.catches_eq_false hopening)
      exact hinner covered (fun _ => hsame.trans hcovered) policy
    · rintro rfl
      exact hbegins.keeps_attempt interpreter (hlawful covered policy) (hstays covered)
        (hbody hbegins hcovered (fun inner hinside => hinner inner hinside .continue) policy) hparts'

/-- A range counts the failures on lines that are not covered, if it is entered with attempts in
accordance with its own lines. -/
theorem keeps_accounted (h : Outlines limits lines spans) (hnumbered : Numbered lines)
    (hentered : Entered lines start stop) (covered : Bool)
    (hcovered : start < stop → coveredAt lines spans start = covered) (policy : Policy) :
    (interpreter.runRange lines start stop policy).Keeps (accounted lines spans covered) := by
  refine interpreter.keeps_by_coverage h (lawful_accounted lines spans) ?_
    (fun hline hcovered hsingle => accounted_of_single hnumbered hline hcovered hsingle) ?_
    hentered covered hcovered policy
  · exact fun covered _ _ _ _ _ _ hrecords hrecords' =>
      (lawful_accounted lines spans covered policy).seq hrecords hrecords'
  · intro line span stop covered hbegins hcovered hinner policy
    cases hcatches : span.catches lines with
    | false =>
      have hsame := h.coveredAt_body hbegins hcatches
      exact (hinner covered fun _ => hsame.trans hcovered).covered nofun fun _ => id
    | true =>
      -- The body runs one level deeper, and all of its lines are covered.
      have hinside := hinner true fun hlt =>
        h.coveredAt_of_catches hbegins hcatches (Nat.lt_succ_self _) hlt
      refine hinside.covered (fun _ => ?_) nofun
      exact fun haccounted _ => haccounted (by simp)

end Interpreter

/-! ## Whole runs -/

/-- Nothing is recorded yet, and no attempt is being run. -/
structure State.Unrecorded (state : State σ) : Prop where
  results : state.results = #[]
  uncaught : state.uncaught = 0
  catchDepth : state.catchDepth = 0

theorem State.unrecorded_fresh (state : State σ) : state.fresh.Unrecorded :=
  ⟨rfl, rfl, rfl⟩

theorem Runner.Starts.unrecorded {runner : Runner σ} {warnings : List Diagnostic}
    {state begun : State σ} (h : runner.Starts warnings state begun) : begun.Unrecorded := by
  obtain ⟨script, rfl⟩ := h.exists_script
  exact ⟨rfl, rfl, rfl⟩

/-- What a run from such a state promises of its new results is so of all its results. -/
theorem Run.Keeps.of_unrecorded {run : Run σ Flow} {promise : Promise σ} (h : run.Keeps promise)
    {state : State σ} (hstate : state.Unrecorded) :
    promise (run.apply state).2.results.toList state (run.apply state).1 (run.apply state).2 := by
  obtain ⟨new, hrecords, hpromise⟩ := h state
  have hall := hrecords.results
  rw [hstate.results] at hall
  rw [hall]
  exact hpromise

theorem coveredAt_zero (lines : List Line) (spans : List Span) :
    coveredAt lines spans 0 = false := by
  rw [Bool.eq_false_iff]
  intro hcovered
  obtain ⟨span, -, -, hinside⟩ := coveredAt_iff.1 hcovered
  exact Nat.not_lt_zero _ (Span.inBody_iff.1 hinside).1

namespace Interpreter

variable (interpreter : Interpreter σ) {limits : Limits} {lines : List Line} {spans : List Span}

/-- The count of uncaught failures is that of the failures that are not covered. -/
theorem uncaught_run (h : Validation.Outlines limits lines spans) (hnumbered : Numbered lines)
    (policy : Policy) {state : State σ} (hstate : state.Unrecorded) :
    ((interpreter.run lines policy).apply state).2.uncaught =
      ((interpreter.run lines policy).apply state).2.results.toList.countP
        (·.isUncaught lines spans) := by
  have haccounted := interpreter.keeps_accounted h hnumbered .whole false
    (fun _ => coveredAt_zero lines spans) policy
  rw [← run_eq_runRange] at haccounted
  have huncaught := haccounted.of_unrecorded hstate (iff_of_true hstate.catchDepth rfl)
  rw [huncaught, hstate.uncaught, Nat.zero_add]

end Interpreter

theorem LineResult.countP_isUncaught_eq_zero {lines : List Line} {spans : List Span}
    {results : List LineResult} :
    results.countP (·.isUncaught lines spans) = 0 ↔
      ∀ result ∈ results, result.success = false →
        coveredAt lines spans result.position = true := by
  rw [List.countP_eq_zero]
  refine forall₂_congr fun result _ => ?_
  rw [isUncaught]
  cases result.success <;> cases coveredAt lines spans result.position <;> simp

/-! ## Accepted scripts -/

namespace Script

theorem exists_outlines {script : Script} {limits : Limits} {warnings : List Diagnostic}
    (h : script.ensureValid limits = .ok warnings) :
    ∃ spans, Span.outline script.lines = .ok spans ∧
      Validation.Outlines limits script.lines spans := by
  have haccepts := accepts_of_ensureValid h
  obtain ⟨spans, houtline, hopeners, hdelimits⟩ := haccepts.exists_outline
  exact ⟨spans, houtline, haccepts, hopeners, hdelimits⟩

/-- In every run of an accepted script, the number of uncaught failures is that of the failed results
whose lines lie in no body of a `@try` that has a `@catch`, by the spans of the outline. So the report on
a run is a success if and only if the run was not stopped and every failed line of the log lies in such a
body. A dry run runs no line. -/
theorem exists_outline_uncaught {text : String} {limits : Limits} {warnings : List Diagnostic}
    (h : (parse text).ensureValid limits = .ok warnings) :
    ∃ spans, Span.outline (parse text).lines = .ok spans ∧
      (∀ {σ : Type} (interpreter : Interpreter σ) (policy : Policy) (state after : State σ)
        (outcome : Except Failure Flow),
        (interpreter.run (parse text).lines policy).apply state.fresh = (outcome, after) →
        after.uncaught = after.results.toList.countP fun result =>
          !result.success && !coveredAt (parse text).lines spans result.position) ∧
      ∀ {σ : Type} (runner : Runner σ) (name : String) (state after : State σ) (report : Report),
        runner.limits = limits →
        (runner.runScript (parse text) name).apply state = (.ok report, after) →
        (runner.settings.dryRun = true → report.success = true ∧ report.log = []) ∧
        (runner.settings.dryRun = false → ∃ begun flow ended,
          runner.Starts warnings state begun ∧
          (runner.runAll (parse text).lines).apply begun = (.ok flow, ended) ∧
          report.log = ended.results.toList ∧
          (report.success = true ↔ flow = .completed ∧
            ∀ result ∈ report.log, result.success = false →
              coveredAt (parse text).lines spans result.position = true)) := by
  obtain ⟨spans, houtline, houtlines⟩ := exists_outlines h
  have hnumbered := numbered_parse text
  refine ⟨spans, houtline, ?_, ?_⟩
  · intro σ interpreter policy state after outcome hrun
    have huncaught :=
      interpreter.uncaught_run houtlines hnumbered policy state.unrecorded_fresh
    rw [hrun] at huncaught
    exact huncaught
  · rintro σ runner name state after report rfl hreport
    constructor
    · intro hdry
      obtain ⟨begun, ended, -, ⟨-, hmade⟩ | ⟨hdry', -⟩⟩ := runner.exists_starts h hreport
      · exact runner.preview_eq_ok hmade
      · rw [hdry] at hdry'
        cases hdry'
    · intro hdry
      obtain ⟨begun, flow, ended, hbegun, hrun, rfl⟩ := runner.exists_run h hdry hreport
      have huncaught := runner.uncaught_run houtlines hnumbered
        (.ofFlag runner.settings.continueOnError) hbegun.unrecorded
      have hended : ((runner.run (parse text).lines
          (.ofFlag runner.settings.continueOnError)).apply begun).2 = ended := congrArg Prod.snd hrun
      rw [hended] at huncaught
      refine ⟨begun, flow, ended, hbegun, hrun, rfl, ?_⟩
      rw [runner.success_reportOf, huncaught, LineResult.countP_isUncaught_eq_zero]
      rfl

theorem exists_outline_uncaught_sample :
    sample.ensureValid {} = .ok [] ∧
      ∃ spans, Span.outline sample.lines = .ok spans ∧
        ∀ (interpreter : Interpreter Unit) (policy : Policy) (state after : State Unit)
          (outcome : Except Failure Flow),
          (interpreter.run sample.lines policy).apply state.fresh = (outcome, after) →
          after.uncaught = after.results.toList.countP fun result =>
            !result.success && !coveredAt sample.lines spans result.position := by
  obtain ⟨spans, houtline, huncaught, -⟩ := exists_outline_uncaught ensureValid_sample
  exact ⟨ensureValid_sample, spans, houtline, huncaught⟩

end Script

end BatchScript
