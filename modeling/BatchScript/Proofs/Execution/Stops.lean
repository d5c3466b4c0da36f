import BatchScript.Proofs.Execution.Accounts

/-!
# What stops a run

A run of an accepted script is stopped only by a failure, which shows among the results: one on a line
that is not covered, or one in the body of an attempt that has no `@catch` and is not covered itself
(`keeps_blamed`). Such an attempt goes by the failures that were recorded in its body, whether or not an
attempt inside the body has caught them. So a run in which every failure was caught may be stopped all
the same (`caught_run_stopped`), but not if no failure lies in a body of that kind.
-/

namespace BatchScript

variable {σ : Type}

/-! ## Positions of attempts without a handler -/

/-- A position lies in the body of an attempt that has no `@catch` and is not covered itself. -/
def unhandledAt (lines : List Line) (spans : List Span) (position : Nat) : Bool :=
  spans.any fun span => span.kind = .attempt && !span.catches lines &&
    !coveredAt lines spans span.opener && span.inBody position

theorem unhandledAt_of_mem {lines : List Line} {spans : List Span} {span : Span} {position : Nat}
    (hspan : span ∈ spans) (hkind : span.kind = .attempt) (hcatches : span.catches lines = false)
    (hcovered : coveredAt lines spans span.opener = false) (hinside : span.inBody position = true) :
    unhandledAt lines spans position = true := by
  refine List.any_eq_true.2 ⟨span, hspan, ?_⟩
  rw [hkind, hcatches, hcovered, hinside]
  rfl

/-! ## The promise -/

namespace Promise

/-- Where lines are not covered, a stop is due to a failure that is not covered, or that an attempt
without `@catch` has counted. -/
def blamed (lines : List Line) (spans : List Span) (covered : Bool) : Promise σ :=
  fun new _ outcome _ => covered = false → outcome = .ok .stopped →
    ∃ result ∈ new, result.success = false ∧
      (coveredAt lines spans result.position = false ∨
        unhandledAt lines spans result.position = true)

theorem eq_stopped_of_under {policy : Policy} {flow : Flow} (h : flow.under policy = .stopped) :
    flow = .stopped := by
  cases flow with
  | completed => cases h
  | stopped => rfl

theorem lawful_blamed (lines : List Line) (spans : List Span) (covered : Bool) (policy : Policy) :
    (blamed lines spans covered : Promise σ).Lawful policy where
  rest _ _ := nofun
  fail _ _ _ := nofun
  script h _ _ := h
  seq _ _ _ h' hcovered hstopped := by
    obtain ⟨result, hmem, hblame⟩ := h' hcovered hstopped
    exact ⟨result, List.mem_append_right _ hmem, hblame⟩
  under h hcovered hstopped :=
    h hcovered (congrArg Except.ok (eq_stopped_of_under (Except.ok.inj hstopped)))

/-- Only a failure stops a single line. -/
theorem exists_of_single {line : Line} {policy : Policy} {new : List LineResult}
    {before after : State σ} (h : single line policy new before (.ok .stopped) after) :
    ∃ result ∈ new, result.success = false := by
  have hsettle := h.2 .stopped rfl
  cases hall : new.all (·.success) with
  | true =>
    rw [hall] at hsettle
    cases hsettle
  | false => simpa using hall

theorem blamed_of_single {lines : List Line} {spans : List Span} (hnumbered : Numbered lines)
    {position : Nat} {line : Line} (hline : lines[position]? = some line) {covered : Bool}
    (hcovered : coveredAt lines spans position = covered) {policy : Policy} {new : List LineResult}
    {before after : State σ} {outcome : Except Failure Flow}
    (h : single line policy new before outcome after) :
    blamed lines spans covered new before outcome after := by
  rintro rfl rfl
  obtain ⟨result, hmem, hfailed⟩ := exists_of_single h
  obtain ⟨hle, hlt⟩ := placed_of_single hnumbered hline h result hmem
  refine ⟨result, hmem, hfailed, .inl ?_⟩
  rw [Nat.le_antisymm (Nat.le_of_lt_succ hlt) hle, hcovered]

end Promise

/-! ## Ranges -/

namespace Interpreter

open Validation Promise

variable (interpreter : Interpreter σ) {limits : Limits} {lines : List Line} {spans : List Span}
  {start stop : Nat}

/-- A range that is not covered is stopped by a failure that shows. -/
theorem keeps_blamed (h : Outlines limits lines spans) (hnumbered : Numbered lines)
    (hentered : Entered lines start stop) (covered : Bool)
    (hcovered : start < stop → coveredAt lines spans start = covered) (policy : Policy) :
    (interpreter.runRange lines start stop policy).Keeps (blamed lines spans covered) := by
  refine interpreter.keeps_by_coverage h (lawful_blamed lines spans) ?_
    (fun hline hcovered hsingle => blamed_of_single hnumbered hline hcovered hsingle) ?_
    hentered covered hcovered policy
  · intro covered first last before between outcome after _ _ hfirst _ hcovered _
    obtain ⟨result, hmem, hblame⟩ := hfirst hcovered rfl
    exact ⟨result, List.mem_append_left _ hmem, hblame⟩
  · intro line span stop covered hbegins hcovered _ policy
    have hplaced := interpreter.keeps_placed h.accepts hnumbered
      (hbegins.entered.body hbegins.opener_lt hbegins.find) .continue
    refine hplaced.covered (fun hcatches => ?_) fun hcatches => ?_
    · -- What stops the body goes no further if there is a `@catch`.
      intro new before outcome after _ _ hstopped
      rw [hcatches] at hstopped
      cases outcome <;> simp [Except.map] at hstopped
    · -- Without one, any failure in the body may stop the attempt.
      intro new before outcome after hplaced hnot hstopped
      rw [hcatches] at hstopped
      cases hfailed : new.any (!·.success) with
      | false =>
        rw [hfailed] at hstopped
        cases outcome <;> simp [Except.map] at hstopped
      | true =>
        obtain ⟨result, hmem, hresult⟩ := List.any_eq_true.1 hfailed
        obtain ⟨hle, hlt⟩ := hplaced result hmem
        refine ⟨result, hmem, by simpa using hresult, .inr ?_⟩
        exact unhandledAt_of_mem (h.mem_of_delimits hbegins.delimits) hbegins.kind_eq hcatches
          (hcovered.trans hnot) (Span.inBody_iff.2 ⟨hle, hlt⟩)

/-- A run without uncaught failures completes if no failure is left unhandled. -/
theorem completed_run (h : Outlines limits lines spans) (hnumbered : Numbered lines)
    (policy : Policy) {state : State σ} (hstate : state.Unrecorded)
    (huncaught : ((interpreter.run lines policy).apply state).2.uncaught = 0)
    (hhandled : ∀ result ∈ ((interpreter.run lines policy).apply state).2.results.toList,
      result.success = false → unhandledAt lines spans result.position = false) :
    ((interpreter.run lines policy).apply state).1 = .ok .completed := by
  have hblamed := interpreter.keeps_blamed h hnumbered .whole false
    (fun _ => coveredAt_zero lines spans) policy
  rw [← run_eq_runRange] at hblamed
  have hblame := hblamed.of_unrecorded hstate
  rw [interpreter.uncaught_run h hnumbered policy hstate] at huncaught
  obtain ⟨flow, hflow⟩ := interpreter.succeeds_run h.accepts policy state
  rw [hflow] at hblame ⊢
  cases flow with
  | completed => rfl
  | stopped =>
    obtain ⟨result, hmem, hfailed, hcovered | hunhandled⟩ := hblame rfl rfl
    · rw [LineResult.countP_isUncaught_eq_zero.1 huncaught result hmem hfailed] at hcovered
      cases hcovered
    · rw [hhandled result hmem hfailed] at hunhandled
      cases hunhandled

end Interpreter

/-! ## Accepted scripts -/

namespace Script

/-- A run of an accepted script completes if every failure was caught and none lies in the body of a
`@try` that has no `@catch` and is not covered itself. The report on such a run is a success. -/
theorem exists_outline_completed {text : String} {limits : Limits} {warnings : List Diagnostic}
    (h : (parse text).ensureValid limits = .ok warnings) :
    ∃ spans, Span.outline (parse text).lines = .ok spans ∧
      (∀ {σ : Type} (interpreter : Interpreter σ) (policy : Policy) (state after : State σ)
        (outcome : Except Failure Flow),
        (interpreter.run (parse text).lines policy).apply state.fresh = (outcome, after) →
        after.uncaught = 0 →
        (∀ result ∈ after.results.toList, result.success = false →
          unhandledAt (parse text).lines spans result.position = false) →
        outcome = .ok .completed) ∧
      ∀ {σ : Type} (runner : Runner σ) (name : String) (state after : State σ) (report : Report),
        runner.limits = limits → runner.settings.dryRun = false →
        (runner.runScript (parse text) name).apply state = (.ok report, after) →
        (∀ result ∈ report.log, result.success = false →
          coveredAt (parse text).lines spans result.position = true ∧
          unhandledAt (parse text).lines spans result.position = false) →
        report.success = true := by
  obtain ⟨spans, houtline, houtlines⟩ := exists_outlines h
  have hnumbered := numbered_parse text
  refine ⟨spans, houtline, ?_, ?_⟩
  · intro σ interpreter policy state after outcome hrun huncaught hhandled
    have hcompleted := interpreter.completed_run houtlines hnumbered policy state.unrecorded_fresh
    rw [hrun] at hcompleted
    exact hcompleted huncaught hhandled
  · rintro σ runner name state after report rfl hdry hreport hlog
    obtain ⟨begun, flow, ended, hbegun, hrun, rfl⟩ := runner.exists_run h hdry hreport
    have hcount := runner.uncaught_run houtlines hnumbered
      (.ofFlag runner.settings.continueOnError) hbegun.unrecorded
    have hcompleted := runner.completed_run houtlines hnumbered
      (.ofFlag runner.settings.continueOnError) hbegun.unrecorded
    have hrun : (runner.run (parse text).lines
        (.ofFlag runner.settings.continueOnError)).apply begun = (.ok flow, ended) := hrun
    rw [hrun] at hcount hcompleted
    have huncaught : ended.uncaught = 0 := by
      rw [hcount, LineResult.countP_isUncaught_eq_zero]
      exact fun result hmem hfailed => (hlog result hmem hfailed).1
    have hflow := hcompleted huncaught fun result hmem hfailed => (hlog result hmem hfailed).2
    exact (runner.success_reportOf name flow ended).2 ⟨Except.ok.inj hflow, huncaught⟩

theorem exists_outline_completed_sample :
    sample.ensureValid {} = .ok [] ∧
      ∃ spans, Span.outline sample.lines = .ok spans ∧
        ∀ (interpreter : Interpreter Unit) (policy : Policy) (state after : State Unit)
          (outcome : Except Failure Flow),
          (interpreter.run sample.lines policy).apply state.fresh = (outcome, after) →
          after.uncaught = 0 →
          (∀ result ∈ after.results.toList, result.success = false →
            unhandledAt sample.lines spans result.position = false) →
          outcome = .ok .completed := by
  obtain ⟨spans, houtline, hcompleted, -⟩ := exists_outline_completed ensureValid_sample
  exact ⟨ensureValid_sample, spans, houtline, hcompleted⟩

/-- An attempt without a `@catch` around one that has caught its failure. -/
def rethrown : Script :=
  .parse "@try
@try
fail
@catch
repair
@endtry
@endtry"

/-- The run is stopped though its only failure was caught. -/
theorem caught_run_stopped :
    rethrown.ensureValid {} = .ok [.warning 1 .uncaught] ∧
      ∃ after, (Interpreter.sample.runAll rethrown.lines).apply State.sample =
          (.ok .stopped, after) ∧
        after.uncaught = 0 ∧ after.results.toList.map (·.success) = [false, true] := by
  have hfound : rethrown.diagnostics ++ Validation.checkLines {} [] rethrown.lines =
      [.warning 1 .uncaught] := by decide +kernel
  constructor
  · unfold ensureValid validate
    rw [hfound, List.mergeSort_singleton]
    rfl
  · obtain ⟨after, hrun, hvalue⟩ : ∃ after,
        (Interpreter.sample.run rethrown.lines .abort).apply State.sample = (.ok .stopped, after) ∧
          (after.uncaught, after.results.toList.map (·.success)) = (0, [false, true]) :=
      Interpreter.apply_run_of_ofLines?
        (fun after => (after.uncaught, after.results.toList.map (·.success))) (by decide +kernel)
    exact ⟨after, hrun, congrArg Prod.fst hvalue, congrArg Prod.snd hvalue⟩

end Script

end BatchScript
