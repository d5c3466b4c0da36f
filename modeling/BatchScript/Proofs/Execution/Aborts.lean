import BatchScript.Proofs.Execution.Accounts
import BatchScript.Proofs.Execution.Calls

/-!
# Failures under `abort`

In an accepted script without `@onerror` that runs under `abort`, a range that completes has no failure
but in the bodies of attempts with a `@catch`, and a range that is stopped has none outside of attempts
but its last result (`keeps_contained`). So a failure outside of all attempts is the last thing that the
run does, and no call of the dispatcher comes after it (`exists_outline_contained`).
-/

namespace BatchScript

variable {σ : Type}

/-! ## Lines of attempts -/

/-- A position lies between the opener and the terminator of an attempt. -/
def attemptedAt (spans : List Span) (position : Nat) : Bool :=
  spans.any fun span =>
    span.kind = .attempt && (span.opener < position && position < span.terminator)

theorem attemptedAt_of_mem {spans : List Span} {span : Span} {position : Nat} (hspan : span ∈ spans)
    (hkind : span.kind = .attempt) (hbefore : span.opener < position)
    (hafter : position < span.terminator) : attemptedAt spans position = true := by
  refine List.any_eq_true.2 ⟨span, hspan, ?_⟩
  rw [decide_eq_true hkind, decide_eq_true hbefore, decide_eq_true hafter]
  rfl

theorem Validation.Outlines.attemptedAt_of_coveredAt {limits : Limits} {lines : List Line}
    {spans : List Span} (h : Outlines limits lines spans) {position : Nat}
    (hcovered : coveredAt lines spans position = true) : attemptedAt spans position = true := by
  obtain ⟨span, hspan, hcatches, hinside⟩ := coveredAt_iff.1 hcovered
  obtain ⟨hbefore, hafter⟩ := Span.inBody_iff.1 hinside
  have hbounds := (h.delimits span hspan).segmentEnd_bounds (h.delimits span hspan).opener_lt
  have hkind := of_decide_eq_true (Bool.and_eq_true_iff.1 hcatches).1
  exact attemptedAt_of_mem hspan hkind hbefore (by omega)

/-! ## The promises -/

theorem Flow.under_abort (flow : Flow) : flow.under .abort = flow := by
  cases flow <;> rfl

theorem mem_of_mem_dropLast_append {α : Type} {first last : List α} {value : α}
    (h : value ∈ (first ++ last).dropLast) : value ∈ first ∨ value ∈ last.dropLast := by
  rw [List.dropLast_append] at h
  split at h
  · exact .inl (List.dropLast_subset _ h)
  · exact List.mem_append.1 h

theorem mem_dropLast_of_append {α : Type} {first last : List α} {value : α} (h : last ≠ []) :
    value ∈ (first ++ value :: last).dropLast := by
  rw [List.dropLast_append_of_ne_nil (List.cons_ne_nil _ _), List.dropLast_cons_of_ne_nil h]
  exact List.mem_append_right _ List.mem_cons_self

namespace Promise

/-- A run that completes has no failure on a line that is not covered. -/
def covering (lines : List Line) (spans : List Span) : Promise σ :=
  fun new _ outcome _ => outcome = .ok .completed → ∀ result ∈ new, result.success = false →
    coveredAt lines spans result.position = true

/-- A run that completes has no failure on a line that is not covered, and one that is stopped has no
failure before its last result but on lines of attempts. -/
def contained (lines : List Line) (spans : List Span) : Promise σ :=
  fun new before outcome after => covering lines spans new before outcome after ∧
    (outcome = .ok .stopped → ∀ result ∈ new.dropLast, result.success = false →
      attemptedAt spans result.position = true)

variable {limits : Limits} {lines : List Line} {spans : List Span}

theorem lawful_covering (lines : List Line) (spans : List Span) :
    (covering lines spans : Promise σ).Lawful .abort where
  rest _ _ _ hmem := absurd hmem List.not_mem_nil
  fail _ _ := nofun
  script h _ _ := h
  seq _ _ h h' hcompleted := List.forall_mem_append.2 ⟨h rfl, h' hcompleted⟩
  under h hcompleted := h (by rwa [Flow.under_abort] at hcompleted)

theorem lawful_contained (h : Validation.Outlines limits lines spans) :
    (contained lines spans : Promise σ).Lawful .abort where
  rest state := ⟨(lawful_covering lines spans).rest state, nofun⟩
  fail state failure := ⟨(lawful_covering lines spans).fail state failure, nofun⟩
  script h _ _ := h
  seq hfirst hlast hcontained hcontained' := by
    refine ⟨(lawful_covering lines spans).seq hfirst hlast hcontained.1 hcontained'.1, ?_⟩
    intro hstopped result hmem hfailed
    rcases mem_of_mem_dropLast_append hmem with hmem | hmem
    · exact h.attemptedAt_of_coveredAt (hcontained.1 rfl result hmem hfailed)
    · exact hcontained'.2 hstopped result hmem hfailed
  under hcontained := by
    rw [Flow.under_abort]
    exact hcontained

/-- Under `abort` a single line is stopped by its failure, after which it records nothing. -/
theorem contained_of_single {line : Line} {new : List LineResult} {before after : State σ}
    {outcome : Except Failure Flow} (h : single line .abort new before outcome after) :
    contained lines spans new before outcome after := by
  constructor
  · rintro rfl result hmem hfailed
    have hsettle := h.2 .completed rfl
    cases hall : new.all (·.success) with
    | true =>
      rw [List.all_eq_true.1 hall result hmem] at hfailed
      cases hfailed
    | false =>
      rw [hall] at hsettle
      cases hsettle
  · intro _ result hmem
    have hnil : new.dropLast = [] :=
      List.length_eq_zero_iff.1 (by rw [List.length_dropLast]; have := h.1.atMostOne; omega)
    rw [hnil] at hmem
    cases hmem

/-- Where failures are contained, one outside of all attempts is the last result. -/
theorem eq_nil_of_contained (h : Validation.Outlines limits lines spans)
    {front back : List LineResult} {result : LineResult} {before after : State σ} {flow : Flow}
    (hcontained : contained lines spans (front ++ result :: back) before (.ok flow) after)
    (hfailed : result.success = false) (houtside : attemptedAt spans result.position = false) :
    back = [] ∧ flow = .stopped := by
  cases flow with
  | completed =>
    have hmem : result ∈ front ++ result :: back := List.mem_append_right _ List.mem_cons_self
    have hinside := h.attemptedAt_of_coveredAt (hcontained.1 rfl result hmem hfailed)
    rw [houtside] at hinside
    cases hinside
  | stopped =>
    refine ⟨?_, rfl⟩
    by_contra hback
    have hinside := hcontained.2 rfl result (mem_dropLast_of_append hback) hfailed
    rw [houtside] at hinside
    cases hinside

end Promise

/-! ## Ranges -/

namespace Validation.Begins

open Promise

variable {limits : Limits} {lines : List Line} {spans : List Span} {line : Line} {span : Span}
  {stop : Nat} (interpreter : Interpreter σ)

/-- An attempt that completes has no failure on a line that is not covered: one in its body is either
caught or stops it. -/
theorem keeps_covering_attempt (hbegins : Begins limits lines line .attempt span stop)
    (h : Outlines limits lines spans)
    (hbody : (interpreter.runRange lines (span.opener + 1) (span.segmentEnd span.opener)
      .continue).Keeps (placed (span.opener + 1) (span.segmentEnd span.opener)))
    (hparts : ∀ marker ∈ span.branches,
      (interpreter.runRange lines (marker + 1) (span.segmentEnd marker) .abort).Keeps
        (covering lines spans)) :
    (Interpreter.attempt
      (interpreter.runRange lines (span.opener + 1) (span.segmentEnd span.opener))
      (interpreter.segments lines span) .abort).Keeps (covering lines spans) := by
  refine hbegins.keeps_attempt interpreter (lawful_covering lines spans) ?_ ?_ hparts
  · intro first last before between outcome after _ _ _ _ hcompleted
    cases outcome <;> cases hcompleted
  · refine hbody.covered (fun hcatches => ?_) fun hcatches => ?_
    · intro new before outcome after hplaced _ result hmem _
      obtain ⟨hle, hlt⟩ := hplaced result hmem
      exact h.coveredAt_of_catches hbegins hcatches hle hlt
    · intro new before outcome after _ hcompleted result hmem hfailed
      have hany : new.any (!·.success) = true :=
        List.any_eq_true.2 ⟨result, hmem, by rw [hfailed]; rfl⟩
      rw [hcatches, hany] at hcompleted
      cases outcome <;> cases hcompleted

end Validation.Begins

namespace Interpreter

open Validation Promise

variable (interpreter : Interpreter σ) {limits : Limits} {lines : List Line} {spans : List Span}
  {start stop : Nat}

/-- Without `@onerror`, failures are contained in every range under `abort`. -/
theorem keeps_contained (h : Outlines limits lines spans) (hnumbered : Numbered lines)
    (hquiet : ∀ line ∈ lines, line.onError? = none) (hentered : Entered lines start stop) :
    (interpreter.runRange lines start stop .abort).Keeps (contained lines spans) := by
  have hlawful := lawful_contained (σ := σ) h
  refine h.accepts.range_induction (motive := fun start stop =>
    (interpreter.runRange lines start stop .abort).Keeps (contained lines spans)) ?_ ?_ ?_ hentered
  · intro start stop hend
    rw [interpreter.runRange_of_le hend]
    exact hlawful.keeps_completed
  · intro start stop line hentered hstart hline hopening hrest
    rw [(Turn.line hstart hline hopening).runRange_eq, hquiet line (List.mem_of_getElem? hline)]
    exact hlawful.keeps_followedBy
      ((interpreter.keeps_runLine line .abort).mono contained_of_single) hrest
  · intro line opening span stop hbegins hbody hparts hrest
    rw [hbegins.runRange_eq]
    refine hlawful.keeps_followedBy ?_ hrest
    refine hbegins.keeps_block interpreter hlawful ?_ (fun _ => hbody) hparts ?_
    · exact fun position _ refused _ failure =>
        (interpreter.keeps_failBlock refused .abort failure).mono contained_of_single
    · rintro rfl
      have hopener := hbegins.opener_lt
      have hplacedBody := interpreter.keeps_placed h.accepts hnumbered
        (hbegins.entered.body hopener hbegins.find) .continue
      have hplaced := hbegins.keeps_placed_attempt interpreter hplacedBody fun marker hmarker =>
        interpreter.keeps_placed h.accepts hnumbered
          (hbegins.entered.part hopener hbegins.find hmarker) .abort
      have hcovering := hbegins.keeps_covering_attempt interpreter h hplacedBody
        fun marker hmarker => (hparts marker hmarker).mono fun hcontained => hcontained.1
      refine (hplaced.and hcovering).mono fun hboth => ⟨hboth.2, fun _ result hmem _ => ?_⟩
      obtain ⟨hle, hlt⟩ := hboth.1 result (List.dropLast_subset _ hmem)
      exact attemptedAt_of_mem (h.mem_of_delimits hbegins.delimits) hbegins.kind_eq hle hlt

end Interpreter

/-! ## Accepted scripts -/

namespace Script

/-- Under `abort` and without `@onerror` in the script, nothing comes after a failure outside of all
attempts: every run of an accepted script ends, its results and its calls of the dispatcher are those of
some events in order, and where an event has failed on a line that lies in no attempt, it is the last one
and the run is stopped. If the run completes, no failure is uncaught. -/
theorem exists_outline_contained {text : String} {limits : Limits} {warnings : List Diagnostic}
    (h : (parse text).ensureValid limits = .ok warnings)
    (hquiet : ∀ line ∈ (parse text).lines, line.onError? = none) :
    ∃ spans, Span.outline (parse text).lines = .ok spans ∧
      ∀ {σ : Type} (interpreter : Interpreter σ) (state : State σ),
        interpreter.settings.continueOnError = false →
        ∃ flow after events,
          (interpreter.runAll (parse text).lines).apply state.fresh = (.ok flow, after) ∧
          after.results.toList = Event.results events ∧
          (interpreter.logged.runAll (parse text).lines).apply (state.fresh.withCalls []) =
            (.ok flow, after.withCalls (Event.calls events)) ∧
          (∀ front event back, events = front ++ event :: back → event.result.success = false →
            attemptedAt spans event.result.position = false → back = [] ∧ flow = .stopped) ∧
          (flow = .completed → after.uncaught = 0) := by
  obtain ⟨spans, houtline, houtlines⟩ := exists_outlines h
  have hnumbered := numbered_parse text
  refine ⟨spans, houtline, fun interpreter state hflag => ?_⟩
  have hstate := state.unrecorded_fresh
  have hcontained := interpreter.keeps_contained houtlines hnumbered hquiet .whole
  rw [← Interpreter.run_eq_runRange] at hcontained
  have hcontained := hcontained.of_unrecorded hstate
  have hcount := interpreter.uncaught_run houtlines hnumbered .abort hstate
  obtain ⟨flow, hflow⟩ := interpreter.succeeds_run houtlines.accepts .abort state.fresh
  obtain ⟨events, hnew, hlogged⟩ := interpreter.logs_run (parse text).lines .abort state.fresh []
  rcases hrun : (interpreter.run (parse text).lines .abort).apply state.fresh with ⟨outcome, after⟩
  rw [hrun] at hcontained hcount hflow hnew hlogged
  obtain rfl : outcome = .ok flow := hflow
  have hresults : after.results.toList = Event.results events := hnew
  refine ⟨flow, after, events, ?_, hresults, ?_, ?_, ?_⟩
  · rw [Interpreter.runAll, hflag]
    exact hrun
  · rw [Interpreter.runAll]
    show (interpreter.logged.run _ (.ofFlag interpreter.settings.continueOnError)).apply _ = _
    rw [hflag]
    exact hlogged
  · rintro front event back rfl hfailed houtside
    rw [hresults, Event.results_append] at hcontained
    obtain ⟨hback, hstopped⟩ := Promise.eq_nil_of_contained houtlines hcontained hfailed houtside
    exact ⟨List.map_eq_nil_iff.1 hback, hstopped⟩
  · rintro rfl
    rw [hcount, LineResult.countP_isUncaught_eq_zero]
    exact hcontained.1 rfl

theorem exists_outline_contained_sample :
    sample.ensureValid {} = .ok [] ∧ (∀ line ∈ sample.lines, line.onError? = none) ∧
      ∃ spans, Span.outline sample.lines = .ok spans ∧
        ∀ (interpreter : Interpreter Unit) (state : State Unit),
          interpreter.settings.continueOnError = false →
          ∃ flow after events,
            (interpreter.runAll sample.lines).apply state.fresh = (.ok flow, after) ∧
            after.results.toList = Event.results events ∧
            (interpreter.logged.runAll sample.lines).apply (state.fresh.withCalls []) =
              (.ok flow, after.withCalls (Event.calls events)) ∧
            (∀ front event back, events = front ++ event :: back → event.result.success = false →
              attemptedAt spans event.result.position = false → back = [] ∧ flow = .stopped) ∧
            (flow = .completed → after.uncaught = 0) := by
  have hquiet : ∀ line ∈ sample.lines, line.onError? = none := by decide +kernel
  obtain ⟨spans, houtline, hcontained⟩ := exists_outline_contained ensureValid_sample hquiet
  exact ⟨ensureValid_sample, hquiet, spans, houtline, hcontained⟩

end Script

end BatchScript
