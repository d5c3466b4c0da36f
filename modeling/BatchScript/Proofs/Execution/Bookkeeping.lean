import BatchScript.Proofs.Execution.Journal
import BatchScript.Proofs.Execution.Refusals

/-!
# What a run books

The results of a run and the calls of its dispatcher are told by its journal (`Journal.exists_booked`).
A visit of a command line books one result, together with the call that it reports, or without a call if
the name of the command resolves to blanks only. No other visit makes a call. So nothing is lost and
nothing is booked twice, whatever loops, attempts, stops and failures lie between the visits, and the
counts of failures go along (`Journal.counted`).
-/

namespace BatchScript

variable {σ : Type}

/-! ## Results and calls -/

/-- The calls in the log of a state. -/
def State.calls (state : State (σ × List Call)) : List Call :=
  state.world.state.2

/-- Between two states exactly these events are booked. -/
structure State.Booked (events : List Event) (before after : State (σ × List Call)) : Prop where
  results : after.results.toList = before.results.toList ++ Event.results events
  calls : after.calls = before.calls ++ Event.calls events

namespace State.Booked

variable {first last : List Event} {before between after : State (σ × List Call)}

theorem trans (h : Booked first before between) (h' : Booked last between after) :
    Booked (first ++ last) before after where
  results := by rw [h'.results, h.results, Event.results_append, List.append_assoc]
  calls := by rw [h'.calls, h.calls, Event.calls_append, List.append_assoc]

/-- Where the world stays as it is, only results are booked. -/
theorem of_results (new : List LineResult)
    (hnew : after.results.toList = before.results.toList ++ new) (hworld : after.world = before.world) :
    Booked (new.map .ofResult) before after where
  results := by simpa [Event.results, Event.ofResult, Function.comp_def] using hnew
  calls := by simp [State.calls, hworld, Event.calls, Event.ofResult, Function.comp_def]

theorem of_quiet (h : before.Quiet after) : Booked [] before after :=
  of_results [] (h.results ▸ (List.append_nil _).symm) h.world

end State.Booked

/-! ## Single visits -/

namespace Interpreter

variable (interpreter : Interpreter σ)

/-- The call of a command and what comes of it in a state. -/
def callIn (state : State (σ × List Call)) (name : String) (args : List String) : Call where
  name := state.vars.resolveString name
  args := args.map state.vars.resolveString
  outcome := (interpreter.dispatch (state.vars.resolveString name)
    (args.map state.vars.resolveString) state.vars.environment state.plain.world).1

/-- What is booked by a visit. -/
inductive Books : Visit (σ × List Call) → List Event → Prop where
  | skipped {line : Line} {state : State (σ × List Call)}
      (hcontent : line.content = .blank ∨ line.content = .comment) : Books (.run line state) []
  | called {line : Line} {state : State (σ × List Call)} {name : String} {args : List String}
      (hcommand : line.content = .command name args)
      (hname : Text.trimmed (state.vars.resolveString name) ≠ "") :
      Books (.run line state) [.ofCall line.number (interpreter.callIn state name args)]
  | blank {line : Line} {state : State (σ × List Call)} {name : String} {args : List String}
      (hcommand : line.content = .command name args)
      (hname : Text.trimmed (state.vars.resolveString name) = "") :
      Books (.run line state) [.ofResult ⟨line.number,
        Command.display (state.vars.resolveString name) (args.map state.vars.resolveString), false, "",
        some (Failure.blankCommand line.text).message, 0⟩]
  | directive {line : Line} {state : State (σ × List Call)} {keyword body : String}
      (hdirective : line.content = .directive keyword body) {new : List LineResult}
      (hone : new.length ≤ 1) (hnumber : ∀ result ∈ new, result.line = line.number) :
      Books (.run line state) (new.map .ofResult)
  | refused {line : Line} {failure : Failure} {state : State (σ × List Call)} :
      Books (.refusal line failure state)
        [.ofResult ⟨line.number, line.text, false, "", some failure.message, 0⟩]

/-! ### Directives make no calls -/

theorem world_update (line : Line) (changed : Except VariableFault Variables) (state : State σ) :
    ((interpreter.update line changed).apply state).2.world = state.world := by
  cases changed with
  | ok vars => exact State.world_record _ _ { state with vars }
  | error fault => exact State.world_record _ _ state

theorem world_perform (line : Line) (directive : Directive) (state : State σ) :
    ((interpreter.perform line directive).apply state).2.world = state.world := by
  rw [perform, Run.bind_apply, Run.get_apply]
  dsimp only
  cases directive with
  | set | exported | unset => exact interpreter.world_update line _ state
  | echo text => exact State.world_record _ _ (state.print _ _)
  | onError => exact State.world_record _ _ state
  | opens | divides | closes => rfl

theorem world_act {line : Line} {keyword body : String} (h : line.content = .directive keyword body)
    (state : State σ) : ((interpreter.act line).apply state).2.world = state.world := by
  unfold act
  rw [h]
  dsimp only
  split
  · rfl
  · exact interpreter.world_perform line _ state

/-! ### Commands -/

theorem books_command (line : Line) {name : String} {args : List String}
    (hcommand : line.content = .command name args) (state : State (σ × List Call)) :
    ∃ events, interpreter.Books (.run line state) events ∧
      State.Booked events state ((interpreter.logged.command line name args).apply state).2 := by
  unfold command
  rw [Run.bind_apply, Run.get_apply]
  dsimp only
  split
  next hblank =>
    exact ⟨_, .blank hcommand hblank,
      .of_results [_] (State.records_record _ _ state).results (State.world_record _ _ state)⟩
  next hname =>
    refine ⟨_, .called hcommand hname, ?_, ?_⟩
    · exact (State.records_record _ _ { state with world := _ }).results
    · show State.calls (State.record _ _ { state with world := _ }) = _
      rw [State.calls, State.world_record]
      rfl

theorem exists_books_run (line : Line) (state : State (σ × List Call)) :
    ∃ events, interpreter.Books (.run line state) events ∧
      State.Booked events state ((interpreter.logged.act line).apply state).2 := by
  cases hcontent : line.content with
  | blank | comment =>
    refine ⟨[], .skipped (by simp [hcontent]), ?_⟩
    unfold act
    rw [hcontent]
    exact .of_results [] (List.append_nil _).symm rfl
  | command name args =>
    unfold act
    rw [hcontent]
    exact interpreter.books_command line hcontent state
  | directive keyword body =>
    obtain ⟨new, hrecords, htallies, -⟩ := interpreter.logged.answers_act line state
    exact ⟨_, .directive hcontent htallies.atMostOne htallies.number,
      .of_results new hrecords.results (interpreter.logged.world_act hcontent state)⟩

/-- Every visit books what its line tells. -/
theorem exists_books (visit : Visit (σ × List Call)) :
    ∃ events, interpreter.Books visit events ∧
      State.Booked events visit.state (interpreter.logged.leave visit) := by
  cases visit with
  | run line state => exact interpreter.exists_books_run line state
  | refusal line failure state =>
    exact ⟨_, .refused,
      .of_results [_] (State.records_record _ _ state).results (State.world_record _ _ state)⟩

/-! ## Journals -/

variable {interpreter}

/-- The results and the calls between two states are those of the visits, one after the other. -/
theorem Journal.exists_booked {before after : State (σ × List Call)}
    {visits : List (Visit (σ × List Call))} (h : interpreter.logged.Journal before visits after) :
    ∃ booked, List.Forall₂ interpreter.Books visits booked ∧
      State.Booked booked.flatten before after := by
  induction h with
  | done hquiet => exact ⟨[], .nil, .of_quiet hquiet⟩
  | @visit before after visit visits hquiet _ ih =>
    obtain ⟨events, hbooks, hbooked⟩ := interpreter.exists_books visit
    obtain ⟨others, hothers, hrest⟩ := ih
    refine ⟨events :: others, .cons hbooks hothers, ?_⟩
    exact (State.Booked.of_quiet hquiet).trans (hbooked.trans hrest)

end Interpreter

/-! ## Counts of failures -/

/-- The count of failures is that of the failed results, and no more of them are uncaught. -/
structure State.Counted (state : State σ) : Prop where
  failures : state.failures = state.failed
  uncaught_le : state.uncaught ≤ state.failures

theorem State.Counted.of_quiet {before after : State σ} (h : before.Counted)
    (hquiet : before.Quiet after) : after.Counted := by
  rw [hquiet]
  exact ⟨h.failures, h.uncaught_le⟩

namespace Interpreter

variable {interpreter : Interpreter σ}

/-- A visit appends results, and counts the failures among them. -/
theorem exists_records_leave (visit : Visit σ) :
    ∃ new, State.Records new visit.state (interpreter.leave visit) ∧
      (interpreter.leave visit).uncaught ≤ visit.state.uncaught + new.countP (!·.success) := by
  have hanswers : ∀ {run : Run σ Bool} {line : Line}, run.Answers line → ∀ state, ∃ new,
      State.Records new state (run.apply state).2 ∧
        (run.apply state).2.uncaught ≤ state.uncaught + new.countP (!·.success) := by
    intro run line h state
    obtain ⟨new, hrecords, htallies, -⟩ := h state
    refine ⟨new, hrecords, ?_⟩
    rw [htallies.uncaught]
    split <;> omega
  cases visit with
  | run line state => exact hanswers (interpreter.answers_act line) state
  | refusal line failure state => exact hanswers (interpreter.answers_record line rfl) state

theorem counted_leave {visit : Visit σ} (h : visit.state.Counted) :
    (interpreter.leave visit).Counted := by
  obtain ⟨new, hrecords, huncaught⟩ := interpreter.exists_records_leave visit
  obtain ⟨hfailures, hle⟩ := h
  have hfailed : (interpreter.leave visit).failed =
      visit.state.failed + new.countP (!·.success) := by
    rw [State.failed, hrecords.results, List.countP_append]
    rfl
  have hcount := hrecords.failures
  constructor <;> omega

namespace Journal

variable {before after : State σ} {visits : List (Visit σ)}

theorem counted (h : interpreter.Journal before visits after) (hbefore : before.Counted) :
    after.Counted := by
  induction h with
  | done hquiet => exact hbefore.of_quiet hquiet
  | visit hquiet _ ih => exact ih (counted_leave (hbefore.of_quiet hquiet))

/-- Results are only appended. -/
theorem results_prefix (h : interpreter.Journal before visits after) :
    before.results.toList <+: after.results.toList := by
  induction h with
  | done hquiet => exact hquiet.results ▸ List.prefix_refl _
  | @visit before after visit visits hquiet _ ih =>
    obtain ⟨new, hrecords, -⟩ := interpreter.exists_records_leave visit
    rw [hrecords.results, hquiet.results] at ih
    exact (List.prefix_append _ _).trans ih

end Journal

/-! ## Ranges one after the other -/

variable (interpreter) (lines : List Line)

/-- A log of the calls changes nothing in the run of a range. -/
theorem ended_logged (range : LineRange) (state : State σ) (calls : List Call) : ∃ more,
    interpreter.logged.ended lines (range.entered (state.withCalls calls)) =
      (interpreter.ended lines (range.entered state)).withCalls more := by
  obtain ⟨events, -, happly⟩ :=
    interpreter.logs_run (slice lines range.start range.stop) range.policy state calls
  exact ⟨_, congrArg Prod.snd happly⟩

theorem endedAll_logged (ranges : List LineRange) (state : State σ) (calls : List Call) : ∃ more,
    interpreter.logged.endedAll lines ranges (state.withCalls calls) =
      (interpreter.endedAll lines ranges state).withCalls more := by
  induction ranges generalizing state calls with
  | nil => exact ⟨calls, rfl⟩
  | cons range rest ih =>
    obtain ⟨more, hmore⟩ := interpreter.ended_logged lines range state calls
    obtain ⟨last, hlast⟩ := ih (interpreter.ended lines (range.entered state)) more
    exact ⟨last, (congrArg (interpreter.logged.endedAll lines rest) hmore).trans hlast⟩

/-- The books on ranges that were run one after the other by one run, which begins in a state in which
nothing is recorded: results are only appended, the failures among them are counted, and with a log of
the calls the results and the calls are those of the lines that the ranges have come to, visit by
visit. -/
structure Balances (ranges : List LineRange) (first : State σ) : Prop where
  grows : ∀ more, (interpreter.endedAll lines ranges first).results.toList <+:
    (interpreter.endedAll lines (ranges ++ more) first).results.toList
  counted : (interpreter.endedAll lines ranges first).Counted
  booked : ∃ calls visits booked,
    interpreter.logged.endedAll lines ranges (first.withCalls []) =
      (interpreter.endedAll lines ranges first).withCalls calls ∧
    interpreter.logged.Journal (first.withCalls []) visits
      ((interpreter.endedAll lines ranges first).withCalls calls) ∧
    interpreter.logged.Lists lines (interpreter.logged.entered lines ranges (first.withCalls []))
      visits ∧
    List.Forall₂ interpreter.Books visits booked ∧
    (interpreter.endedAll lines ranges first).results.toList = Event.results booked.flatten ∧
    calls = Event.calls booked.flatten

theorem balances (ranges : List LineRange) {first : State σ} (hresults : first.results = #[])
    (hcounted : first.Counted) : interpreter.Balances lines ranges first where
  grows more := by
    rw [endedAll_append]
    obtain ⟨visits, -, hjournal⟩ :=
      interpreter.recounted_all lines more (interpreter.endedAll lines ranges first)
    exact hjournal.results_prefix
  counted := by
    obtain ⟨visits, -, hjournal⟩ := interpreter.recounted_all lines ranges first
    exact hjournal.counted hcounted
  booked := by
    obtain ⟨calls, hlogged⟩ := interpreter.endedAll_logged lines ranges first []
    obtain ⟨visits, hlists, hjournal⟩ :=
      interpreter.logged.recounted_all lines ranges (first.withCalls [])
    rw [hlogged] at hjournal
    obtain ⟨booked, hbooks, hall⟩ := hjournal.exists_booked
    refine ⟨calls, visits, booked, hlogged, hjournal, hlists, hbooks, ?_, hall.calls⟩
    have hnew : _ = first.results.toList ++ _ := hall.results
    rw [hresults] at hnew
    exact hnew

end Interpreter

/-! ## Reports -/

namespace Runner

variable (runner : Runner σ) {script : Script} {name : String} {state after : State σ}
  {report : Report}

/-- A report counts the entries of its log, and the failures among them. -/
theorem counts_of_runScript (h : (runner.runScript script name).apply state = (.ok report, after)) :
    report.executed = report.log.length ∧ report.failed = report.log.countP (!·.success) := by
  cases hvalid : script.ensureValid runner.limits with
  | error failure =>
    rw [runner.runScript_of_ensureValid_eq_error hvalid] at h
    cases h
  | ok warnings =>
    obtain ⟨begun, ended, -, ⟨-, hmade⟩ | ⟨-, hmade⟩⟩ := runner.exists_starts hvalid h
    · cases hmade
      exact ⟨rfl, rfl⟩
    · obtain ⟨rfl, rfl⟩ := runner.report_of_execute hmade
      exact ⟨Array.length_toList.symm, rfl⟩

/-- Ranges that are run one after the other, whatever comes of each, lose no result and no call and book
none twice. A report on a script says how many results are in its log and how many of these are
failures. -/
theorem keeps_books (runner : Runner σ) (lines : List Line) (ranges : List LineRange)
    (state : State σ) :
    runner.Balances lines ranges state.fresh ∧
    ∀ script name report after, (runner.runScript script name).apply state = (.ok report, after) →
      report.executed = report.log.length ∧ report.failed = report.log.countP (!·.success) :=
  ⟨runner.balances lines ranges rfl ⟨rfl, Nat.le_refl 0⟩, fun _ _ _ _ => runner.counts_of_runScript⟩

/-- Two ranges of the sample, the first of which fails at a block that it does not close, and a report
on the sample. -/
theorem keeps_books_sample :
    plain.Balances Script.sample.lines [⟨0, 4, .continue⟩, ⟨3, 6, .abort⟩] State.sample.fresh ∧
      ∃ report after, (plain.runScript .sample "job").apply State.sample = (.ok report, after) ∧
        report.executed = report.log.length ∧ report.failed = report.log.countP (!·.success) := by
  obtain ⟨hbalances, hcounts⟩ :=
    plain.keeps_books Script.sample.lines [⟨0, 4, .continue⟩, ⟨3, 6, .abort⟩] State.sample
  have hbegun : plain.Starts [] State.sample _ :=
    starts_of_validName [] fun _ hmem => absurd hmem List.not_mem_nil
  have hvalid : Script.sample.ensureValid plain.limits = .ok [] := Script.ensureValid_sample
  obtain ⟨report, after, hreport, -⟩ := exists_report_of_isolated "job" rfl hvalid hbegun rfl
  have hplain : plain.unlogged = plain := rfl
  rw [hplain] at hreport
  exact ⟨hbalances, report, after, hreport, hcounts _ _ _ _ hreport⟩

end Runner

end BatchScript
