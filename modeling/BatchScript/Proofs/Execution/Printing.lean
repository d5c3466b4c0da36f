import BatchScript.CommandLine.Execution
import BatchScript.Proofs.Execution.Exits
import BatchScript.Proofs.Execution.Refusals

/-!
# The output stream in JSON mode

In JSON mode what a script echoes and the results that are shown go to the error stream, and so do the
warnings. So nothing that a line can do touches the output stream (`Interpreter.within_sameOutput`), and
a command line that asks for JSON prints the document of its report and nothing else
(`CommandLine.output_json`). Only a dry run prints: its listing goes to the output stream in every format
(`Runner.output_of_dryRun`).
-/

namespace BatchScript

variable {σ : Type}

/-- Nothing is printed to the output stream from one state to the other. -/
def State.SameOutput (before after : State σ) : Prop :=
  after.transcript.output = before.transcript.output

theorem framing_sameOutput : Framing (State.SameOutput (σ := σ)) where
  refl _ := rfl
  trans h h' := Eq.trans h' h
  script h _ _ := h
  cover h := h

open Run

/-! ## Lines -/

namespace Interpreter

variable (interpreter : Interpreter σ) (hjson : interpreter.settings.format = .json)

include hjson

/-- What is printed goes to the error stream. -/
theorem sameOutput_print (text : String) (state : State σ) :
    State.SameOutput state (state.print interpreter.settings.format text) := by
  unfold State.SameOutput State.print
  rw [hjson]
  cases state.crash? <;> rfl

theorem leaves_record (result : LineResult) :
    (interpreter.record result).Leaves State.SameOutput := by
  intro state
  show State.SameOutput state (state.record interpreter.settings result)
  unfold State.record
  cases result.success <;> cases interpreter.settings.verbose
  · rfl
  · exact interpreter.sameOutput_print hjson _ state.countFailure
  · rfl
  · exact interpreter.sameOutput_print hjson _ state

theorem within_sameOutput : interpreter.Within State.SameOutput where
  skip _ := rfl
  dispatch _ _ _ := rfl
  print := interpreter.sameOutput_print hjson
  write _ _ _ _ := rfl
  record := interpreter.leaves_record hjson

end Interpreter

/-! ## Listings -/

/-- Blank lines and comments are not listed. -/
theorem Preview.list_eq_nil {lines : List Line} (h : ∀ line ∈ lines, line.isExecutable = false)
    (preview : Preview) : (preview.list lines).1 = [] := by
  induction lines generalizing preview with
  | nil => rfl
  | cons line rest ih =>
    obtain ⟨hline, hrest⟩ := List.forall_mem_cons.1 h
    obtain ⟨number, raw, content⟩ := line
    cases content with
    | blank | comment => exact ih hrest preview
    | command | directive => cases hline

/-! ## Runners -/

namespace Runner

variable (runner : Runner σ) {script : Script} {name : String} {state : State σ}

theorem leaves_setAll (initial : List (String × String)) :
    (setAll (σ := σ) initial).Leaves State.SameOutput := by
  intro state
  obtain ⟨outcome, script, happly⟩ := setAll_apply initial state
  rw [happly]
  rfl

theorem leaves_writeLog (report : Report) :
    (runner.writeLog report).Leaves State.SameOutput := by
  unfold writeLog
  split <;> exact fun _ => rfl

/-- A listing is printed to the output stream. -/
theorem output_preview (script : Script) (name : String) (state : State σ) :
    ((runner.preview script name).apply state).2.transcript.output =
      state.transcript.output ++ (Preview.list ⟨state.vars, []⟩ script.lines).1.toArray :=
  rfl

theorem leaves_make (hjson : runner.settings.format = .json)
    (hdry : runner.settings.dryRun = true → ∀ line ∈ script.lines, line.isExecutable = false) :
    (runner.make script name).Leaves State.SameOutput := by
  intro state
  unfold make
  split
  next h =>
    show ((runner.preview script name).apply state).2.transcript.output = _
    rw [output_preview, Preview.list_eq_nil (hdry h)]
    exact Array.append_empty
  next =>
    unfold execute
    rw [snd_orCrash_apply]
    exact (runner.within_sameOutput hjson).leaves_run framing_sameOutput script.lines _ state

/-- In JSON mode a script prints nothing to the output stream, unless its lines are only listed. -/
theorem output_runScript (hjson : runner.settings.format = .json)
    (hdry : runner.settings.dryRun = true → ∀ line ∈ script.lines, line.isExecutable = false) :
    ((runner.runScript script name).apply state).2.transcript.output = #[] := by
  cases hvalid : script.ensureValid runner.limits with
  | error failure =>
    rw [runner.runScript_of_ensureValid_eq_error hvalid]
    rfl
  | ok warnings =>
    have hwarn : (Run.modify (State.warn (σ := σ) warnings)).Leaves State.SameOutput := fun _ => rfl
    have hrun : (runner.runFresh script name).Leaves State.SameOutput := by
      rw [runner.runFresh_of_ensureValid hvalid]
      refine framing_sameOutput.leaves_bind hwarn fun _ => ?_
      refine framing_sameOutput.leaves_bind (leaves_setAll _) fun _ => ?_
      refine framing_sameOutput.leaves_bind (runner.leaves_make hjson hdry) fun report => ?_
      refine framing_sameOutput.leaves_bind (runner.leaves_writeLog report) fun _ => ?_
      exact framing_sameOutput.leaves_pure report
    exact hrun state.fresh

theorem output_runFile (hjson : runner.settings.format = .json) {path : String}
    (hdry : runner.settings.dryRun = true → ∀ text, state.world.files.readText path = .ok text →
      ∀ line ∈ (Script.parse text).lines, line.isExecutable = false) :
    ((runner.runFile path).apply state).2.transcript.output = #[] := by
  unfold runFile
  dsimp only
  split
  next => rfl
  next text htext => exact runner.output_runScript hjson fun h => hdry h text htext

/-- A dry run prints its listing to the output stream, in every format. -/
theorem output_of_dryRun {warnings : List Diagnostic} {begun : State σ}
    (hvalid : script.ensureValid runner.limits = .ok warnings)
    (hbegun : runner.Starts warnings state begun) (hdry : runner.settings.dryRun = true) :
    ((runner.runScript script name).apply state).2.transcript.output =
      (Preview.list ⟨begun.vars, []⟩ script.lines).1.toArray := by
  have hlast : ∀ report, Run.Leaves (do runner.writeLog report; return report : Run σ Report)
      State.SameOutput :=
    fun report => framing_sameOutput.leaves_bind (runner.leaves_writeLog report) fun _ =>
      framing_sameOutput.leaves_pure report
  have hmake : runner.make script name = runner.preview script name := if_pos hdry
  have hempty : begun.transcript.output = #[] := by
    obtain ⟨script, rfl⟩ := hbegun.exists_script
    rfl
  have hlisting := runner.output_preview script name begun
  rw [runner.runScript_of_starts hvalid hbegun, hmake, bind_apply]
  rw [hempty, Array.empty_append] at hlisting
  rcases hpreview : (runner.preview script name).apply begun with ⟨failure | report, listed⟩ <;>
    rw [hpreview] at hlisting
  · exact hlisting
  · exact (hlast report listed).trans hlisting

end Runner

/-! ## Command lines -/

namespace CommandLine

variable {dispatch : Launcher → Dispatcher σ} {words : List String} {environment : Bindings}
  {world : World σ} {now : Instant} {arguments : Arguments} {file : String} {runner : Runner σ}

theorem execute_eq_run (hread : read environment words = .ok arguments)
    (hrunner : runnerOf? dispatch arguments now = some (file, runner)) :
    execute dispatch words environment world now =
      run arguments file runner environment world := by
  unfold execute
  rw [hread]
  dsimp only
  rw [hrunner]

theorem settings_runnerOf? (hrunner : runnerOf? dispatch arguments now = some (file, runner)) :
    runner.settings.format = (if arguments.json then .json else .human) ∧
      runner.settings.dryRun = arguments.dryRun := by
  unfold runnerOf? at hrunner
  split at hrunner
  next => cases hrunner
  next =>
    cases hrunner
    exact ⟨rfl, rfl⟩

theorem run_of_runFile {report : Report} {after : State σ}
    (h : (runner.runFile file).apply (startOf environment world) = (.ok report, after)) :
    (run arguments file runner environment world).transcript =
      (reportText arguments report after.vars).foldl (fun shown line => shown.say line)
        after.transcript := by
  simp only [run, h]

/-- In JSON mode a script prints nothing to the output stream, whatever it does, if its lines are run
and not only listed. So a command line that asks for JSON and gets a report prints the document of the
report and nothing else, whatever dispatches the commands. -/
theorem output_json (runner : Runner σ) (script : Script) (name : String) (state : State σ)
    (dispatch : Launcher → Dispatcher σ) (words : List String) (environment : Bindings)
    (world : World σ) (now : Instant) :
    (runner.settings.format = .json →
      (runner.settings.dryRun = true → ∀ line ∈ script.lines, line.isExecutable = false) →
      ((runner.runScript script name).apply state).2.transcript.output = #[]) ∧
    ∀ arguments file runner,
      read environment words = .ok arguments → arguments.json = true →
      runnerOf? dispatch arguments now = some (file, runner) →
      (arguments.dryRun = true → ∀ text, world.files.readText file = .ok text →
        ∀ line ∈ (Script.parse text).lines, line.isExecutable = false) →
      ∀ report after,
        (runner.runFile file).apply (startOf environment world) = (.ok report, after) →
        (execute dispatch words environment world now).transcript.output =
          #[report.document] := by
  refine ⟨runner.output_runScript, ?_⟩
  intro arguments file runner hread hjson hrunner hdry report after hrun
  obtain ⟨hformat, hdryRun⟩ := settings_runnerOf? hrunner
  rw [hjson, if_pos rfl] at hformat
  have hnothing : after.transcript.output = #[] := by
    have houtput : ((runner.runFile file).apply (startOf environment world)).2.transcript.output =
        #[] := runner.output_runFile hformat fun h => hdry (hdryRun.symm.trans h)
    rwa [hrun] at houtput
  rw [execute_eq_run hread hrunner, run_of_runFile hrun]
  unfold reportText
  rw [hjson]
  show after.transcript.output.push report.document = _
  rw [hnothing]
  rfl

/-! ### Samples -/

/-- Files with a script that echoes. -/
def echoing : FileSystem :=
  FileSystem.initial.add "job.batch" (.file "@echo done".toUTF8)

/-- Arguments that ask for JSON and for the results while the script runs. -/
def verboseJson : Arguments :=
  ⟨false, true, true, .run "job.batch" [] false none none 10000⟩

theorem output_json_sample :
    let words := ["--json", "--verbose", "run", "job.batch"]
    let dispatch : Launcher → Dispatcher Unit := fun _ => .sample
    let world : World Unit := ⟨echoing, ()⟩
    read .empty words = .ok verboseJson ∧
      ∃ runner report after, runnerOf? dispatch verboseJson .epoch = some ("job.batch", runner) ∧
        (runner.runFile "job.batch").apply (startOf .empty world) = (.ok report, after) ∧
        after.transcript.output = #[] ∧
        (execute dispatch words .empty world .epoch).transcript.output = #[report.document] := by
  intro words dispatch world
  have hread : read .empty words = .ok verboseJson := by decide +kernel
  have htext : echoing.readText "job.batch" = .ok "@echo done" := by decide +kernel
  obtain ⟨runner, hrunner⟩ : ∃ runner,
      runnerOf? dispatch verboseJson .epoch = some ("job.batch", runner) := ⟨_, rfl⟩
  obtain ⟨hformat, hdry⟩ := settings_runnerOf? hrunner
  have hplain : runner.unlogged = runner ∧ runner.limits = {} ∧ runner.initial = [] := by
    cases hrunner
    exact ⟨rfl, rfl, rfl⟩
  obtain ⟨hunlogged, hlimits, hinitial⟩ := hplain
  have hvalid : (Script.parse "@echo done").ensureValid runner.limits = .ok [] := by
    rw [hlimits]
    exact Script.ensureValid_of_nil (by decide +kernel)
  have hbegun : runner.Starts [] (startOf .empty world) _ :=
    Runner.starts_of_validName [] (by simp [hinitial])
  -- Nothing is exported, so the program cannot crash.
  have hwrite : (Script.parse "@echo done").lines.all (·.write? == none) = true := by decide +kernel
  obtain ⟨report, after, hrun, -⟩ | ⟨crash, -, -, -, harises⟩ :=
    Runner.concludes_unlogged "job.batch" rfl hvalid hbegun
  case inr =>
    obtain ⟨line, hline, -, text, vars, hexported, -⟩ := harises.exported
    rw [beq_iff_eq.1 (List.all_eq_true.1 hwrite line hline)] at hexported
    cases hexported
  rw [hunlogged] at hrun
  obtain ⟨hnothing, hdocument⟩ := output_json runner (.parse "@echo done") "job.batch"
    (startOf .empty world) dispatch words .empty world .epoch
  have hnothing := hnothing hformat fun h => absurd (hdry.symm.trans h) (by decide)
  rw [hrun] at hnothing
  have hfile : (runner.runFile "job.batch").apply (startOf .empty world) = (.ok report, after) := by
    unfold Runner.runFile
    have htext : (startOf .empty world).world.files.readText "job.batch" = .ok "@echo done" := htext
    dsimp only
    rw [htext]
    exact hrun
  refine ⟨hread, runner, report, after, hrunner, hfile, hnothing, ?_⟩
  exact hdocument verboseJson "job.batch" runner hread rfl hrunner
    (fun h => absurd h (by decide)) report after hfile

/-- A runner that lists lines in JSON mode. -/
def listing : Runner Unit :=
  { Interpreter.mk { dryRun := true, format := .json } .sample with }

/-- In JSON mode a dry run prints its listing to the output stream. -/
theorem output_listing :
    listing.settings.format = .json ∧
      ((listing.runScript (.parse "build") "job").apply State.sample).2.transcript.output =
        #["   1: build"] := by
  have hvalid : (Script.parse "build").ensureValid listing.limits = .ok [] :=
    Script.ensureValid_of_nil (by decide +kernel)
  have hbegun : listing.Starts [] State.sample (State.sample.fresh.warn []) := rfl
  refine ⟨rfl, ?_⟩
  rw [listing.output_of_dryRun hvalid hbegun rfl]
  decide +kernel

end CommandLine

end BatchScript
