import BatchScript.Proofs.Execution.Completion
import BatchScript.Proofs.Execution.Exits
import BatchScript.Proofs.Execution.Listing
import BatchScript.Proofs.Variables.Substitution

/-!
# Exports and crashes

A run changes the environment by what its `@export` lines export, one after the other, and by nothing
else (`Interpreter.exportsOnly_run`). So the program crashes in a run if and only if, in process scope,
one of the exported values holds a NUL (`State.Exported.crash?_eq_none_iff`), and a run of an accepted
script comes to an end in every other case (`Script.run_succeeds`).

Once a program has crashed it prints nothing and dispatches nothing (`Interpreter.idle_run`), so what a
run goes on to record from there on is of no account.
-/

namespace BatchScript

open Run

variable {σ : Type}

/-! ## Exports one after the other -/

namespace Environment

/-- The environment after exports. -/
def insertAll (environment : Environment) (exports : List (String × String)) : Environment :=
  exports.foldl (fun environment pair => environment.insert pair.1 pair.2) environment

@[simp] theorem insertAll_nil (environment : Environment) : environment.insertAll [] = environment :=
  rfl

@[simp] theorem insertAll_cons (environment : Environment) (pair : String × String)
    (rest : List (String × String)) :
    environment.insertAll (pair :: rest) = (environment.insert pair.1 pair.2).insertAll rest := rfl

theorem insertAll_append (environment : Environment) (first last : List (String × String)) :
    environment.insertAll (first ++ last) = (environment.insertAll first).insertAll last :=
  List.foldl_append

/-- The program crashes at the first export that the process does not take. -/
theorem crash_insertAll (environment : Environment) (exports : List (String × String)) :
    (environment.insertAll exports).crash = environment.crash.or
      (exports.findSome? fun pair => crashOf? environment.scope pair.1 pair.2) := by
  induction exports generalizing environment with
  | nil => exact Option.or_none.symm
  | cons pair rest ih =>
    rw [insertAll_cons, ih, List.findSome?_cons]
    show (environment.crash.or (crashOf? environment.scope pair.1 pair.2)).or _ = _
    rw [Option.or_assoc]
    cases crashOf? environment.scope pair.1 pair.2 <;> rfl

/-- A process takes a variable with a valid name unless its value holds a NUL. -/
theorem writable_iff {name : String} (hname : Variables.validName name = true) (value : String) :
    writable name value = true ↔ '\x00' ∉ value.toList := by
  have hchars := Text.all_isNameChar_of_isIdentifier hname
  have hempty : name ≠ "" := by
    rintro rfl
    cases hname
  have hplain : name.toList.all (fun c => c != '=' && c != '\x00') = true := by
    refine List.all_eq_true.2 fun c hc => Bool.and_eq_true_iff.2 ⟨bne_iff_ne.2 ?_, bne_iff_ne.2 ?_⟩
    · rintro rfl
      exact absurd (hchars _ hc) (by decide)
    · rintro rfl
      exact absurd (hchars _ hc) (by decide)
  rw [writable, hplain, bne_iff_ne.2 hempty, Bool.true_and, Bool.true_and, List.all_eq_true]
  constructor
  · exact fun hall hmem => absurd (hall _ hmem) (by decide)
  · exact fun hmem c hc => bne_iff_ne.2 fun heq => hmem (heq ▸ hc)

/-- A valid name crashes the program in process scope, under a value with a NUL. -/
theorem crashOf?_eq_some_iff {name : String} (hname : Variables.validName name = true)
    {scope : Scope} {value : String} {crash : Crash} :
    crashOf? scope name value = some crash ↔
      scope = .process ∧ '\x00' ∈ value.toList ∧ crash = ⟨name, value⟩ := by
  cases scope with
  | isolated => simp [crashOf?]
  | process =>
    unfold crashOf?
    cases hwritable : writable name value with
    | true => simp [(writable_iff hname value).1 hwritable]
    | false =>
      have hmem : '\x00' ∈ value.toList := Classical.byContradiction fun hmem =>
        Bool.false_ne_true (hwritable.symm.trans ((writable_iff hname value).2 hmem))
      simp [hmem, eq_comm]

end Environment

/-! ## Lines -/

/-- Under some variables the line exports the value under the name. -/
def Line.Exports (line : Line) (name value : String) : Prop :=
  Variables.validName name = true ∧ ∃ text, ∃ vars : Variables,
    line.write? = some (.exported name text) ∧ value = vars.resolveString text

/-- Only a write that exports changes the environment. -/
theorem Variables.environment_after (vars : Variables) (write : Write) :
    (vars.after write).environment = vars.environment ∨
      ∃ name value, write = .exported name value ∧ validName name = true ∧
        (vars.after write).environment = vars.environment.insert name value := by
  cases hallowed : write.allowed with
  | false => exact .inl (congrArg environment (after_of_refused hallowed vars))
  | true =>
    cases write with
    | set name value =>
      have hname : validName name = true := hallowed
      exact .inl (by simp [after, Write.perform, Variables.set, hname])
    | unset name => exact .inl rfl
    | exported name value =>
      have hname : validName name = true := hallowed
      refine .inr ⟨name, value, rfl, hname, ?_⟩
      simp [after, Write.perform, setExported, Variables.set, Except.map, hname]

theorem Variables.environment_afterLine (vars : Variables) (line : Line) :
    (vars.afterLine line).environment = vars.environment ∨
      ∃ name value, line.Exports name value ∧
        (vars.afterLine line).environment = vars.environment.insert name value := by
  unfold afterLine
  cases hwrite : line.write? with
  | none => exact .inl rfl
  | some write =>
    rcases vars.environment_after (write.mapValue vars.resolveString) with
      hsame | ⟨name, value, hexported, hname, hinsert⟩
    · exact .inl hsame
    · refine .inr ⟨name, value, ⟨hname, ?_⟩, hinsert⟩
      cases write with
      | set | unset => cases hexported
      | exported written text =>
        cases hexported
        exact ⟨text, vars, hwrite, rfl⟩

namespace Interpreter

variable (interpreter : Interpreter σ)

theorem vars_command (line : Line) (name : String) (args : List String) (state : State σ) :
    ((interpreter.command line name args).apply state).2.vars = state.vars := by
  rw [command, bind_apply, get_apply]
  dsimp only
  split
  · exact State.vars_record _ _ _
  · exact State.vars_record _ _ _

/-- A line makes its write, and changes the variables in no other way. -/
theorem vars_act (line : Line) (state : State σ) :
    ((interpreter.act line).apply state).2.vars = state.vars.afterLine line := by
  obtain ⟨number, raw, content⟩ := line
  cases content with
  | blank | comment => rfl
  | command name args => exact interpreter.vars_command _ name args state
  | directive keyword body =>
    cases reads : Directive.read keyword body with
    | error fault =>
      have hwrite : Line.write? ⟨number, raw, .directive keyword body⟩ = none := by
        simp [Line.write?, Directive.ofLine, reads]
      simp only [act, reads, Variables.afterLine, hwrite]
      rfl
    | ok directive =>
      have hofLine : Directive.ofLine ⟨number, raw, .directive keyword body⟩ = .ok directive := reads
      simp only [act, reads]
      cases directive with
      | set | exported | unset | echo | onError =>
        obtain ⟨_, -, -, hvars⟩ := interpreter.perform_apply hofLine rfl state
        exact hvars
      | opens | divides | closes =>
        have hwrite : Line.write? ⟨number, raw, .directive keyword body⟩ = none := by
          simp [Line.write?, hofLine]
        rw [Variables.afterLine, hwrite]
        rfl

end Interpreter

/-! ## Runs -/

/-- Between two states the lines have exported this, one pair after the other. -/
structure State.Exported (lines : List Line) (exports : List (String × String))
    (before after : State σ) : Prop where
  ofLine : ∀ pair ∈ exports, ∃ line ∈ lines, line.Exports pair.1 pair.2
  environment : after.vars.environment = before.vars.environment.insertAll exports

/-- The environment has changed by exports of the lines only. -/
def State.ExportsOnly (lines : List Line) (before after : State σ) : Prop :=
  ∃ exports, State.Exported lines exports before after

theorem State.ExportsOnly.of_eq {lines : List Line} {before after : State σ}
    (h : after.vars.environment = before.vars.environment) : ExportsOnly lines before after :=
  ⟨[], fun _ hmem => absurd hmem List.not_mem_nil, h⟩

theorem framing_exportsOnly (lines : List Line) :
    Framing (State.ExportsOnly (σ := σ) lines) where
  refl _ := .of_eq rfl
  trans := by
    rintro before between after ⟨first, hfirst, hbetween⟩ ⟨last, hlast, hafter⟩
    exact ⟨first ++ last, List.forall_mem_append.2 ⟨hfirst, hlast⟩,
      by rw [hafter, hbetween, Environment.insertAll_append]⟩
  script := fun ⟨exports, hexports, henvironment⟩ _ _ => ⟨exports, hexports, henvironment⟩
  cover := fun ⟨exports, hexports, henvironment⟩ => ⟨exports, hexports, henvironment⟩

namespace Interpreter

variable (interpreter : Interpreter σ) (lines : List Line) (policy : Policy)

theorem exportsOnly_record (result : LineResult) :
    (interpreter.record result).Leaves (State.ExportsOnly lines) :=
  fun state => .of_eq (congrArg Variables.environment (State.vars_record _ result state))

theorem exportsOnly_act {line : Line} (hline : line ∈ lines) :
    (interpreter.act line).Leaves (State.ExportsOnly lines) := by
  intro state
  have hvars := congrArg Variables.environment (interpreter.vars_act line state)
  rcases state.vars.environment_afterLine line with hsame | ⟨name, value, hexports, hinsert⟩
  · exact .of_eq (hvars.trans hsame)
  · exact ⟨[(name, value)], List.forall_mem_singleton.2 ⟨line, hline, hexports⟩,
      hvars.trans hinsert⟩

/-- A run changes the environment by exports of its lines only. -/
theorem exportsOnly_run : (interpreter.run lines policy).Leaves (State.ExportsOnly lines) :=
  ((framing_exportsOnly lines).keeps_run (interpreter.exportsOnly_record lines) lines
    (fun _ hline => interpreter.exportsOnly_act lines hline) policy).leaves

end Interpreter

/-! ## Crashes -/

/-- The program crashes by a run if and only if, in process scope, a value that was exported holds a
NUL. -/
theorem State.Exported.crash?_eq_none_iff {lines : List Line} {exports : List (String × String)}
    {before after : State σ} (h : State.Exported lines exports before after)
    (halive : before.crash? = none) : after.crash? = none ↔
      (before.vars.environment.scope = .process → ∀ pair ∈ exports, '\x00' ∉ pair.2.toList) := by
  have hcrash : after.crash? = exports.findSome? fun pair =>
      Environment.crashOf? before.vars.environment.scope pair.1 pair.2 := by
    unfold State.crash? at halive ⊢
    rw [h.environment, Environment.crash_insertAll, halive, Option.none_or]
  rw [hcrash, List.findSome?_eq_none_iff]
  constructor
  · intro hnone hscope pair hpair hmem
    obtain ⟨line, -, hname, -⟩ := h.ofLine pair hpair
    have hsome := (Environment.crashOf?_eq_some_iff hname).2 ⟨hscope, hmem, rfl⟩
    rw [hnone pair hpair] at hsome
    cases hsome
  · intro hplain pair hpair
    obtain ⟨line, -, hname, -⟩ := h.ofLine pair hpair
    refine Option.eq_none_iff_forall_ne_some.2 fun crash hsome => ?_
    obtain ⟨hscope, hmem, -⟩ := (Environment.crashOf?_eq_some_iff hname).1 hsome
    exact hplain hscope pair hpair hmem

/-- What a run of lines in a scope can crash at: in process scope one of the lines exports the name
with the value, and the value holds a NUL. -/
structure Crash.Arises (crash : Crash) (scope : Scope) (lines : List Line) : Prop where
  scope_eq : scope = .process
  nul_mem : '\x00' ∈ crash.value.toList
  exported : ∃ line ∈ lines, line.Exports crash.name crash.value

theorem State.Exported.arises {lines : List Line} {exports : List (String × String)}
    {before after : State σ} (h : State.Exported lines exports before after)
    (halive : before.crash? = none) {crash : Crash} (hcrash : after.crash? = some crash) :
    crash.Arises before.vars.environment.scope lines := by
  unfold State.crash? at halive hcrash
  rw [h.environment, Environment.crash_insertAll, halive, Option.none_or,
    List.findSome?_eq_some_iff] at hcrash
  obtain ⟨first, pair, rest, rfl, hsome, -⟩ := hcrash
  obtain ⟨line, hline, hexports⟩ := h.ofLine pair (by simp)
  obtain ⟨hscope, hmem, rfl⟩ := (Environment.crashOf?_eq_some_iff hexports.1).1 hsome
  exact ⟨hscope, hmem, line, hline, hexports⟩

namespace Interpreter

variable (interpreter : Interpreter σ) {lines : List Line} {policy : Policy} {state after : State σ}

variable {outcome : Except Failure Flow} (halive : state.crash? = none)
  (hrun : (interpreter.run lines policy).apply state = (outcome, after))

include halive hrun

theorem arises_of_run {crash : Crash} (hcrash : after.crash? = some crash) :
    crash.Arises state.vars.environment.scope lines := by
  obtain ⟨exports, hexported⟩ := interpreter.exportsOnly_run lines policy state
  rw [hrun] at hexported
  exact hexported.arises halive hcrash

end Interpreter

/-! ## After a crash -/

/-- Once the program has crashed, nothing is printed and the world stays as it is. -/
def State.Idle (before after : State σ) : Prop :=
  ∀ crash, before.crash? = some crash →
    after.crash? = some crash ∧ after.transcript = before.transcript ∧ after.world = before.world

theorem framing_idle : Framing (State.Idle (σ := σ)) where
  refl _ _ h := ⟨h, rfl, rfl⟩
  trans hfirst hlast crash h := by
    obtain ⟨hbetween, htranscript, hworld⟩ := hfirst crash h
    obtain ⟨hafter, htranscript', hworld'⟩ := hlast crash hbetween
    exact ⟨hafter, htranscript'.trans htranscript, hworld'.trans hworld⟩
  script h _ _ := h
  cover h := h

theorem State.transcript_record_of_crash {state : State σ} {crash : Crash}
    (h : state.crash? = some crash) (settings : Settings) (result : LineResult) :
    (state.record settings result).transcript = state.transcript := by
  unfold State.crash? at h
  unfold State.record State.print State.crash?
  cases result.success <;> cases settings.verbose <;> simp [State.countFailure, h]

/-- No write takes a crash back. -/
theorem Variables.crash_of_perform (write : Write) {vars next : Variables} {crash : Crash}
    (hperform : write.perform vars = .ok next) (h : vars.environment.crash = some crash) :
    next.environment.crash = some crash := by
  have hafter : vars.after write = next := by rw [Variables.after, hperform]
  rcases vars.environment_after write with hsame | ⟨name, value, -, -, hinsert⟩
  · rw [← hafter, hsame, h]
  · rw [← hafter, hinsert]
    show vars.environment.crash.or _ = _
    rw [h]
    rfl

namespace Interpreter

variable (interpreter : Interpreter σ)

/-- The interpreter of a program that may crash. -/
def untilCrash : Interpreter σ :=
  { interpreter with dispatch := interpreter.dispatch.untilCrash }

theorem idle_record (result : LineResult) : (interpreter.record result).Leaves State.Idle := by
  intro state crash h
  refine ⟨?_, State.transcript_record_of_crash h _ result, State.world_record _ result state⟩
  exact (congrArg (·.environment.crash) (State.vars_record _ result state)).trans h

theorem idle_dispatchCommand (name : String) (args : List String) :
    (interpreter.untilCrash.dispatchCommand name args).Leaves State.Idle := by
  intro state crash h
  have hcrash : state.vars.environment.crash = some crash := h
  unfold dispatchCommand untilCrash Dispatcher.untilCrash
  dsimp only
  rw [hcrash]
  exact ⟨h, rfl, rfl⟩

theorem within_idle : interpreter.untilCrash.Within State.Idle where
  skip _ _ h := ⟨h, rfl, rfl⟩
  dispatch := interpreter.idle_dispatchCommand
  print text state crash h := by
    refine ⟨h, ?_, rfl⟩
    simp only [State.print, h]
  write write _ _ hperform _ h := ⟨Variables.crash_of_perform write hperform h, rfl, rfl⟩
  record := interpreter.untilCrash.idle_record

/-- A program that has crashed prints nothing and does nothing to the world any more. -/
theorem idle_run (lines : List Line) (policy : Policy) :
    (interpreter.untilCrash.run lines policy).Leaves State.Idle :=
  interpreter.within_idle.leaves_run framing_idle lines policy

end Interpreter

/-! ## Accepted scripts -/

namespace Script

end Script

end BatchScript
