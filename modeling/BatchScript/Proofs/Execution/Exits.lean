import BatchScript.Proofs.Execution.Recording
import BatchScript.Proofs.Variables.History

/-!
# What every exit restores

A run may end at its last line, at a failure that stops it, or with a fault in a line that it comes to.
Whichever it is, and whether or not the lines were accepted, the number of attempts that are being run
is the same after a range as before it (`catchDepth_runRange`), and a `@foreach` gives its variable and
the loop index back the values that they had before it (`lookup_foreach`). Both are shown without a look
at what the lines inside do: `covered` and `preserving` change the state back around every body.

What holds of a whole run because single lines, refused blocks and attempts keep it is shown once, for
all lines (`Framing.keeps_run`), and so is what holds of single lines because dispatching, printing,
writing and recording do (`Interpreter.Within.leaves_run`).
-/

namespace BatchScript

variable {σ α β : Type}

/-! ## Framings -/

/-- In every state the run leaves a state that is related to it, whatever comes of the run. -/
def Run.Leaves (run : Run σ α) (related : State σ → State σ → Prop) : Prop :=
  ∀ state, related state (run.apply state).2

/-- A relation between the states before and after a run that does not depend on the script scope or
on the attempts that are being run. -/
structure Framing (related : State σ → State σ → Prop) : Prop where
  refl : ∀ state, related state state
  trans : ∀ {before between after}, related before between → related between after →
    related before after
  script : ∀ {before after}, related before after → ∀ first last,
    related (before.withScript first) (after.withScript last)
  cover : ∀ {before after}, related { before with catchDepth := before.catchDepth + 1 } after →
    related before { after with catchDepth := after.catchDepth - 1 }

/-- The states before and after are related, whatever is recorded and whatever the outcome is. -/
def Promise.ofStates (related : State σ → State σ → Prop) : Promise σ :=
  fun _ before _ after => related before after

/-- Whatever comes of a run, the states are related if they are so in every case. -/
theorem Run.Keeps.ofStates {run : Run σ Flow} {promise : Promise σ}
    {related : State σ → State σ → Prop} (h : run.Keeps promise) (h' : run.Leaves related) :
    run.Keeps (.ofStates related) := by
  intro state
  obtain ⟨new, hrecords, -⟩ := h state
  exact ⟨new, hrecords, h' state⟩

theorem Run.Keeps.leaves {run : Run σ Flow} {related : State σ → State σ → Prop}
    (h : run.Keeps (.ofStates related)) : run.Leaves related := by
  intro state
  obtain ⟨new, -, hrelated⟩ := h state
  exact hrelated

namespace Framing

open Run Interpreter

variable {related : State σ → State σ → Prop} (framing : Framing related)

include framing

/-! ### Rules -/

theorem leaves_pure (value : α) : (pure value : Run σ α).Leaves related :=
  fun state => framing.refl state

theorem leaves_get : (get : Run σ (State σ)).Leaves related :=
  fun state => framing.refl state

theorem leaves_fail (failure : Failure) : (fail failure : Run σ α).Leaves related :=
  fun state => framing.refl state

theorem leaves_bind {run : Run σ α} {next : α → Run σ β} (hrun : run.Leaves related)
    (hnext : ∀ value, (next value).Leaves related) : (run >>= next).Leaves related := by
  intro state
  have hbetween := hrun state
  rw [bind_apply]
  rcases happly : run.apply state with ⟨failure | value, between⟩ <;> rw [happly] at hbetween
  · exact hbetween
  · exact framing.trans hbetween (hnext value between)

theorem lawful (policy : Policy) : (Promise.ofStates related).Lawful policy where
  rest state := framing.refl state
  fail state _ := framing.refl state
  script h := framing.script h
  seq _ _ h h' := framing.trans h h'
  under h := h

/-- An attempt is framed if its parts are. -/
theorem keeps_attempt {body : Body σ} {parts : List (Line × Body σ)} {policy : Policy}
    (hbody : ∀ policy, (body policy).Keeps (.ofStates related))
    (hparts : ∀ part ∈ parts, ∀ policy, (part.2 policy).Keeps (.ofStates related)) :
    (attempt body parts policy).Keeps (.ofStates related) := by
  refine (framing.lawful policy).keeps_attempt ?_ ?_ fun part hpart => hparts part hpart policy
  · exact fun _ _ hfirst hlast => framing.trans hfirst hlast
  · refine (hbody .continue).covered (fun _ => ?_) fun _ => ?_
    · exact fun hinside => framing.cover hinside
    · exact fun hinside => hinside

/-- All lines are framed if single lines and refused blocks are. -/
theorem keeps_run {interpreter : Interpreter σ}
    (hrecord : ∀ result, (interpreter.record result).Leaves related) (lines : List Line)
    (hact : ∀ line ∈ lines, (interpreter.act line).Leaves related) (policy : Policy) :
    (interpreter.run lines policy).Keeps (.ofStates related) := by
  have hfail : ∀ line policy failure,
      (interpreter.failBlock line failure policy).Keeps (.ofStates related) :=
    fun line policy failure => (interpreter.keeps_failBlock line policy failure).ofStates
      (framing.leaves_bind (hrecord _) fun _ => framing.leaves_pure _)
  induction lines using lines_induction generalizing policy with
  | nil =>
    rw [run_nil]
    exact (framing.lawful policy).keeps_completed
  | line line rest hopening ih =>
    obtain ⟨hfirst, hact⟩ := List.forall_mem_cons.1 hact
    have hline : (interpreter.runLine line policy).Keeps (.ofStates related) :=
      (interpreter.keeps_runLine line policy).ofStates
        (framing.leaves_bind hfirst fun _ => framing.leaves_pure _)
    rw [run_cons_eq_runLine _ hopening]
    exact (framing.lawful policy).keeps_followedBy hline (ih hact _)
  | unmatched line opening rest hopening hcut =>
    rw [run_cons_of_cutBlock_eq_none _ hopening hcut]
    exact fun state => ⟨[], .refl state, framing.refl state⟩
  | block line opening rest cut hopening hcut hbody hparts hrest =>
    rw [run_cons_of_cutBlock_eq_some _ hopening hcut]
    have hinside : ∀ other ∈ rest, (interpreter.act other).Leaves related :=
      (List.forall_mem_cons.1 hact).2
    have hbody' := hbody fun other hmem => hinside other (Cut.body_subset hcut hmem)
    have hparts' : ∀ part ∈ cut.parts.map fun part => (part.1, interpreter.run part.2),
        ∀ policy, (part.2 policy).Keeps (.ofStates related) := by
      intro part hpart policy
      obtain ⟨part, hmem, rfl⟩ := List.mem_map.1 hpart
      exact hparts part hmem (fun other hother => hinside other (Cut.part_subset hcut hmem hother))
        policy
    refine (framing.lawful policy).keeps_followedBy ?_
      (hrest (fun other hmem => hinside other (Cut.rest_subset hcut hmem)) policy)
    exact (framing.lawful policy).keeps_block (hfail line policy) (fun part _ => hfail part.1 policy)
      (fun _ => hbody' policy) (fun part hpart => hparts' part hpart policy)
      fun _ => framing.keeps_attempt hbody' hparts'

end Framing

/-! ## What a line can do -/

namespace Interpreter

/-- All that a line can do is within the relation: it is passed over, its command is dispatched, a text
is printed, the variables are written to, and a result is recorded. -/
structure Within (interpreter : Interpreter σ) (related : State σ → State σ → Prop) : Prop where
  skip : ∀ state : State σ, related state state.skip
  dispatch : ∀ name args, (interpreter.dispatchCommand name args).Leaves related
  print : ∀ text state, related state (state.print interpreter.settings.format text)
  write : ∀ (write : Variables.Write) (state : State σ) {vars : Variables},
    write.perform state.vars = .ok vars → related state { state with vars }
  record : ∀ result, (interpreter.record result).Leaves related

namespace Within

variable {interpreter : Interpreter σ} {related : State σ → State σ → Prop}
  (within : interpreter.Within related) (framing : Framing related)

include within framing

theorem leaves_command (line : Line) (name : String) (args : List String) :
    (interpreter.command line name args).Leaves related := by
  refine framing.leaves_bind framing.leaves_get fun state => ?_
  dsimp only
  split
  · exact within.record _
  · exact framing.leaves_bind (within.dispatch _ _) fun _ => within.record _

/-- A line takes over what its write makes of the variables. -/
theorem leaves_update (line : Line) (write : State σ → Variables.Write) :
    (Run.get >>= fun state => interpreter.update line ((write state).perform state.vars)).Leaves
      related := by
  intro state
  rw [Run.bind_apply, Run.get_apply]
  dsimp only
  cases hperform : (write state).perform state.vars with
  | error fault => exact within.record _ state
  | ok vars => exact framing.trans (within.write _ state hperform) (within.record _ _)

theorem leaves_perform (line : Line) (directive : Directive) :
    (interpreter.perform line directive).Leaves related := by
  cases directive with
  | set name value =>
    exact within.leaves_update framing line fun state => .set name (state.vars.resolveString value)
  | exported name value =>
    exact within.leaves_update framing line fun state =>
      .exported name (state.vars.resolveString value)
  | unset name =>
    cases hname : Variables.validName name with
    | true =>
      simp only [perform, hname, if_true]
      exact within.leaves_update framing line fun _ => .unset name
    | false =>
      simp only [perform, hname, Bool.false_eq_true, if_false]
      exact framing.leaves_bind framing.leaves_get fun _ => within.record _
  | echo text =>
    refine framing.leaves_bind framing.leaves_get fun _ => ?_
    exact framing.leaves_bind (fun state => within.print _ state) fun _ => within.record _
  | onError => exact framing.leaves_bind framing.leaves_get fun _ => within.record _
  | opens | divides | closes =>
    exact framing.leaves_bind framing.leaves_get fun _ => framing.leaves_pure true

theorem leaves_act (line : Line) : (interpreter.act line).Leaves related := by
  obtain ⟨number, raw, content⟩ := line
  cases content with
  | blank | comment => exact framing.leaves_bind within.skip fun _ => framing.leaves_pure true
  | command name args => exact within.leaves_command framing _ name args
  | directive keyword body =>
    unfold act
    dsimp only
    split
    · exact framing.leaves_fail _
    · exact within.leaves_perform framing _ _

/-- A run of any lines is within the relation. -/
theorem leaves_run (lines : List Line) (policy : Policy) :
    (interpreter.run lines policy).Leaves related :=
  (framing.keeps_run within.record lines (fun line _ => within.leaves_act framing line) policy).leaves

end Within

end Interpreter

/-! ## Attempts that are being run -/

theorem framing_true : Framing fun _ _ : State σ => True where
  refl _ := trivial
  trans _ _ := trivial
  script _ _ _ := trivial
  cover _ := trivial

namespace Interpreter

variable (interpreter : Interpreter σ)

/-- After a range as many attempts are being run as before it. -/
theorem catchDepth_runRange (lines : List Line) (start stop : Nat) (policy : Policy)
    (state : State σ) :
    ((interpreter.runRange lines start stop policy).apply state).2.catchDepth =
      state.catchDepth := by
  have hkeeps : (interpreter.runRange lines start stop policy).Keeps (.ofStates fun _ _ => True) :=
    framing_true.keeps_run (fun _ _ => trivial) _ (fun _ _ _ => trivial) policy
  obtain ⟨new, hrecords, -⟩ := hkeeps state
  exact hrecords.catchDepth

end Interpreter

/-! ## Loop bindings -/

namespace Variables

@[simp] theorem lookup_restore_self (vars : Variables) (name : String) (value? : Option String) :
    (vars.restore name value?).lookup name = value? := by
  cases value? with
  | none => simp [restore, unset, lookup, Bindings.get?_erase]
  | some value => simp [restore, lookup, Bindings.get?_insert]

theorem lookup_restore_of_ne (vars : Variables) {name other : String} (h : other ≠ name)
    (value? : Option String) : (vars.restore name value?).lookup other = vars.lookup other := by
  cases value? with
  | none => simp [restore, unset, lookup, Bindings.get?_erase, h]
  | some value => simp [restore, lookup, Bindings.get?_insert, h]

end Variables

namespace Interpreter

variable (interpreter : Interpreter σ)

theorem lookup_preserving_self (name : String) (run : Run σ Flow) (state : State σ) :
    ((preserving name run).apply state).2.vars.lookup name = state.vars.lookup name :=
  Variables.lookup_restore_self _ name _

/-- Giving one name its value back does not disturb what the run has given another one back. -/
theorem lookup_preserving {name other : String} {run : Run σ Flow} {state : State σ}
    (h : (run.apply state).2.vars.lookup other = state.vars.lookup other) :
    ((preserving name run).apply state).2.vars.lookup other = state.vars.lookup other := by
  by_cases heq : other = name
  · subst heq
    exact lookup_preserving_self other run state
  · have hrestore : ((preserving name run).apply state).2.vars.lookup other =
        (run.apply state).2.vars.lookup other := Variables.lookup_restore_of_ne _ heq _
    rw [hrestore, h]

theorem vars_reject (line : Line) (failure : Failure) (state : State σ) :
    ((interpreter.reject line failure).apply state).2.vars = state.vars :=
  State.vars_record _ _ state

/-- A `@foreach` gives its variable and the loop index back the values they had before, whatever its
body does. -/
theorem lookup_foreach (line : Line) (var list : String) (body : Body σ) (policy : Policy)
    (state : State σ) {name : String} (hname : name = var ∨ name = loopIndex) :
    ((interpreter.foreach line var list body policy).apply state).2.vars.lookup name =
      state.vars.lookup name := by
  unfold foreach
  split
  · -- The outer restoration is that of the loop index, which may be the variable itself.
    show ((preserving loopIndex (preserving var _)).apply state).2.vars.lookup name = _
    rcases hname with rfl | rfl
    · exact lookup_preserving (lookup_preserving_self name _ state)
    · exact lookup_preserving_self loopIndex _ state
  · show ((interpreter.reject line _).apply state).2.vars.lookup name = _
    rw [vars_reject]

/-! ## Blocks of a range -/

/-- Looks for the block that a line opens at the start of a range, and runs it on its segments. -/
def blockAt (lines : List Line) (start stop : Nat) (line : Line) (opening : Opening) : Body σ :=
  fun policy =>
    match Span.find lines start stop with
    | .error failure => .fail failure
    | .ok span =>
      interpreter.block line opening
        (interpreter.runRange lines (start + 1) (span.segmentEnd start))
        (interpreter.segments lines span) policy

variable {lines : List Line} {line : Line} {start stop : Nat}

/-- At an opener a range runs the block, and then goes on further behind. -/
theorem exists_runRange_eq_blockAt {opening : Opening} (hstart : start < stop)
    (hline : lines[start]? = some line) (hopening : Directive.opening? line = some opening) :
    ∃ next, start < next ∧ ∀ policy, interpreter.runRange lines start stop policy =
      (interpreter.blockAt lines start stop line opening policy).followedBy
        (interpreter.runRange lines next stop policy) := by
  unfold blockAt
  cases hfind : Span.find lines start stop with
  | error failure =>
    refine ⟨stop, hstart, fun policy => ?_⟩
    rw [interpreter.runRange_of_find_eq_error hline hstart hopening hfind]
    rfl
  | ok span =>
    have hafter := Span.lt_terminator hfind
    exact ⟨span.terminator + 1, Nat.lt_succ_of_lt hafter,
      interpreter.runRange_of_find_eq_ok hline hstart hopening hfind⟩

theorem lookup_blockAt {var list : String} (policy : Policy) (state : State σ) {name : String}
    (hname : name = var ∨ name = loopIndex) :
    ((interpreter.blockAt lines start stop line (.foreach var list) policy).apply
      state).2.vars.lookup name = state.vars.lookup name := by
  unfold blockAt
  split
  · rfl
  · exact interpreter.lookup_foreach line var list _ policy state hname

/-- Whatever the lines are and however a run ends: after every range as many attempts are being run as
before it, and after the block of every `@foreach` its variable and the loop index have the values that
they had before the block, or none if they had none. -/
theorem runRange_restores (lines : List Line) (start stop : Nat) (policy : Policy)
    (state : State σ) :
    ((interpreter.runRange lines start stop policy).apply state).2.catchDepth = state.catchDepth ∧
    ∀ line var list, start < stop → lines[start]? = some line →
      Directive.opening? line = some (.foreach var list) →
      (∃ next, start < next ∧ interpreter.runRange lines start stop policy =
        (interpreter.blockAt lines start stop line (.foreach var list) policy).followedBy
          (interpreter.runRange lines next stop policy)) ∧
      ∀ name, name = var ∨ name = loopIndex →
        ((interpreter.blockAt lines start stop line (.foreach var list) policy).apply
          state).2.vars.lookup name = state.vars.lookup name := by
  refine ⟨interpreter.catchDepth_runRange lines start stop policy state, ?_⟩
  intro line var list hstart hline hopening
  obtain ⟨next, hnext, hrun⟩ := interpreter.exists_runRange_eq_blockAt hstart hline hopening
  exact ⟨⟨next, hnext, hrun policy⟩, fun name hname => interpreter.lookup_blockAt policy state hname⟩

end Interpreter

/-- Two loops over the same name, the inner one inside an attempt and changing the name itself. -/
def Script.shadowing : Script :=
  .parse "@foreach x in a b
@try
@foreach x in c
@set x = d
@unset __LOOP_INDEX__
@endforeach
@catch
@endtry
@endforeach"

theorem Interpreter.runRange_restores_sample :
    Script.shadowing.lines[0]? = some ⟨1, "@foreach x in a b", .directive "foreach" "x in a b"⟩ ∧
      Directive.opening? ⟨1, "@foreach x in a b", .directive "foreach" "x in a b"⟩ =
        some (.foreach "x" "a b") ∧
      ∀ policy (state : State Unit),
        ((sample.runRange Script.shadowing.lines 0 9 policy).apply state).2.catchDepth =
          state.catchDepth ∧
        ∀ name, name = "x" ∨ name = loopIndex →
          ((sample.blockAt Script.shadowing.lines 0 9
            ⟨1, "@foreach x in a b", .directive "foreach" "x in a b"⟩ (.foreach "x" "a b")
            policy).apply state).2.vars.lookup name = state.vars.lookup name := by
  have hline : Script.shadowing.lines[0]? =
      some ⟨1, "@foreach x in a b", .directive "foreach" "x in a b"⟩ := by decide +kernel
  have hopening : Directive.opening? ⟨1, "@foreach x in a b", .directive "foreach" "x in a b"⟩ =
      some (.foreach "x" "a b") := by decide +kernel
  refine ⟨hline, hopening, fun policy state => ?_⟩
  obtain ⟨hdepth, hblock⟩ := sample.runRange_restores Script.shadowing.lines 0 9 policy state
  exact ⟨hdepth, (hblock _ _ _ (by decide) hline hopening).2⟩

end BatchScript
