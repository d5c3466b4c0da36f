import BatchScript.Proofs.Execution.Activations

/-!
# Iterations of loops over items

A `@foreach` runs its body once for each item that its list has when the loop is entered, in order, and
binds its variable and the loop index anew before each run (`Passes`). A run may change both names, and
all others: the next run starts in the state that it leaves, with the two names bound to the next item
and the next index.
-/

namespace BatchScript

variable {σ : Type}

/-! ## Bindings -/

/-- The state with a loop variable bound to an item and the loop index to its position. -/
def State.binding (state : State σ) (var item : String) (index : Nat) : State σ :=
  { state with vars := { state.vars with
      script := (state.vars.script.insert var item).insert Interpreter.loopIndex (toString index) } }

/-- A loop variable and the loop index are bound, and everything else is as it was. -/
structure State.Binds (var item : String) (index : Nat) (before after : State σ) : Prop where
  item : after.vars.lookup var = some item
  index : after.vars.lookup Interpreter.loopIndex = some (toString index)
  others : ∀ name, name ≠ var → name ≠ Interpreter.loopIndex →
    after.vars.lookup name = before.vars.lookup name
  environment : after.vars.environment = before.vars.environment
  rest : after = { before with vars := after.vars }

theorem State.binds_binding {var : String} (hvar : var ≠ Interpreter.loopIndex) (item : String)
    (index : Nat) (state : State σ) : Binds var item index state (state.binding var item index) where
  item := by simp [binding, Variables.lookup, Bindings.get?_insert, hvar]
  index := by simp [binding, Variables.lookup, Bindings.get?_insert]
  others name hname hindex := by
    simp [binding, Variables.lookup, Bindings.get?_insert, hname, hindex]
  environment := rfl
  rest := rfl

/-- The state with the values that a loop variable and the loop index had before the loop. -/
def State.restoring (state : State σ) (var : String) (saved : Variables) : State σ :=
  let vars := state.vars.restore var (saved.lookup var)
  { state with vars := vars.restore Interpreter.loopIndex (saved.lookup Interpreter.loopIndex) }

namespace Interpreter

theorem bindItem_eq_binding {var : String} (hvar : Variables.validName var) (item : String)
    (index : Nat) (state : State σ) :
    (bindItem var item index).apply state = (.ok (), state.binding var item index) := by
  have hindex : Variables.validName loopIndex := by decide
  simp only [bindItem, Variables.set, hvar, hindex, if_true, State.binding]

/-! ## Passes -/

variable (interpreter : Interpreter σ) (lines : List Line) (start stop : Nat) (var : String)
  (policy : Policy)

/-- The run of the body of a loop for one item. -/
def pass (item : String) (index : Nat) (state : State σ) : Activation σ :=
  ⟨start, stop, policy, state.binding var item index⟩

/-- The runs of the body of a loop for items from an index on, and the flow of the loop: the loop ends
with a run that is stopped under `abort`. -/
inductive Passes : (index : Nat) → (items : List String) → State σ → List (Activation σ) → Flow →
    Prop where
  | done {index : Nat} {state : State σ} : Passes index [] state [] .completed
  | broken {index : Nat} {item : String} {items : List String} {state : State σ}
      (habort : policy = .abort)
      (hstops : interpreter.Stops lines (pass start stop var policy item index state)) :
      Passes index (item :: items) state [pass start stop var policy item index state] .stopped
  | next {index : Nat} {item : String} {items : List String} {state : State σ}
      {runs : List (Activation σ)} {flow : Flow}
      (hgoes : policy = .abort →
        ¬ interpreter.Stops lines (pass start stop var policy item index state))
      (hrest : Passes (index + 1) items
        (interpreter.ended lines (pass start stop var policy item index state)) runs flow) :
      Passes index (item :: items) state (pass start stop var policy item index state :: runs) flow

variable {interpreter lines start stop var policy}

namespace Passes

variable {index : Nat} {items : List String} {state : State σ} {runs : List (Activation σ)}
  {flow : Flow}

/-- Each run starts in the state that the one before it leaves, but for the two bindings. -/
theorem exists_item (h : interpreter.Passes lines start stop var policy index items state runs flow)
    (position : Nat) {run : Activation σ} (hrun : runs[position]? = some run) :
    ∃ item, items[position]? = some item ∧ run = pass start stop var policy item (index + position)
      (interpreter.reached lines state (runs.take position)) := by
  induction h generalizing position with
  | done => cases hrun
  | broken =>
    cases position with
    | zero =>
      cases hrun
      exact ⟨_, rfl, rfl⟩
    | succ position => cases hrun
  | @next index item items state runs flow _ _ ih =>
    cases position with
    | zero =>
      cases hrun
      exact ⟨_, rfl, rfl⟩
    | succ position =>
      obtain ⟨later, hlater, heq⟩ := ih position hrun
      refine ⟨later, hlater, ?_⟩
      rw [List.take_succ_cons, reached_cons, heq, Nat.add_right_comm]
      rfl

/-- All items are visited, unless a run is stopped under `abort`. -/
theorem length_eq_or
    (h : interpreter.Passes lines start stop var policy index items state runs flow) :
    runs.length = items.length ∨
      (policy = .abort ∧ ∃ run, runs.getLast? = some run ∧ interpreter.Stops lines run) := by
  induction h with
  | done => exact .inl rfl
  | broken habort hstops => exact .inr ⟨habort, _, rfl, hstops⟩
  | @next index item items state runs flow _ _ ih =>
    refine ih.imp (congrArg (· + 1)) fun ⟨habort, run, hlast, hstops⟩ => ⟨habort, run, ?_, hstops⟩
    rw [List.getLast?_cons, hlast]
    rfl

/-- A run that is stopped under `abort` is the last one. -/
theorem length_eq_of_stops
    (h : interpreter.Passes lines start stop var policy index items state runs flow)
    (habort : policy = .abort) (position : Nat) {run : Activation σ}
    (hrun : runs[position]? = some run) (hstops : interpreter.Stops lines run) :
    runs.length = position + 1 := by
  induction h generalizing position with
  | done => cases hrun
  | broken =>
    cases position with
    | zero => rfl
    | succ position => cases hrun
  | next hgoes _ ih =>
    cases position with
    | zero =>
      cases hrun
      exact absurd hstops (hgoes habort)
    | succ position => exact congrArg (· + 1) (ih position hrun)

theorem flow_eq_stopped_iff
    (h : interpreter.Passes lines start stop var policy index items state runs flow) :
    flow = .stopped ↔ policy = .abort ∧ ∃ run ∈ runs, interpreter.Stops lines run := by
  induction h with
  | done => simp
  | broken habort hstops =>
    exact iff_of_true rfl ⟨habort, _, List.mem_singleton_self _, hstops⟩
  | next hgoes _ ih =>
    rw [ih]
    refine and_congr_right fun habort => ?_
    rw [List.exists_mem_cons_iff]
    exact (or_iff_right (hgoes habort)).symm

end Passes

/-! ## Steps of a loop -/

section Body

variable (hname : Variables.validName var) (hbody : BodySucceeds (interpreter.runRange lines start stop))

include hname hbody

theorem iterate_noted (policy : Policy) (index : Nat) (items : List String) (state : State σ)
    (kept : List (Activation σ)) :
    ∃ runs flow, interpreter.Passes lines start stop var policy index items state runs flow ∧
      (iterate var (interpreter.notedRange lines start stop) policy index items).apply
        (state.beside kept) =
          (.ok flow, (interpreter.reached lines state runs).beside (kept ++ runs)) := by
  induction items generalizing index state kept with
  | nil => exact ⟨[], .completed, .done, by rw [List.append_nil]; rfl⟩
  | cons item items ih =>
    obtain ⟨ending, hending⟩ := hbody policy (state.binding var item index)
    have houtcome : interpreter.outcome lines (pass start stop var policy item index state) =
        .ok ending := hending
    have hbind : (bindItem var item index).apply (state.beside kept) =
        (.ok (), (state.binding var item index).beside kept) := bindItem_eq_binding hname item index _
    have hnoted : (interpreter.notedRange lines start stop policy).apply
        ((state.binding var item index).beside kept) = (.ok ending,
          (interpreter.ended lines (pass start stop var policy item index state)).beside
            (kept ++ [pass start stop var policy item index state])) := Prod.ext houtcome rfl
    have hbroken : ending.under policy = .stopped ↔ policy = .abort ∧
        interpreter.Stops lines (pass start stop var policy item index state) := by
      rw [Flow.under_eq_stopped_iff, Stops, houtcome, Except.ok.injEq]
    rw [iterate, Run.bind_apply, hbind]
    dsimp only
    rw [Run.bind_apply, hnoted]
    dsimp only
    split
    next hstop =>
      obtain ⟨habort, hstops⟩ := hbroken.1 hstop
      exact ⟨_, .stopped, .broken habort hstops, rfl⟩
    next hgoes =>
      obtain ⟨runs, flow, hpasses, hrest⟩ := ih (index + 1)
        (interpreter.ended lines (pass start stop var policy item index state))
        (kept ++ [pass start stop var policy item index state])
      refine ⟨_, flow, .next (fun habort hstops => hgoes (hbroken.2 ⟨habort, hstops⟩)) hpasses, ?_⟩
      rw [List.append_assoc] at hrest
      rw [reached_cons]
      exact hrest

/-- A `@foreach` fixes its items at the start, and gives its variable and the loop index their values
back at the end. -/
theorem foreach_noted (line : Line) (list : String) (policy : Policy) (state : State σ) :
    ∃ runs flow, interpreter.Passes lines start stop var policy 0
        (ItemList.expand (state.vars.resolve list.toList)) state runs flow ∧
      (interpreter.noting.foreach line var list (interpreter.notedRange lines start stop)
        policy).apply (state.beside []) = (.ok flow,
          ((interpreter.reached lines state runs).restoring var state.vars).beside runs) := by
  obtain ⟨runs, flow, hpasses, hiterate⟩ := iterate_noted hname hbody policy 0
    (ItemList.expand (state.vars.resolve list.toList)) state []
  refine ⟨runs, flow, hpasses, ?_⟩
  unfold foreach
  rw [if_pos hname, Run.bind_apply, Run.get_apply]
  show (preserving loopIndex (preserving var (iterate var _ policy 0
    (ItemList.expand (state.vars.resolve list.toList))))).apply (state.beside []) = _
  unfold preserving
  rw [Run.ensuring_apply, Run.ensuring_apply, hiterate]
  rfl

end Body

/-! ## The law of iterations -/

/-- How a `@foreach` is run in a range: its body is run once for each item, in order. Each run starts
in the state that the one before it leaves, the first one in the state at the start of the loop, with
the variable and the loop index bound. All items are visited, unless a run is stopped under `abort`,
which is the last run then. -/
structure Iterates (interpreter : Interpreter σ) (lines : List Line) (span : Span) (line : Line)
    (var list : String) (policy : Policy) (state : State σ) (runs : List (Activation σ))
    (flow : Flow) : Prop where
  activations : interpreter.activations lines span.opener span line (.foreach var list) policy state =
    runs
  outcome : (interpreter.blockOn lines span.opener span line (.foreach var list) policy).apply state =
    (.ok flow, (interpreter.reached lines state runs).restoring var state.vars)
  starts : ∀ index run, runs[index]? = some run →
    ∃ item, (ItemList.expand (state.vars.resolve list.toList))[index]? = some item ∧
      run.start = span.opener + 1 ∧ run.stop = span.terminator ∧ run.policy = policy ∧
      State.Binds var item index (interpreter.reached lines state (runs.take index)) run.state
  visits : runs.length = (ItemList.expand (state.vars.resolve list.toList)).length ∨
    (policy = .abort ∧ ∃ run, runs.getLast? = some run ∧ interpreter.Stops lines run)
  breaks : policy = .abort → ∀ index run, runs[index]? = some run → interpreter.Stops lines run →
    runs.length = index + 1
  stopped_iff : flow = .stopped ↔ policy = .abort ∧ ∃ run ∈ runs, interpreter.Stops lines run

end Interpreter

theorem Validation.Begins.exists_iterates {limits : Limits} {lines : List Line} {line : Line}
    {var list : String} {span : Span} {stop : Nat}
    (hbegins : Begins limits lines line (.foreach var list) span stop) (h : Accepts limits [] lines)
    (hname : Variables.validName var) (hvar : var ≠ Interpreter.loopIndex)
    (interpreter : Interpreter σ) (policy : Policy) (state : State σ) :
    ∃ runs flow, interpreter.Iterates lines span line var list policy state runs flow := by
  have hbody := hbegins.segments_succeed h interpreter (.inl rfl)
  have hend : span.segmentEnd span.opener = span.terminator :=
    Span.segmentEnd_of_opening hbegins.find hbegins.opener hbegins.opening rfl _
  obtain ⟨runs, flow, hpasses, hnoted⟩ :=
    Interpreter.foreach_noted hname hbody line list policy state
  have hblock : (interpreter.notingBlockOn lines span.opener span line (.foreach var list)
      policy).apply (state.beside []) = _ := hnoted
  obtain ⟨houtcome, hactivations⟩ := Interpreter.blockOn_of_noting hblock
  refine ⟨runs, flow, hactivations, houtcome, fun index run hrun => ?_, hpasses.length_eq_or,
    fun habort index run => hpasses.length_eq_of_stops habort index, hpasses.flow_eq_stopped_iff⟩
  obtain ⟨item, hitem, rfl⟩ := hpasses.exists_item index hrun
  rw [Nat.zero_add]
  exact ⟨item, hitem, rfl, hend, rfl, State.binds_binding hvar item index _⟩

namespace Script

/-- In an accepted script every `@foreach` that a run comes to, over a variable that may be given a
value and is not the loop index, is found, with its terminator, and obeys the law of iterations, under
every policy, in every state and with every dispatcher. -/
theorem foreach_iterates {script : Script} {limits : Limits} {warnings : List Diagnostic}
    (h : script.ensureValid limits = .ok warnings) {start stop : Nat}
    (hentered : Entered script.lines start stop) (hstart : start < stop) {line : Line}
    (hline : script.lines[start]? = some line) {var list : String}
    (hopening : Directive.opening? line = some (.foreach var list))
    (hname : Variables.validName var) (hvar : var ≠ Interpreter.loopIndex) :
    ∃ span, span.opener = start ∧ Span.find script.lines start stop = .ok span ∧
      roleAt script.lines span.terminator = some (.closes .foreach) ∧
      ∀ {σ : Type} (interpreter : Interpreter σ) (policy : Policy) (state : State σ),
        ∃ runs flow,
          interpreter.Iterates script.lines span line var list policy state runs flow := by
  have haccepts := accepts_of_ensureValid h
  obtain ⟨span, rfl, hbegins⟩ := haccepts.exists_begins hentered hstart hline hopening
  exact ⟨span, rfl, hbegins.find, hbegins.closes, hbegins.exists_iterates haccepts hname hvar⟩

theorem foreach_iterates_sample :
    shadowing.ensureValid {} = .ok [] ∧ Entered shadowing.lines 0 9 ∧
      shadowing.lines[0]? = some ⟨1, "@foreach x in a b", .directive "foreach" "x in a b"⟩ ∧
      Directive.opening? ⟨1, "@foreach x in a b", .directive "foreach" "x in a b"⟩ =
        some (.foreach "x" "a b") ∧
      ∃ span, span.opener = 0 ∧ Span.find shadowing.lines 0 9 = .ok span ∧
        roleAt shadowing.lines span.terminator = some (.closes .foreach) ∧
        ∀ {σ : Type} (interpreter : Interpreter σ) (policy : Policy) (state : State σ),
          ∃ runs flow, interpreter.Iterates shadowing.lines span
            ⟨1, "@foreach x in a b", .directive "foreach" "x in a b"⟩ "x" "a b" policy state runs
            flow := by
  have hvalid : shadowing.ensureValid {} = .ok [] := ensureValid_of_nil (by decide +kernel)
  have hentered : Entered shadowing.lines 0 9 := .whole
  have hline : shadowing.lines[0]? =
      some ⟨1, "@foreach x in a b", .directive "foreach" "x in a b"⟩ := by decide +kernel
  have hopening : Directive.opening? ⟨1, "@foreach x in a b", .directive "foreach" "x in a b"⟩ =
      some (.foreach "x" "a b") := by decide +kernel
  exact ⟨hvalid, hentered, hline, hopening,
    foreach_iterates hvalid hentered (by decide) hline hopening (by decide) (by decide)⟩

end Script

end BatchScript
