import BatchScript.Proofs.Execution.Promise
import Mathlib.Data.List.Forall2

/-!
# Runs side by side

Two interpreters may do the same on states of different kinds, as one does that only keeps something
beside the state of the other. If both do the same when they record a refusal, and the states agree on
all that blocks look at (`Simulation`), then a block does the same for both, given that its parts do.

The relation between the states is graded: it may count what the parts do. A part that is run raises
the grade by one, and a block raises it by no more than a bound that is known when the block is entered
(`Opening.bound`, `Simulation.simulates_block`).
-/

namespace BatchScript

variable {σ τ α β : Type}

/-! ## Rules -/

/-- Started in related states, the runs come to the same outcome and leave related states. -/
def Run.Simulates (run : Run σ α) (run' : Run τ α) (before after : State σ → State τ → Prop) :
    Prop :=
  ∀ state state', before state state' → (run'.apply state').1 = (run.apply state).1 ∧
    after (run.apply state).2 (run'.apply state').2

namespace Run

variable {run : Run σ α} {run' : Run τ α} {before between after : State σ → State τ → Prop}

theorem simulates_pure (h : ∀ state state', before state state' → after state state') (value : α) :
    Simulates (pure value : Run σ α) (pure value : Run τ α) before after :=
  fun state state' hrelated => ⟨rfl, h state state' hrelated⟩

theorem simulates_fail (h : ∀ state state', before state state' → after state state')
    (failure : Failure) :
    Simulates (fail failure : Run σ α) (fail failure : Run τ α) before after :=
  fun state state' hrelated => ⟨rfl, h state state' hrelated⟩

/-- The second runs need not be looked at where the first ones fail. -/
theorem Simulates.bind {next : α → Run σ β} {next' : α → Run τ β}
    (h : run.Simulates run' before between)
    (hfails : ∀ state state', between state state' → after state state')
    (h' : ∀ value, (next value).Simulates (next' value) between after) :
    (run >>= next).Simulates (run' >>= next') before after := by
  intro state state' hrelated
  obtain ⟨houtcome, hbetween⟩ := h state state' hrelated
  rw [bind_apply, bind_apply]
  rcases happly : run.apply state with ⟨outcome, middle⟩
  rcases happly' : run'.apply state' with ⟨outcome', middle'⟩
  rw [happly, happly'] at houtcome hbetween
  obtain rfl : outcome' = outcome := houtcome
  cases outcome' with
  | error failure => exact ⟨rfl, hfails _ _ hbetween⟩
  | ok value => exact h' value _ _ hbetween

theorem simulates_get_bind {next : State σ → Run σ α} {next' : State τ → Run τ α}
    (h : ∀ state state', before state state' →
      (next state).Simulates (next' state') before after) :
    (get >>= next).Simulates (get >>= next') before after :=
  fun state state' hrelated => h state state' hrelated state state' hrelated

end Run

/-! ## Simulations -/

/-- How often a block runs parts of it at most, as it is known when the block is entered: a
`@foreach` once for each item, a `@while` up to the limit for loops. -/
def Opening.bound (limit : Nat) (vars : Variables) : Opening → Nat
  | .conditional _ => 1
  | .foreach _ list => (ItemList.expand (vars.resolve list.toList)).length
  | .loop _ => limit
  | .attempt => 3

/-- Two interpreters record refusals alike in related states, which agree on all that blocks look at,
and stay related when both are given the same variables, or enter or leave an attempt. The grade of the
relation is a bound. -/
structure Simulation (interpreter : Interpreter σ) (interpreter' : Interpreter τ)
    (related : Nat → State σ → State τ → Prop) : Prop where
  limit : interpreter'.settings.maxLoopIterations = interpreter.settings.maxLoopIterations
  mono : ∀ {low high state state'}, low ≤ high → related low state state' →
    related high state state'
  vars_eq : ∀ {grade state state'}, related grade state state' → state'.vars = state.vars
  files_eq : ∀ {grade state state'}, related grade state state' →
    state'.world.files = state.world.files
  failures_eq : ∀ {grade state state'}, related grade state state' →
    state'.failures = state.failures
  vars : ∀ {grade state state'}, related grade state state' → ∀ vars,
    related grade { state with vars } { state' with vars }
  catchDepth : ∀ {grade state state'}, related grade state state' → ∀ change : Nat → Nat,
    related grade { state with catchDepth := change state.catchDepth }
      { state' with catchDepth := change state'.catchDepth }
  reject : ∀ {grade} line failure, (interpreter.reject line failure).Simulates
    (interpreter'.reject line failure) (related grade) (related grade)

/-- A part of a block for both interpreters, which raises the grade by one. -/
def BodySimulates (related : Nat → State σ → State τ → Prop) (body : Body σ) (body' : Body τ) :
    Prop :=
  ∀ policy grade, (body policy).Simulates (body' policy) (related grade) (related (grade + 1))

/-- The parts of a block for both interpreters, after the same markers. -/
def PartsSimulate (related : Nat → State σ → State τ → Prop) :
    List (Line × Body σ) → List (Line × Body τ) → Prop :=
  List.Forall₂ fun part part' => part'.1 = part.1 ∧ BodySimulates related part.2 part'.2

namespace Simulation

open Run Interpreter

variable {interpreter : Interpreter σ} {interpreter' : Interpreter τ}
  {related : Nat → State σ → State τ → Prop} (simulation : Simulation interpreter interpreter' related)
  {body : Body σ} {body' : Body τ} {parts : List (Line × Body σ)} {parts' : List (Line × Body τ)}
  {grade high : Nat}

theorem simulates_under (hbody : BodySimulates related body body') (inner outer : Policy) :
    Run.Simulates (do return (← body inner).under outer) (do return (← body' inner).under outer)
      (related grade) (related (grade + 1)) :=
  (hbody inner grade).bind (fun _ _ => id) fun _ => simulates_pure (fun _ _ => id) _

include simulation

theorem simulates_failBlock (hgrade : grade ≤ high) (line : Line) (failure : Failure)
    (policy : Policy) :
    (interpreter.failBlock line failure policy).Simulates
      (interpreter'.failBlock line failure policy) (related grade) (related high) :=
  (simulation.reject line failure).bind (fun _ _ => simulation.mono hgrade) fun _ =>
    simulates_pure (fun _ _ => simulation.mono hgrade) _

/-! ### Conditionals -/

theorem simulates_branch (hgrade : grade ≤ high) (line : Line) (condition : String)
    (policy : Policy) {yes no : Run σ Flow} {yes' no' : Run τ Flow}
    (hyes : yes.Simulates yes' (related grade) (related high))
    (hno : no.Simulates no' (related grade) (related high)) :
    (interpreter.branch line condition policy yes no).Simulates
      (interpreter'.branch line condition policy yes' no') (related grade) (related high) := by
  intro state state' hrelated
  have hvalue : state'.value condition = state.value condition := by
    unfold State.value
    rw [simulation.files_eq hrelated, simulation.vars_eq hrelated]
  rw [branch_apply, branch_apply, hvalue]
  rcases state.value condition with fault | _ | _
  · exact simulation.simulates_failBlock hgrade line _ policy state state' hrelated
  · exact hno state state' hrelated
  · exact hyes state state' hrelated

theorem simulates_chooseMarker (policy : Policy) (hparts : PartsSimulate related parts parts') :
    (interpreter.chooseMarker policy parts).Simulates (interpreter'.chooseMarker policy parts')
      (related grade) (related (grade + 1)) := by
  have hgrade := Nat.le_succ grade
  induction hparts with
  | nil => exact simulates_pure (fun _ _ => simulation.mono hgrade) _
  | @cons part part' others others' hpart _ ih =>
    obtain ⟨marker, part⟩ := part
    obtain ⟨marker', part'⟩ := part'
    obtain ⟨hmarker, hpart⟩ := hpart
    obtain rfl : marker' = marker := hmarker
    rw [chooseMarker, chooseMarker]
    split
    · exact simulates_fail (fun _ _ => simulation.mono hgrade) _
    · exact simulation.simulates_branch hgrade _ _ policy
        (simulates_under hpart policy policy) ih
    · exact simulates_under hpart policy policy

/-! ### Loops -/

theorem simulates_bindItem (var item : String) (index : Nat) :
    (bindItem var item index).Simulates (bindItem var item index) (related grade)
      (related grade) := by
  intro state state' hrelated
  unfold bindItem
  dsimp only
  rw [simulation.vars_eq hrelated]
  cases state.vars.set var item with
  | error fault => exact ⟨rfl, hrelated⟩
  | ok vars =>
    dsimp only
    cases vars.set loopIndex (toString index) <;> exact ⟨rfl, simulation.vars hrelated _⟩

theorem simulates_iterate (var : String) (hbody : BodySimulates related body body')
    (policy : Policy) (index : Nat) (items : List String) :
    (iterate var body policy index items).Simulates (iterate var body' policy index items)
      (related grade) (related (grade + items.length)) := by
  induction items generalizing grade index with
  | nil => exact simulates_pure (fun _ _ => id) _
  | cons item items ih =>
    rw [iterate, iterate, List.length_cons]
    refine (simulation.simulates_bindItem var item index).bind
      (fun _ _ => simulation.mono (by omega)) fun _ => ?_
    refine (hbody policy grade).bind (fun _ _ => simulation.mono (by omega)) fun flow => ?_
    split
    · exact simulates_pure (fun _ _ => simulation.mono (by omega)) _
    · have hrest := @ih (grade + 1) (index + 1)
      rwa [Nat.add_right_comm] at hrest

theorem simulates_preserving (name : String) {run : Run σ Flow} {run' : Run τ Flow}
    (h : run.Simulates run' (related grade) (related high)) :
    (preserving name run).Simulates (preserving name run') (related grade) (related high) := by
  intro state state' hrelated
  obtain ⟨houtcome, hafter⟩ := h state state' hrelated
  refine ⟨houtcome, ?_⟩
  have hvars : (run'.apply state').2.vars.restore name (state'.vars.lookup name) =
      (run.apply state).2.vars.restore name (state.vars.lookup name) := by
    rw [simulation.vars_eq hafter, simulation.vars_eq hrelated]
  show related high _ { (run'.apply state').2 with
    vars := (run'.apply state').2.vars.restore name (state'.vars.lookup name) }
  rw [hvars]
  exact simulation.vars hafter _

/-- The items of a `@foreach` are those that its list has when it is entered. -/
theorem simulates_foreach (line : Line) (var list : String) (items : List String)
    (hbody : BodySimulates related body body') (policy : Policy) :
    (interpreter.foreach line var list body policy).Simulates
      (interpreter'.foreach line var list body' policy)
      (fun state state' => related grade state state' ∧
        ItemList.expand (state.vars.resolve list.toList) = items)
      (related (grade + items.length)) := by
  rintro state state' ⟨hrelated, rfl⟩
  unfold foreach
  split
  · have hloop := @simulates_iterate _ _ _ _ _ simulation _ _ grade var hbody policy 0
      (ItemList.expand (state.vars.resolve list.toList))
    have hrun := simulation.simulates_preserving loopIndex (simulation.simulates_preserving var hloop)
    rw [bind_apply, bind_apply, get_apply, get_apply]
    dsimp only
    rw [simulation.vars_eq hrelated]
    exact hrun state state' hrelated
  · exact simulation.simulates_failBlock (Nat.le_add_right _ _) line _ policy state state' hrelated

theorem simulates_repeating (line : Line) (condition : String)
    (hbody : BodySimulates related body body') (policy : Policy) (remaining : Nat) :
    (interpreter.repeating line condition body policy remaining).Simulates
      (interpreter'.repeating line condition body' policy remaining) (related grade)
      (related (grade + remaining)) := by
  induction remaining generalizing grade with
  | zero =>
    unfold repeating
    rw [simulation.limit]
    refine simulation.simulates_branch (Nat.le_refl _) line condition policy ?_ ?_
    · exact simulation.simulates_failBlock (Nat.le_refl _) line _ policy
    · exact simulates_pure (fun _ _ => id) _
  | succ remaining ih =>
    refine simulation.simulates_branch (Nat.le_add_right _ _) line condition policy ?_ ?_
    · refine (hbody policy grade).bind (fun _ _ => simulation.mono (by omega)) fun flow => ?_
      split
      · exact simulates_pure (fun _ _ => simulation.mono (by omega)) _
      · have hrest := @ih (grade + 1)
        rwa [Nat.add_right_comm] at hrest
    · exact simulates_pure (fun _ _ => simulation.mono (Nat.le_add_right _ _)) _

/-! ### Attempts -/

theorem simulates_covered (hasCatch : Bool) {run : Run σ Flow} {run' : Run τ Flow}
    (h : run.Simulates run' (related grade) (related high)) :
    (covered hasCatch run).Simulates (covered hasCatch run') (related grade) (related high) := by
  cases hasCatch with
  | false => exact h
  | true =>
    intro state state' hrelated
    obtain ⟨houtcome, hafter⟩ := h _ _ (simulation.catchDepth hrelated (· + 1))
    exact ⟨houtcome, simulation.catchDepth hafter (· - 1)⟩

end Simulation

/-- Of parts after the same markers, the part of a branch is there in both lists, or in none. -/
theorem Interpreter.part?_of_forall₂ {R : Body σ → Body τ → Prop} {parts : List (Line × Body σ)}
    {parts' : List (Line × Body τ)}
    (h : List.Forall₂ (fun part part' => part'.1 = part.1 ∧ R part.2 part'.2) parts parts')
    (branch : Branch) :
    (part? parts branch = none ∧ part? parts' branch = none) ∨
      ∃ part part', part? parts branch = some part ∧ part? parts' branch = some part' ∧
        R part part' := by
  unfold part?
  induction h with
  | nil => exact .inl ⟨rfl, rfl⟩
  | @cons part part' others others' hpart _ ih =>
    obtain ⟨hmarker, hpart⟩ := hpart
    rw [List.find?_cons, List.find?_cons, hmarker]
    cases decide (part.1.role = .divides branch) with
    | true => exact .inr ⟨part.2, part'.2, rfl, rfl, hpart⟩
    | false => exact ih

theorem Interpreter.isSome_part?_of_forall₂ {R : Body σ → Body τ → Prop}
    {parts : List (Line × Body σ)} {parts' : List (Line × Body τ)}
    (h : List.Forall₂ (fun part part' => part'.1 = part.1 ∧ R part.2 part'.2) parts parts')
    (branch : Branch) : (part? parts' branch).isSome = (part? parts branch).isSome := by
  obtain ⟨hnone, hnone'⟩ | ⟨_, _, hsome, hsome', -⟩ := part?_of_forall₂ h branch
  · rw [hnone, hnone']
    rfl
  · rw [hsome, hsome']
    rfl

namespace Simulation

open Run Interpreter

variable {interpreter : Interpreter σ} {interpreter' : Interpreter τ}
  {related : Nat → State σ → State τ → Prop} (simulation : Simulation interpreter interpreter' related)
  {body : Body σ} {body' : Body τ} {parts : List (Line × Body σ)} {parts' : List (Line × Body τ)}
  {grade : Nat}

include simulation

theorem simulates_handle (hparts : PartsSimulate related parts parts') (failed : Bool)
    (policy : Policy) :
    (handle failed (part? parts .catch) policy).Simulates (handle failed (part? parts' .catch) policy)
      (related grade) (related (grade + 1)) := by
  have hgrade := Nat.le_succ grade
  cases failed with
  | false => exact simulates_pure (fun _ _ => simulation.mono hgrade) _
  | true =>
    obtain ⟨hnone, hnone'⟩ | ⟨handler, handler', hhandler, hhandler', hsimulates⟩ :=
      part?_of_forall₂ hparts .catch
    · rw [hnone, hnone']
      exact simulates_pure (fun _ _ => simulation.mono hgrade) _
    · rw [hhandler, hhandler']
      exact simulates_under hsimulates policy policy

/-- The body, the `@catch` and the `@finally` of an attempt are run once each at most. -/
theorem simulates_attempt (hbody : BodySimulates related body body')
    (hparts : PartsSimulate related parts parts') (policy : Policy) :
    (attempt body parts policy).Simulates (attempt body' parts' policy) (related grade)
      (related (grade + 3)) := by
  refine simulates_get_bind fun first first' hfirst => ?_
  dsimp only
  rw [simulation.failures_eq hfirst, isSome_part?_of_forall₂ hparts]
  refine (simulation.simulates_covered _ (hbody .continue grade)).bind
    (fun _ _ => simulation.mono (by omega)) fun _ => ?_
  refine simulates_get_bind fun last last' hlast => ?_
  rw [simulation.failures_eq hlast]
  refine (simulation.simulates_handle hparts _ policy).bind
    (fun _ _ => simulation.mono (by omega)) fun flow => ?_
  obtain ⟨hnone, hnone'⟩ | ⟨cleanup, cleanup', hcleanup, hcleanup', hsimulates⟩ :=
    part?_of_forall₂ hparts .finally
  · rw [hnone, hnone']
    exact simulates_pure (fun _ _ => simulation.mono (by omega)) _
  · rw [hcleanup, hcleanup']
    exact (hsimulates policy _).bind (fun _ _ => id) fun _ => simulates_pure (fun _ _ => id) _

/-- A block does the same for both interpreters, and raises the grade by its bound at most. -/
theorem simulates_block (line : Line) (opening : Opening) (hbody : BodySimulates related body body')
    (hparts : PartsSimulate related parts parts') (policy : Policy) {state : State σ}
    {state' : State τ} (hrelated : related grade state state') :
    ((interpreter'.block line opening body' parts' policy).apply state').1 =
        ((interpreter.block line opening body parts policy).apply state).1 ∧
      related (grade + opening.bound interpreter.settings.maxLoopIterations state.vars)
        ((interpreter.block line opening body parts policy).apply state).2
        ((interpreter'.block line opening body' parts' policy).apply state').2 := by
  cases opening with
  | conditional condition =>
    exact simulation.simulates_branch (Nat.le_succ grade) line condition policy
      (simulates_under hbody policy policy) (simulation.simulates_chooseMarker policy hparts)
      state state' hrelated
  | foreach var list =>
    exact simulation.simulates_foreach line var list _ hbody policy state state' ⟨hrelated, rfl⟩
  | loop condition =>
    have hblock : interpreter'.block line (.loop condition) body' parts' policy =
        interpreter'.repeating line condition body' policy
          interpreter.settings.maxLoopIterations := by
      rw [← simulation.limit]
      rfl
    rw [hblock]
    exact simulation.simulates_repeating line condition hbody policy _ state state' hrelated
  | attempt => exact simulation.simulates_attempt hbody hparts policy state state' hrelated

end Simulation

/-! ## Keeping something beside the state -/

namespace State

variable {γ : Type}

/-- The state with something kept beside what the dispatcher keeps. -/
def beside (state : State σ) (kept : γ) : State (σ × γ) :=
  { state with world := ⟨state.world.files, state.world.state, kept⟩ }

/-- The state without what is kept beside it. -/
def plain (state : State (σ × γ)) : State σ :=
  { state with world := ⟨state.world.files, state.world.state.1⟩ }

theorem record_beside (settings : Settings) (result : LineResult) (state : State σ) (kept : γ) :
    (state.beside kept).record settings result = (state.record settings result).beside kept := by
  unfold record
  cases result.success <;> cases settings.verbose <;> rfl

theorem results_record (settings : Settings) (result : LineResult) (state : State σ) :
    (state.record settings result).results = state.results.push result := by
  unfold record
  cases result.success <;> cases settings.verbose <;> rfl

/-- What is kept beside a state fits the grade and the results that are recorded. -/
def Beside (fits : Nat → Array LineResult → γ → Prop) (grade : Nat) (state : State σ)
    (state' : State (σ × γ)) : Prop :=
  ∃ kept, fits grade state.results kept ∧ state' = state.beside kept

end State

/-- An interpreter that keeps something beside the state does the same on blocks, if what it keeps still
fits when another result is recorded. -/
theorem simulation_beside {γ : Type} {fits : Nat → Array LineResult → γ → Prop}
    {interpreter : Interpreter σ} {interpreter' : Interpreter (σ × γ)}
    (hsettings : interpreter'.settings = interpreter.settings)
    (hmono : ∀ {low high results kept}, low ≤ high → fits low results kept → fits high results kept)
    (hpush : ∀ {grade results kept} result, fits grade results kept →
      fits grade (results.push result) kept) :
    Simulation interpreter interpreter' (State.Beside fits) where
  limit := by rw [hsettings]
  mono hle := by
    rintro ⟨kept, hfits, rfl⟩
    exact ⟨kept, hmono hle hfits, rfl⟩
  vars_eq := by
    rintro grade state state' ⟨kept, -, rfl⟩
    rfl
  files_eq := by
    rintro grade state state' ⟨kept, -, rfl⟩
    rfl
  failures_eq := by
    rintro grade state state' ⟨kept, -, rfl⟩
    rfl
  vars := by
    rintro grade state state' ⟨kept, hfits, rfl⟩ vars
    exact ⟨kept, hfits, rfl⟩
  catchDepth := by
    rintro grade state state' ⟨kept, hfits, rfl⟩ change
    exact ⟨kept, hfits, rfl⟩
  reject := by
    rintro grade line failure state state' ⟨kept, hfits, rfl⟩
    refine ⟨rfl, kept, ?_, ?_⟩
    · show fits grade (state.record _ _).results kept
      rw [State.results_record]
      exact hpush _ hfits
    · show (state.beside kept).record _ _ = (state.record _ _).beside kept
      rw [hsettings, State.record_beside]

end BatchScript
