import BatchScript.Proofs.Execution.Completion
import BatchScript.Proofs.Execution.Simulation
import BatchScript.Proofs.Execution.Turns
import Mathlib.Data.List.Chain

/-!
# How runs of ranges nest

A range runs other ranges: those of the segments of the blocks that it comes to. Which ones a block runs,
how often and in which states, is noted by the parts of the block themselves (`activations`), beside the
state that the run acts on, so the block does what it does otherwise (`noting_block`).

Whatever the lines are, a range runs only ranges inside it (`Invokes.nested`), and a block runs no more
of them than is known when the block is entered, so every run comes to an end (`halts`). In accepted
lines the ranges that a range runs are one block deeper than it is, so runs nest no deeper than blocks
may (`depthAt_add_length_le`).
-/

namespace BatchScript

variable {σ : Type}

/-! ## Activations -/

/-- One run of a range: where it begins and ends, its policy, and the state in which it starts. -/
structure Activation (σ : Type) where
  start : Nat
  stop : Nat
  policy : Policy
  state : State σ

/-- What runs a range, and notes the run at the end of a list that is kept beside the state. -/
def Body.noted (start stop : Nat) (body : Body σ) : Body (σ × List (Activation σ)) :=
  fun policy => ⟨fun state =>
    let (outcome, after) := (body policy).apply state.plain
    (outcome, after.beside (state.world.state.2 ++ [⟨start, stop, policy, state.plain⟩]))⟩

namespace Interpreter

variable (interpreter : Interpreter σ)

/-- The interpreter with a list of activations beside its state, which its dispatcher leaves alone. -/
def noting : Interpreter (σ × List (Activation σ)) where
  settings := interpreter.settings
  dispatch name args environment world :=
    let (outcome, after) := interpreter.dispatch name args environment ⟨world.files, world.state.1⟩
    (outcome, ⟨after.files, after.state, world.state.2⟩)

/-- What runs a range and notes the run. -/
def notedRange (lines : List Line) (start stop : Nat) : Body (σ × List (Activation σ)) :=
  .noted start stop (interpreter.runRange lines start stop)

/-- What runs the segments after the markers of a span and notes the runs. -/
def notedSegments (lines : List Line) (span : Span) :
    List (Line × Body (σ × List (Activation σ))) :=
  span.branches.filterMap fun marker => (lines[marker]?).map fun line =>
    (line, interpreter.notedRange lines (marker + 1) (span.segmentEnd marker))

/-- Runs a block on the segments of its span, as a range does when it comes to the opener of the span. -/
def blockOn (lines : List Line) (position : Nat) (span : Span) (line : Line) (opening : Opening) :
    Body σ :=
  interpreter.block line opening
    (interpreter.runRange lines (position + 1) (span.segmentEnd position))
    (interpreter.segments lines span)

/-- Runs a block on the segments of its span and notes their runs. -/
def notingBlockOn (lines : List Line) (position : Nat) (span : Span) (line : Line)
    (opening : Opening) : Body (σ × List (Activation σ)) :=
  interpreter.noting.block line opening
    (interpreter.notedRange lines (position + 1) (span.segmentEnd position))
    (interpreter.notedSegments lines span)

/-- The activations of the segments of a block that is run, in their order. -/
def activations (lines : List Line) (position : Nat) (span : Span) (line : Line)
    (opening : Opening) (policy : Policy) (state : State σ) : List (Activation σ) :=
  ((interpreter.notingBlockOn lines position span line opening policy).apply
    (state.beside [])).2.world.state.2

/-- The activations are of segments of a span, and no more than the grade says. -/
def Fits (position : Nat) (span : Span) (grade : Nat) (_results : Array LineResult)
    (kept : List (Activation σ)) : Prop :=
  kept.length ≤ grade ∧ ∀ activation ∈ kept, ∃ marker, (marker = position ∨ marker ∈ span.branches) ∧
    activation.start = marker + 1 ∧ activation.stop = span.segmentEnd marker

variable {interpreter} {lines : List Line} {line : Line} {position : Nat} {span : Span}

variable (interpreter lines) in
theorem bodySimulates_notedRange {marker : Nat} (hmarker : marker = position ∨ marker ∈ span.branches) :
    BodySimulates (State.Beside (Fits (σ := σ) position span))
      (interpreter.runRange lines (marker + 1) (span.segmentEnd marker))
      (interpreter.notedRange lines (marker + 1) (span.segmentEnd marker)) := by
  rintro policy grade state state' ⟨kept, ⟨hlength, hplaces⟩, rfl⟩
  refine ⟨rfl, _, ⟨?_, ?_⟩, rfl⟩
  · rw [List.length_append]
    exact Nat.succ_le_succ hlength
  · intro activation hmem
    rcases List.mem_append.1 hmem with hmem | hmem
    · exact hplaces activation hmem
    · obtain rfl := List.mem_singleton.1 hmem
      exact ⟨marker, hmarker, rfl, rfl⟩

/-- What is made of the markers of a span is related if it is related marker by marker. -/
theorem forall₂_filterMap {τ : Type} (lines : List Line) (span : Span) {R : Body σ → Body τ → Prop}
    {body : Nat → Body σ} {body' : Nat → Body τ}
    (h : ∀ marker ∈ span.branches, R (body marker) (body' marker)) :
    List.Forall₂ (fun part part' => part'.1 = part.1 ∧ R part.2 part'.2)
      (span.branches.filterMap fun marker => (lines[marker]?).map fun line => (line, body marker))
      (span.branches.filterMap fun marker => (lines[marker]?).map fun line =>
        (line, body' marker)) := by
  revert h
  induction span.branches with
  | nil => exact fun _ => .nil
  | cons marker markers ih =>
    intro h
    obtain ⟨hmarker, hmarkers⟩ := List.forall_mem_cons.1 h
    cases hline : lines[marker]? with
    | none =>
      rw [List.filterMap_cons_none (by rw [hline]; rfl),
        List.filterMap_cons_none (by rw [hline]; rfl)]
      exact ih hmarkers
    | some line =>
      rw [List.filterMap_cons_some (by rw [hline]; rfl),
        List.filterMap_cons_some (by rw [hline]; rfl)]
      exact .cons ⟨rfl, hmarker⟩ (ih hmarkers)

variable (interpreter lines) in
theorem partsSimulate_notedSegments : PartsSimulate (State.Beside (Fits (σ := σ) position span))
    (interpreter.segments lines span) (interpreter.notedSegments lines span) :=
  forall₂_filterMap lines span fun _ hmarker =>
    interpreter.bodySimulates_notedRange lines (.inr hmarker)

/-- With its activations noted, a block does what it does otherwise. They are of its segments, and no
more than the block may run. -/
theorem noting_block (interpreter : Interpreter σ) (lines : List Line) (position : Nat) (span : Span)
    (line : Line) (opening : Opening) (policy : Policy) (state : State σ) :
    (interpreter.notingBlockOn lines position span line opening policy).apply (state.beside []) =
      (((interpreter.blockOn lines position span line opening policy).apply state).1,
        ((interpreter.blockOn lines position span line opening policy).apply state).2.beside
          (interpreter.activations lines position span line opening policy state)) ∧
    Fits position span (opening.bound interpreter.settings.maxLoopIterations state.vars) #[]
      (interpreter.activations lines position span line opening policy state) := by
  have hsimulation : Simulation interpreter interpreter.noting
      (State.Beside (Fits (σ := σ) position span)) :=
    simulation_beside rfl (fun hle hfits => ⟨Nat.le_trans hfits.1 hle, hfits.2⟩) fun _ hfits => hfits
  have hstart : State.Beside (Fits (σ := σ) position span) 0 state (state.beside []) :=
    ⟨[], ⟨Nat.le_refl 0, nofun⟩, rfl⟩
  obtain ⟨houtcome, kept, hfits, hafter⟩ := hsimulation.simulates_block line opening
    (interpreter.bodySimulates_notedRange lines (.inl rfl))
    (interpreter.partsSimulate_notedSegments lines) policy hstart
  have hafter : ((interpreter.notingBlockOn lines position span line opening policy).apply
      (state.beside [])).2 = _ := hafter
  rw [Nat.zero_add] at hfits
  have hkept : interpreter.activations lines position span line opening policy state = kept := by
    unfold activations
    rw [hafter]
    rfl
  rw [hkept]
  exact ⟨Prod.ext houtcome hafter, hfits⟩

end Interpreter

/-! ## Loops that are completed -/

/-- Whenever the run is completed, the count has gone up by `added`. -/
def Run.Counts {τ : Type} (run : Run τ Flow) (count : State τ → Nat) (added : Nat) : Prop :=
  ∀ state after, run.apply state = (.ok .completed, after) → count after = count state + added

namespace Interpreter

section Counts

-- The count does not depend on the variables, and a body raises it by one.
variable {τ : Type} {count : State τ → Nat}
  (hvars : ∀ state vars, count { state with vars } = count state)

include hvars

theorem counts_iterate {body : Body τ}
    (hbody : ∀ policy state, count ((body policy).apply state).2 = count state + 1) (var : String)
    (policy : Policy) (index : Nat) (items : List String) :
    (iterate var body policy index items).Counts count items.length := by
  induction items generalizing index with
  | nil =>
    intro state after h
    cases h
    rfl
  | cons item items ih =>
    intro state after h
    rw [iterate] at h
    obtain ⟨_, bound, hbound, h⟩ := Run.exists_of_bind_apply h
    obtain ⟨flow, between, hflow, h⟩ := Run.exists_of_bind_apply h
    have hbind : count bound = count state := by
      obtain ⟨outcome, script, happly⟩ := Promise.Lawful.bindItem_apply var item index state
      rw [happly] at hbound
      cases hbound
      exact hvars state _
    have hcount := hbody policy bound
    rw [hflow] at hcount
    split at h
    · cases h
    · have hrest := ih (index + 1) between after h
      rw [hrest, hcount, hbind, List.length_cons]
      omega

theorem counts_preserving (name : String) {run : Run τ Flow} {added : Nat}
    (h : run.Counts count added) : (preserving name run).Counts count added := by
  intro state after hrun
  obtain ⟨vars, hpreserving⟩ : ∃ vars, (preserving name run).apply state =
      ((run.apply state).1, { (run.apply state).2 with vars }) := ⟨_, rfl⟩
  rcases happly : run.apply state with ⟨outcome, between⟩
  rw [hpreserving, happly] at hrun
  cases hrun
  rw [hvars]
  exact h state between happly

/-- A `@foreach` that is completed has run its body once for each item that its list had at the
start. -/
theorem count_foreach {interpreter : Interpreter τ} {body : Body τ}
    (hbody : ∀ policy state, count ((body policy).apply state).2 = count state + 1) (line : Line)
    {var : String} (hname : Variables.validName var) (list : String) (policy : Policy)
    {state after : State τ}
    (h : (interpreter.foreach line var list body policy).apply state = (.ok .completed, after)) :
    count after = count state + (ItemList.expand (state.vars.resolve list.toList)).length := by
  unfold foreach at h
  rw [if_pos hname, Run.bind_apply, Run.get_apply] at h
  exact counts_preserving hvars _ (counts_preserving hvars _
    (counts_iterate hvars hbody var policy 0 _)) state after h

end Counts

variable {interpreter : Interpreter σ} {lines : List Line} {line : Line} {position : Nat}
  {span : Span}

theorem length_activations_of_completed {var list : String} {policy : Policy} {state : State σ}
    (hname : Variables.validName var)
    (hcompleted : ((interpreter.blockOn lines position span line (.foreach var list) policy).apply
      state).1 = .ok .completed) :
    (interpreter.activations lines position span line (.foreach var list) policy state).length =
      (ItemList.expand (state.vars.resolve list.toList)).length := by
  obtain ⟨happly, -⟩ :=
    interpreter.noting_block lines position span line (.foreach var list) policy state
  rw [hcompleted] at happly
  let noted : State (σ × List (Activation σ)) → Nat := fun state => state.world.state.2.length
  have hvars : ∀ state vars, noted { state with vars } = noted state := fun _ _ => rfl
  have hcount := count_foreach hvars (fun _ _ => List.length_append) line hname list policy happly
  exact hcount.trans (Nat.zero_add _)

/-! ## Ranges that a range runs -/

variable (interpreter lines) in
/-- A run of a range runs another range: it walks to an opener, and the block of the opener runs the
other range as one of its segments. -/
inductive Invokes (outer inner : Activation σ) : Prop where
  | block {position : Nat} {passed : List Line} {state : State σ} {line : Line} {opening : Opening}
      {span : Span}
      (hwalk : interpreter.Walk lines outer.stop outer.policy outer.start outer.state position passed
        state)
      (hposition : position < outer.stop) (hline : lines[position]? = some line)
      (hopening : Directive.opening? line = some opening)
      (hfind : Span.find lines position outer.stop = .ok span)
      (hmem : inner ∈ interpreter.activations lines position span line opening
        (inForce outer.policy passed) state)

variable {start stop : Nat} {policy : Policy} {first state : State σ} {passed : List Line}
  {outer inner : Activation σ}

/-- A block at the start of a range runs its segments. -/
theorem invokes_of_mem {opening : Opening} (hstart : start < stop)
    (hline : lines[start]? = some line) (hopening : Directive.opening? line = some opening)
    (hfind : Span.find lines start stop = .ok span)
    (hmem : inner ∈ interpreter.activations lines start span line opening policy state) :
    interpreter.Invokes lines ⟨start, stop, policy, state⟩ inner :=
  .block .here hstart hline hopening hfind hmem

/-- A walk moves on by a line at least in each turn, and stays inside its range. -/
theorem Walk.length_le
    (h : interpreter.Walk lines stop policy start first position passed state) :
    start + passed.length ≤ position ∧ passed.length ≤ stop - start := by
  induction h with
  | here => exact ⟨Nat.le_refl _, Nat.zero_le _⟩
  | turn _ hturn _ ih =>
    have hlt := hturn.lt
    rw [List.length_append, List.length_singleton]
    omega

/-- Whatever the lines are, a range runs only ranges that lie inside it. -/
theorem Invokes.nested (h : interpreter.Invokes lines outer inner) :
    outer.start < inner.start ∧ inner.start ≤ inner.stop ∧ inner.stop < outer.stop := by
  obtain ⟨hwalk, -, -, -, hfind, hmem⟩ := h
  obtain ⟨-, -, hplaces⟩ := interpreter.noting_block lines _ _ _ _ _ _
  obtain ⟨marker, hmarker, hstart, hstop⟩ := hplaces inner hmem
  have hreached := hwalk.length_le
  have hsegment := Span.segment_bounds hfind hmarker
  have hterminator := Span.terminator_lt hfind
  omega

variable (interpreter lines) in
/-- The run of a range comes to an end: it takes finitely many turns, no more than it has lines, up to
its end or to a failure, and the runs of all ranges that it runs come to an end. -/
inductive Halts : Activation σ → Prop where
  | intro {activation : Activation σ} {position : Nat} {passed : List Line} {state : State σ}
      (hwalk : interpreter.Walk lines activation.stop activation.policy activation.start
        activation.state position passed state)
      (hturns : passed.length ≤ activation.stop - activation.start)
      (hlast : (∃ flow after, interpreter.Ends lines activation.stop position
          (inForce activation.policy passed) state flow after) ∨
        ∃ failure after, interpreter.Fails lines activation.stop position
          (inForce activation.policy passed) state failure after)
      (hinner : ∀ inner, interpreter.Invokes lines activation inner → Halts inner) :
      Halts activation

/-- Every run of a range comes to an end. -/
theorem halts (activation : Activation σ) : interpreter.Halts lines activation := by
  -- The ranges that a range runs are shorter.
  induction hsize : activation.stop - activation.start using Nat.strongRecOn
    generalizing activation with
  | ind size ih =>
  have hhere : interpreter.Walk lines activation.stop activation.policy activation.start
    activation.state activation.start [] activation.state := .here
  obtain ⟨position, passed, state, hwalk, hlast⟩ := hhere.exists_last
  refine .intro hwalk hwalk.length_le.2 hlast fun inner hinner => ?_
  have hnested := hinner.nested
  exact ih _ (by omega) inner rfl

/-! ## Chains -/

/-- In a chain of runs, each of which runs the next one, every range is shorter by two lines. -/
theorem length_le_of_isChain {activations : List (Activation σ)}
    (h : List.IsChain (interpreter.Invokes lines) (outer :: activations)) :
    2 * activations.length ≤ outer.stop - outer.start := by
  induction activations generalizing outer with
  | nil => exact Nat.zero_le _
  | cons inner rest ih =>
    obtain ⟨hinvokes, hrest⟩ := List.isChain_cons_cons.1 h
    have hnested := hinvokes.nested
    have hlength := ih hrest
    rw [List.length_cons]
    omega

section Accepted

open Validation

variable {limits : Limits} (h : Accepts limits [] lines)

theorem Walk.entered (hentered : Entered lines start stop)
    (hwalk : interpreter.Walk lines stop policy start first position passed state) :
    Entered lines position stop := by
  induction hwalk with
  | here => exact hentered
  | turn _ hturn _ ih =>
    cases hturn with
    | line hposition hline hopening => exact ih.next hposition hline hopening
    | block hposition _ _ hfind => exact ih.rest hposition hfind

include h

/-- In accepted lines a range runs only ranges that are one block deeper. -/
theorem Invokes.depthAt_eq (hinvokes : interpreter.Invokes lines outer inner)
    (hentered : Entered lines outer.start outer.stop) :
    Entered lines inner.start inner.stop ∧
      depthAt limits lines inner.start = depthAt limits lines outer.start + 1 := by
  obtain ⟨hwalk, hposition, -, -, hfind, hmem⟩ := hinvokes
  obtain ⟨-, -, hplaces⟩ := interpreter.noting_block lines _ _ _ _ _ _
  obtain ⟨marker, hmarker, hstart, hstop⟩ := hplaces inner hmem
  have hreached := hwalk.entered hentered
  have hinner : Entered lines inner.start inner.stop := by
    rw [hstart, hstop]
    rcases hmarker with rfl | hmarker
    · exact hreached.body hposition hfind
    · exact hreached.part hposition hfind hmarker
  refine ⟨hinner, ?_⟩
  obtain ⟨hopener, -, hspan⟩ := (h.level hreached).delimits_of_find h hposition hfind
  obtain ⟨-, hbehind, hinside⟩ := Span.segment_bounds hfind hmarker
  obtain ⟨-, -, hend⟩ := hspan.segmentEnd_bounds (Nat.lt_of_lt_of_le hbehind hinside)
  have hsame := (h.level hinner).same
  have houter := (h.level hentered).same
  have hrest := (h.level hreached).same
  rw [hopener, ← hstop] at hend
  omega

/-- In accepted lines a chain of runs is no longer than blocks may be nested. -/
theorem depthAt_add_length_le {activations : List (Activation σ)}
    (hentered : Entered lines outer.start outer.stop)
    (hchain : List.IsChain (interpreter.Invokes lines) (outer :: activations)) :
    depthAt limits lines outer.start + activations.length ≤ limits.maxNestingDepth := by
  induction activations generalizing outer with
  | nil =>
    have hlevel := h.level hentered
    exact h.depthAt_le (Nat.le_trans hlevel.start_le hlevel.stop_le)
  | cons inner rest ih =>
    obtain ⟨hinvokes, hrest⟩ := List.isChain_cons_cons.1 hchain
    obtain ⟨hinner, hdepth⟩ := hinvokes.depthAt_eq h hentered
    have hlength := ih hinner hrest
    rw [List.length_cons]
    omega

/-- Accepted lines do not lack the turn at the start of a range. -/
theorem exists_turn (interpreter : Interpreter σ) (hentered : Entered lines start stop)
    (hstart : start < stop) :
    ∃ line run next, interpreter.Turn lines stop start line run next := by
  have hlength := Nat.lt_of_lt_of_le hstart (h.level hentered).stop_le
  have hline : lines[start]? = some lines[start] := List.getElem?_eq_getElem hlength
  cases hopening : Directive.opening? lines[start] with
  | none => exact ⟨_, _, _, .line hstart hline hopening⟩
  | some opening =>
    obtain ⟨span, rfl, hbegins⟩ := h.exists_begins hentered hstart hline hopening
    exact ⟨_, _, _, .block hstart hline hopening hbegins.find⟩

/-- In accepted lines a turn that is taken under `continue` is completed. -/
theorem Turn.exists_completed {run : Body σ} {next : Nat} (hentered : Entered lines position stop)
    (hturn : interpreter.Turn lines stop position line run next) (state : State σ) :
    ∃ after, (run .continue).apply state = (.ok .completed, after) := by
  obtain ⟨flow, hflow⟩ := interpreter.succeeds_runRange h hentered .continue state
  rw [hturn.runRange_eq, Run.followedBy, Run.bind_apply] at hflow
  rcases hrun : (run .continue).apply state with ⟨failure | _ | _, after⟩
  · rw [hrun] at hflow
    cases hflow
  · exact ⟨after, rfl⟩
  · cases hturn.eq_abort hrun

/-- In accepted lines a block that is run under `continue` is completed. -/
theorem blockOn_completed {opening : Opening} (hentered : Entered lines start stop)
    (hstart : start < stop) (hline : lines[start]? = some line)
    (hopening : Directive.opening? line = some opening)
    (hfind : Span.find lines start stop = .ok span) :
    ((interpreter.blockOn lines start span line opening .continue).apply state).1 =
      .ok .completed := by
  have hturn : interpreter.Turn lines stop start line _ _ := .block hstart hline hopening hfind
  obtain ⟨after, hafter⟩ := hturn.exists_completed h hentered state
  exact congrArg Prod.fst hafter

end Accepted

end Interpreter

/-! ## Scripts -/

/-- How runs of ranges nest, whatever the lines are: all of them come to an end, and each range runs only
ranges that lie inside it. A block does what it does when the runs of its segments are noted, and there
are no more of them than its bound says: up to the limit for a `@while`, and for a `@foreach` as many as
its list has items when the block is entered, and exactly as many if the loop is completed. -/
structure Interpreter.Descends (interpreter : Interpreter σ) (lines : List Line) : Prop where
  halts : ∀ activation, interpreter.Halts lines activation
  nested : ∀ outer inner, interpreter.Invokes lines outer inner →
    outer.start < inner.start ∧ inner.start ≤ inner.stop ∧ inner.stop < outer.stop
  shorter : ∀ outer activations, List.IsChain (interpreter.Invokes lines) (outer :: activations) →
    2 * activations.length ≤ outer.stop - outer.start
  noted : ∀ position span line opening policy state,
    (interpreter.notingBlockOn lines position span line opening policy).apply (state.beside []) =
      (((interpreter.blockOn lines position span line opening policy).apply state).1,
        ((interpreter.blockOn lines position span line opening policy).apply state).2.beside
          (interpreter.activations lines position span line opening policy state))
  bounded : ∀ position span line opening policy state,
    (interpreter.activations lines position span line opening policy state).length ≤
      opening.bound interpreter.settings.maxLoopIterations state.vars
  completed : ∀ position span line var list policy state, Variables.validName var →
    ((interpreter.blockOn lines position span line (.foreach var list) policy).apply state).1 =
      .ok .completed →
    (interpreter.activations lines position span line (.foreach var list) policy state).length =
      (ItemList.expand (state.vars.resolve list.toList)).length

namespace Script

/-- A run of a script comes to an end, with ranges that are run inside one another, whether or not the
script is accepted. If it is accepted, no chain of runs of ranges, each inside the one before it, is
longer than blocks may be nested, not counting the whole script. -/
theorem run_descends (script : Script) (interpreter : Interpreter σ) :
    interpreter.Descends script.lines ∧
    ∀ limits warnings, script.ensureValid limits = .ok warnings → ∀ policy state activations,
      List.IsChain (interpreter.Invokes script.lines)
        (⟨0, script.lines.length, policy, state⟩ :: activations) →
      (⟨0, script.lines.length, policy, state⟩ :: activations).length ≤
        limits.maxNestingDepth + 1 := by
  constructor
  · exact {
      halts := Interpreter.halts
      nested := fun _ _ h => h.nested
      shorter := fun _ _ => Interpreter.length_le_of_isChain
      noted := fun _ _ _ _ _ _ => (interpreter.noting_block _ _ _ _ _ _ _).1
      bounded := fun _ _ _ _ _ _ => (interpreter.noting_block _ _ _ _ _ _ _).2.1
      completed := fun _ _ _ _ _ _ _ => Interpreter.length_activations_of_completed }
  · intro limits warnings h policy state activations hchain
    have hlength :=
      Interpreter.depthAt_add_length_le (accepts_of_ensureValid h) .whole hchain
    rw [List.length_cons]
    omega

/-- The loop of the sample runs its body, and no chain of runs is longer than four. -/
theorem run_descends_sample :
    sample.ensureValid { maxNestingDepth := 3 } = .ok [] ∧
      (∃ inner, Interpreter.sample.Invokes sample.lines
        ⟨0, sample.lines.length, .continue, State.sample⟩ inner) ∧
      ∀ activations, List.IsChain (Interpreter.sample.Invokes sample.lines)
          (⟨0, sample.lines.length, .continue, State.sample⟩ :: activations) →
        (⟨0, sample.lines.length, .continue, State.sample⟩ :: activations : List (Activation Unit)).length ≤
          4 := by
  have hvalid : sample.ensureValid { maxNestingDepth := 3 } = .ok [] :=
    ensureValid_of_nil (by decide +kernel)
  obtain ⟨hdescends, hchains⟩ := sample.run_descends Interpreter.sample
  refine ⟨hvalid, ?_, hchains _ _ hvalid _ _⟩
  have hline : sample.lines[0]? =
      some ⟨1, "@foreach item in a b", .directive "foreach" "item in a b"⟩ := by decide +kernel
  have hopening : Directive.opening?
      ⟨1, "@foreach item in a b", .directive "foreach" "item in a b"⟩ =
        some (.foreach "item" "a b") := by decide +kernel
  have hfind : Span.find sample.lines 0 sample.lines.length = .ok ⟨.foreach, 0, 12, []⟩ := by
    decide +kernel
  obtain ⟨hstart, -⟩ := List.getElem?_eq_some_iff.1 hline
  have hcompleted : ((Interpreter.sample.blockOn sample.lines 0 ⟨.foreach, 0, 12, []⟩
      ⟨1, "@foreach item in a b", .directive "foreach" "item in a b"⟩ (.foreach "item" "a b")
      .continue).apply State.sample).1 = .ok .completed :=
    Interpreter.blockOn_completed (accepts_of_ensureValid hvalid) .whole hstart hline hopening hfind
  have hlength := hdescends.completed 0 ⟨.foreach, 0, 12, []⟩ _ "item" "a b" .continue State.sample
    (by decide) hcompleted
  have hitems : 0 < (ItemList.expand (State.sample.vars.resolve "a b".toList)).length := by
    decide +kernel
  rw [← hlength] at hitems
  obtain ⟨inner, hinner⟩ := List.exists_mem_of_length_pos hitems
  exact ⟨inner, Interpreter.invokes_of_mem hstart hline hopening hfind hinner⟩

end Script

end BatchScript
