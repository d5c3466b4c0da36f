import BatchScript.Proofs.Execution.Journal
import BatchScript.Proofs.Execution.Places

/-!
# What a block does, by its activations

A block is told by the ranges that it runs: what it does with their runs noted is what it does
otherwise, and the notes are its activations (`blockOn_of_noting`). So a statement on the segments of a
block, how often they run and in which states, is shown step by step on states with notes beside them,
where the run of a range is known (`notedRange_beside`).
-/

namespace BatchScript

variable {σ : Type}

theorem Flow.under_eq_stopped_iff {flow : Flow} {policy : Policy} :
    flow.under policy = .stopped ↔ policy = .abort ∧ flow = .stopped := by
  cases flow <;> cases policy <;> decide

/-- The run of the segment after a marker. -/
def Span.activation (span : Span) (marker : Nat) (policy : Policy) (state : State σ) :
    Activation σ :=
  ⟨marker + 1, span.segmentEnd marker, policy, state⟩

/-! ## Markers -/

theorem Branch.mem_branches_kind (branch : Branch) : branch ∈ branch.kind.branches := by
  cases branch <;> decide

namespace Span

variable {lines : List Line} {opener stop marker : Nat} {span : Span} {branch : Branch}

theorem mem_branches_of_branch? (h : span.branch? lines branch = some marker) :
    marker ∈ span.branches :=
  List.mem_of_find?_eq_some h

theorem roleAt_of_branch? (h : span.branch? lines branch = some marker) :
    roleAt lines marker = some (.divides branch) := by
  unfold branch? at h
  have hfound := List.find?_some h
  obtain ⟨line, hline, hrole⟩ := (Option.any_eq_true _ _).1 hfound
  rw [roleAt_eq hline, of_decide_eq_true hrole]

theorem kind_of_find (h : find lines opener stop = .ok span) {line : Line}
    (hline : lines[opener]? = some line) {opening : Opening}
    (hopening : Directive.opening? line = some opening) : span.kind = opening.kind := by
  obtain ⟨found, kind, cut, hfound, hrole, -, rfl⟩ := exists_cut_of_find h
  obtain rfl : found = line := Option.some.inj (hfound.symm.trans hline)
  exact Role.opens.inj (hrole.symm.trans (Directive.role_of_opening? hopening))

/-- Whatever the lines are, a block of a kind without markers is one segment. -/
theorem segmentEnd_of_find (h : find lines opener stop = .ok span)
    (hkind : span.kind.branches = []) (marker : Nat) : span.segmentEnd marker = span.terminator := by
  obtain ⟨-, kind, cut, -, -, hcut, rfl⟩ := exists_cut_of_find h
  have hkind : kind.branches = [] := hkind
  have hparts : cut.parts = [] := by
    refine List.eq_nil_iff_forall_not_mem.2 fun part hpart => ?_
    have hdivides := Cut.divides_of_mem_parts hcut hpart
    unfold Line.divides at hdivides
    split at hdivides
    next branch _ =>
      have hmem := branch.mem_branches_kind
      rw [of_decide_eq_true hdivides, hkind] at hmem
      cases hmem
    next => cases hdivides
  simp [segmentEnd, ofCut, hparts, markers]

theorem segmentEnd_of_opening (h : find lines opener stop = .ok span) {line : Line}
    (hline : lines[opener]? = some line) {opening : Opening}
    (hopening : Directive.opening? line = some opening) (hkind : opening.kind.branches = [])
    (marker : Nat) : span.segmentEnd marker = span.terminator :=
  segmentEnd_of_find h (by rw [kind_of_find h hline hopening, hkind]) marker

end Span

namespace Interpreter

variable (interpreter : Interpreter σ) (lines : List Line)

/-! ## Runs of ranges -/

/-- What comes of the run of a range. -/
def outcome (activation : Activation σ) : Except Failure Flow :=
  ((interpreter.runRange lines activation.start activation.stop activation.policy).apply
    activation.state).1

/-- The run of a range is stopped. -/
def Stops (activation : Activation σ) : Prop :=
  interpreter.outcome lines activation = .ok .stopped

/-- The results that the run of a range records. -/
def recorded (activation : Activation σ) : List LineResult :=
  (interpreter.ended lines activation).results.toList.drop activation.state.results.size

theorem records_recorded (activation : Activation σ) :
    State.Records (interpreter.recorded lines activation) activation.state
      (interpreter.ended lines activation) := by
  have hkeeps : (interpreter.runRange lines activation.start activation.stop
      activation.policy).Keeps (.ofStates fun _ _ => True) :=
    framing_true.keeps_run (fun _ _ => trivial) _ (fun _ _ _ => trivial) activation.policy
  obtain ⟨new, hrecords, -⟩ := hkeeps activation.state
  have hnew : interpreter.recorded lines activation = new := by
    have hresults : (interpreter.ended lines activation).results.toList =
        activation.state.results.toList ++ new := hrecords.results
    rw [recorded, hresults, ← Array.length_toList, List.drop_left]
  exact hnew ▸ hrecords

/-- The state in which the last of some runs ends, or the first state if there are none. -/
def reached (first : State σ) (activations : List (Activation σ)) : State σ :=
  (activations.getLast?.map (interpreter.ended lines)).getD first

variable {interpreter lines} in
theorem reached_cons (first : State σ) (activation : Activation σ)
    (activations : List (Activation σ)) :
    interpreter.reached lines first (activation :: activations) =
      interpreter.reached lines (interpreter.ended lines activation) activations := by
  cases activations with
  | nil => rfl
  | cons => rw [reached, reached, List.getLast?_cons_cons, List.getLast?_cons]; rfl

/-! ## Notes -/

theorem notedRange_beside (start stop : Nat) (policy : Policy) (state : State σ)
    (kept : List (Activation σ)) :
    (interpreter.notedRange lines start stop policy).apply (state.beside kept) =
      (interpreter.outcome lines ⟨start, stop, policy, state⟩,
        (interpreter.ended lines ⟨start, stop, policy, state⟩).beside
          (kept ++ [⟨start, stop, policy, state⟩])) :=
  rfl

variable {interpreter lines}

/-- What a block does with its activations noted tells what it does, and its activations. -/
theorem blockOn_of_noting {position : Nat} {span : Span} {line : Line} {opening : Opening}
    {policy : Policy} {state after : State σ} {outcome : Except Failure Flow}
    {activations : List (Activation σ)}
    (h : (interpreter.notingBlockOn lines position span line opening policy).apply
      (state.beside []) = (outcome, after.beside activations)) :
    (interpreter.blockOn lines position span line opening policy).apply state = (outcome, after) ∧
      interpreter.activations lines position span line opening policy state = activations := by
  obtain ⟨happly, -⟩ := interpreter.noting_block lines position span line opening policy state
  rw [h] at happly
  obtain ⟨houtcome, hstate⟩ := Prod.ext_iff.1 happly
  exact ⟨Prod.ext houtcome.symm (congrArg State.plain hstate).symm,
    (congrArg (·.world.state.2) hstate).symm⟩

end Interpreter

/-! ## Blocks of accepted lines -/

namespace Validation.Begins

variable {limits : Limits} {lines : List Line} {line : Line} {opening : Opening} {span : Span}
  {stop : Nat} (hbegins : Begins limits lines line opening span stop)

include hbegins

theorem closes : roleAt lines span.terminator = some (.closes opening.kind) :=
  hbegins.kind_eq ▸ hbegins.delimits.closing.closes

/-- The segments of a block in accepted lines are run to an end. -/
theorem segments_succeed (h : Accepts limits [] lines) (interpreter : Interpreter σ) {marker : Nat}
    (hmarker : marker = span.opener ∨ marker ∈ span.branches) :
    Interpreter.BodySucceeds
      (interpreter.runRange lines (marker + 1) (span.segmentEnd marker)) := by
  rcases hmarker with rfl | hmarker
  · exact interpreter.succeeds_runRange h (hbegins.entered.body hbegins.opener_lt hbegins.find)
  · exact interpreter.succeeds_runRange h
      (hbegins.entered.part hbegins.opener_lt hbegins.find hmarker)

end Validation.Begins

end BatchScript
