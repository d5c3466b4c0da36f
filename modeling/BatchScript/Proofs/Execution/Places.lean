import BatchScript.Proofs.Block.Bodies
import BatchScript.Proofs.Execution.Recording
import BatchScript.Proofs.Line.Endings

/-!
# Places of results

In a script that was read from a text, lines are numbered in order, so that every result tells the
position of its line. A run of a range of accepted lines records results for lines of the range only
(`keeps_placed`). This and other promises about ranges are shown by what a line keeps and by what a block
at the start of a range keeps (`Begins.keeps_block`, `Begins.keeps_attempt`).
-/

namespace BatchScript

variable {σ : Type}

/-! ## Numbers and positions -/

/-- Lines are numbered in order, from one on. -/
def Numbered (lines : List Line) : Prop :=
  ∀ position line, lines[position]? = some line → line.number = position + 1

/-- The position of the line that a result belongs to. -/
def LineResult.position (result : LineResult) : Nat :=
  result.line - 1

namespace Script

theorem number_of_readLines {first position : Nat} {texts : List (List Char)} {line : Line}
    (h : ((readLines first texts).map (·.1))[position]? = some line) :
    line.number = first + position := by
  rw [readLines_eq_map_zipIdx, List.map_map, List.getElem?_map, Option.map_eq_some_iff] at h
  obtain ⟨⟨text, number⟩, hread, rfl⟩ := h
  rw [List.getElem?_zipIdx, Option.map_eq_some_iff] at hread
  obtain ⟨found, -, hfound⟩ := hread
  cases hfound
  rfl

theorem numbered_parse (text : String) : Numbered (parse text).lines := by
  intro position line hline
  rw [number_of_readLines hline, Nat.add_comm]

end Script

/-! ## Segments of attempts -/

namespace Interpreter

variable {interpreter : Interpreter σ} {lines : List Line} {span : Span}

/-- The part of a branch is what stands after its first marker. -/
theorem part?_filterMap (lines : List Line) (span : Span) (body : Nat → Body σ) (branch : Branch) :
    part? (span.branches.filterMap fun marker => (lines[marker]?).map fun line =>
      (line, body marker)) branch = (span.branch? lines branch).map body := by
  unfold part? Span.branch?
  induction span.branches with
  | nil => rfl
  | cons marker markers ih =>
    rw [List.find?_cons]
    cases hline : lines[marker]? with
    | none =>
      rw [List.filterMap_cons_none (by rw [hline]; rfl)]
      exact ih
    | some line =>
      rw [List.filterMap_cons_some (by rw [hline]; rfl), List.find?_cons]
      show Option.map _ (match decide (line.role = .divides branch) with | true => _ | false => _) =
        Option.map _ (match decide (line.role = .divides branch) with | true => _ | false => _)
      cases decide (line.role = .divides branch) with
      | true => rfl
      | false => exact ih

theorem isSome_part?_segments (branch : Branch) :
    (part? (interpreter.segments lines span) branch).isSome =
      (span.branch? lines branch).isSome := by
  rw [segments, part?_filterMap, Option.isSome_map]

end Interpreter

/-! ## Ranges and promises -/

namespace Validation.Begins

variable {limits : Limits} {lines : List Line} {line : Line} {opening : Opening} {span : Span}
  {stop : Nat}

theorem kind_eq (h : Begins limits lines line opening span stop) : span.kind = opening.kind := by
  have hrole := (roleAt_eq h.opener).trans (congrArg some (Directive.role_of_opening? h.opening))
  exact Role.opens.inj (Option.some.inj (h.delimits.opens.symm.trans hrole))

theorem catches_eq (h : Begins limits lines line .attempt span stop) :
    span.catches lines = (span.branch? lines .catch).isSome := by
  rw [Span.catches, h.kind_eq]
  rfl

/-- Only an attempt can have a `@catch`. -/
theorem catches_eq_false (h : Begins limits lines line opening span stop)
    (hopening : opening ≠ .attempt) : span.catches lines = false := by
  rw [Span.catches, h.kind_eq]
  cases opening with
  | attempt => exact absurd rfl hopening
  | conditional | foreach | loop => rfl

variable (interpreter : Interpreter σ) (hbegins : Begins limits lines line opening span stop)
  {policy : Policy} {promise : Promise σ}

include hbegins

/-- A block at the start of a range is run first, and then the lines after it. -/
theorem runRange_eq (policy : Policy) :
    interpreter.runRange lines span.opener stop policy =
      (interpreter.block line opening
        (interpreter.runRange lines (span.opener + 1) (span.segmentEnd span.opener))
        (interpreter.segments lines span) policy).followedBy
        (interpreter.runRange lines (span.terminator + 1) stop policy) :=
  interpreter.runRange_of_find_eq_ok hbegins.opener hbegins.opener_lt hbegins.opening hbegins.find
    policy

/-- A block keeps a promise that its segments keep, and that lines of the block keep when they are
recorded as failures. What an attempt keeps is shown apart. -/
theorem keeps_block (lawful : promise.Lawful policy)
    (hfails : ∀ position ∈ span.opener :: span.branches, ∀ refused,
      lines[position]? = some refused → ∀ failure,
        (interpreter.failBlock refused failure policy).Keeps promise)
    (hbody : opening ≠ .attempt → (interpreter.runRange lines (span.opener + 1)
      (span.segmentEnd span.opener) policy).Keeps promise)
    (hparts : ∀ marker ∈ span.branches,
      (interpreter.runRange lines (marker + 1) (span.segmentEnd marker) policy).Keeps promise)
    (hattempt : opening = .attempt → (Interpreter.attempt
      (interpreter.runRange lines (span.opener + 1) (span.segmentEnd span.opener))
      (interpreter.segments lines span) policy).Keeps promise) :
    (interpreter.block line opening
      (interpreter.runRange lines (span.opener + 1) (span.segmentEnd span.opener))
      (interpreter.segments lines span) policy).Keeps promise := by
  refine lawful.keeps_block (hfails span.opener List.mem_cons_self line hbegins.opener) ?_ hbody ?_
    hattempt
  · intro part hpart
    obtain ⟨marker, hmarker, hline, -⟩ := interpreter.exists_of_mem_segments hpart
    exact hfails marker (List.mem_cons_of_mem _ hmarker) part.1 hline
  · intro part hpart
    obtain ⟨marker, hmarker, -, hrun⟩ := interpreter.exists_of_mem_segments hpart
    exact hrun ▸ hparts marker hmarker

omit hbegins in
/-- An attempt, by what its body keeps one level deeper if there is a `@catch`. -/
theorem keeps_attempt (hbegins : Begins limits lines line .attempt span stop)
    (lawful : promise.Lawful policy)
    (hstays : ∀ {first last before between outcome after}, State.Records first before between →
      State.Records last between after → promise first before (.ok .stopped) between →
      promise last between outcome after →
        promise (first ++ last) before (outcome.map fun _ => .stopped) after)
    (hbody : (Interpreter.covered (span.catches lines) (interpreter.runRange lines
      (span.opener + 1) (span.segmentEnd span.opener) .continue)).Keeps
        (promise.tried policy (span.catches lines)))
    (hparts : ∀ marker ∈ span.branches,
      (interpreter.runRange lines (marker + 1) (span.segmentEnd marker) policy).Keeps promise) :
    (Interpreter.attempt
      (interpreter.runRange lines (span.opener + 1) (span.segmentEnd span.opener))
      (interpreter.segments lines span) policy).Keeps promise := by
  refine lawful.keeps_attempt hstays ?_ fun part hpart => ?_
  · rw [Interpreter.isSome_part?_segments, ← hbegins.catches_eq]
    exact hbody
  · obtain ⟨marker, hmarker, -, hrun⟩ := interpreter.exists_of_mem_segments hpart
    exact hrun ▸ hparts marker hmarker

end Validation.Begins

/-! ## Placed results -/

/-- New results belong to lines from one position on and before another one. -/
def Promise.placed (start stop : Nat) : Promise σ :=
  fun new _ _ _ => ∀ result ∈ new, start ≤ result.position ∧ result.position < stop

namespace Promise

theorem lawful_placed (start stop : Nat) (policy : Policy) :
    (placed start stop : Promise σ).Lawful policy where
  rest _ _ hmem := absurd hmem List.not_mem_nil
  fail _ _ _ hmem := absurd hmem List.not_mem_nil
  script h _ _ := h
  seq _ _ h h' := List.forall_mem_append.2 ⟨h, h'⟩
  under h := h

theorem placed_mono {start stop start' stop' : Nat} (hstart : start' ≤ start) (hstop : stop ≤ stop')
    {new : List LineResult} {before after : State σ} {outcome : Except Failure Flow}
    (h : placed start stop new before outcome after) :
    placed start' stop' new before outcome after :=
  fun result hmem =>
    ⟨Nat.le_trans hstart (h result hmem).1, Nat.lt_of_lt_of_le (h result hmem).2 hstop⟩

theorem placed_of_single {lines : List Line} (hnumbered : Numbered lines) {position : Nat}
    {line : Line} (hline : lines[position]? = some line) {policy : Policy}
    {new : List LineResult} {before after : State σ} {outcome : Except Failure Flow}
    (h : single line policy new before outcome after) :
    placed position (position + 1) new before outcome after := by
  intro result hmem
  have hnumber := h.1.number result hmem
  rw [hnumbered position line hline] at hnumber
  unfold LineResult.position
  omega

end Promise

namespace Validation.Begins

open Promise

variable {limits : Limits} {lines : List Line} {line : Line} {opening : Opening} {span : Span}
  {stop : Nat} {policy : Policy} (interpreter : Interpreter σ)

/-- What is placed in a part of a block is placed between the opener and the terminator. -/
theorem keeps_placed_part (hbegins : Begins limits lines line opening span stop) {marker : Nat}
    (hmarker : marker ∈ span.branches)
    (hpart : (interpreter.runRange lines (marker + 1) (span.segmentEnd marker) policy).Keeps
      (placed (marker + 1) (span.segmentEnd marker))) :
    (interpreter.runRange lines (marker + 1) (span.segmentEnd marker) policy).Keeps
      (placed (span.opener + 1) span.terminator) := by
  obtain ⟨hbefore, hafter, -⟩ := hbegins.delimits.mem_branches_iff.1 hmarker
  have hbounds := hbegins.delimits.segmentEnd_bounds hafter
  exact hpart.mono (placed_mono (by omega) (by omega))

/-- All results of an attempt are placed between its opener and its terminator. -/
theorem keeps_placed_attempt (hbegins : Begins limits lines line .attempt span stop)
    (hbody : (interpreter.runRange lines (span.opener + 1) (span.segmentEnd span.opener)
      .continue).Keeps (placed (span.opener + 1) (span.segmentEnd span.opener)))
    (hparts : ∀ marker ∈ span.branches,
      (interpreter.runRange lines (marker + 1) (span.segmentEnd marker) policy).Keeps
        (placed (marker + 1) (span.segmentEnd marker))) :
    (Interpreter.attempt
      (interpreter.runRange lines (span.opener + 1) (span.segmentEnd span.opener))
      (interpreter.segments lines span) policy).Keeps
        (placed (span.opener + 1) span.terminator) := by
  have hbounds := hbegins.delimits.segmentEnd_bounds hbegins.delimits.opener_lt
  refine hbegins.keeps_attempt interpreter (lawful_placed _ _ policy) ?_ ?_ fun marker hmarker =>
    hbegins.keeps_placed_part interpreter hmarker (hparts marker hmarker)
  · exact fun _ _ hfirst hlast => List.forall_mem_append.2 ⟨hfirst, hlast⟩
  · exact (hbody.mono (placed_mono (Nat.le_refl _) hbounds.2.1)).covered (fun _ => id) fun _ => id

end Validation.Begins

namespace Interpreter

open Validation Promise

variable (interpreter : Interpreter σ) {limits : Limits} {lines : List Line} {start stop : Nat}

/-- The results of a range belong to its lines. -/
theorem keeps_placed (h : Accepts limits [] lines) (hnumbered : Numbered lines)
    (hentered : Entered lines start stop) (policy : Policy) :
    (interpreter.runRange lines start stop policy).Keeps (placed start stop) := by
  refine h.range_induction (motive := fun start stop => ∀ policy,
    (interpreter.runRange lines start stop policy).Keeps (placed start stop)) ?_ ?_ ?_ hentered
    policy
  · intro start stop hend policy
    rw [interpreter.runRange_of_le hend]
    exact (lawful_placed start stop policy).keeps_completed
  · intro start stop line hentered hstart hline hopening hrest policy
    rw [(Turn.line hstart hline hopening).runRange_eq]
    refine (lawful_placed start stop policy).keeps_followedBy ?_ ?_
    · exact (interpreter.keeps_runLine line policy).mono fun hsingle =>
        placed_mono (Nat.le_refl _) hstart (placed_of_single hnumbered hline hsingle)
    · exact (hrest _).mono (placed_mono (Nat.le_succ start) (Nat.le_refl _))
  · intro line opening span stop hbegins hbody hparts hrest policy
    have hspan := hbegins.delimits
    have hopener := hspan.opener_lt
    have hterminator := hbegins.terminator_lt
    have hlawful := lawful_placed (σ := σ) span.opener stop policy
    have hwiden : ∀ {new before outcome after},
        placed (span.opener + 1) span.terminator new before outcome after →
          placed (σ := σ) span.opener stop new before outcome after :=
      placed_mono (Nat.le_succ _) (Nat.le_of_lt hterminator)
    rw [hbegins.runRange_eq]
    refine hlawful.keeps_followedBy ?_ ((hrest policy).mono (placed_mono (by omega) (Nat.le_refl _)))
    refine hbegins.keeps_block interpreter hlawful ?_ ?_ ?_ ?_
    · intro position hposition refused hrefused failure
      have hinside : span.opener ≤ position ∧ position < stop := by
        rcases List.mem_cons.1 hposition with rfl | hmarker
        · exact ⟨Nat.le_refl _, hbegins.opener_lt⟩
        · obtain ⟨hbefore, hafter, -⟩ := hspan.mem_branches_iff.1 hmarker
          exact ⟨Nat.le_of_lt hbefore, Nat.lt_trans hafter hterminator⟩
      exact (interpreter.keeps_failBlock refused policy failure).mono fun hsingle =>
        placed_mono hinside.1 hinside.2 (placed_of_single hnumbered hrefused hsingle)
    · have hbounds := hspan.segmentEnd_bounds hopener
      exact fun _ => (hbody policy).mono (placed_mono (Nat.le_succ _) (by omega))
    · exact fun marker hmarker =>
        (hbegins.keeps_placed_part interpreter hmarker (hparts marker hmarker policy)).mono hwiden
    · rintro rfl
      exact (hbegins.keeps_placed_attempt interpreter (hbody .continue) fun marker hmarker =>
        hparts marker hmarker policy).mono hwiden

end Interpreter

end BatchScript
