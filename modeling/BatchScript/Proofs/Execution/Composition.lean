import BatchScript.Proofs.Execution.Completion
import BatchScript.Proofs.Execution.Turns

/-!
# Ranges compose

A range that begins and ends at the same level of open blocks may be cut at any place of that level:
running it is running the part before the place, and then, unless that part is stopped, the part after
it under the policy that the last `@onerror` at the level of the range has set
(`Script.runRange_composes`). Nothing else passes from one line to the lines after it but the state.

Blocks are looked for with the end of the range as a bound, so the two runs look for the same blocks with
different bounds. They find the same ones because in a level range no block is cut off by the end
(`Level.exists_find`).
-/

namespace BatchScript

variable {σ : Type}

/-! ## Runs in sequence -/

theorem Run.followedBy_assoc (first second third : Run σ Flow) :
    (first.followedBy second).followedBy third = first.followedBy (second.followedBy third) := by
  unfold followedBy
  rw [bind_assoc]
  refine bind_congr fun flow => ?_
  cases flow <;> rfl

theorem Run.completed_followedBy (rest : Run σ Flow) :
    (return .completed : Run σ Flow).followedBy rest = rest :=
  rfl

theorem Run.followedBy_completed (first : Run σ Flow) :
    first.followedBy (return .completed) = first := by
  unfold followedBy
  refine Eq.trans (bind_congr fun flow => ?_) (bind_pure first)
  cases flow <;> rfl

/-- What a run in sequence does, where the first one comes to an end. -/
theorem Run.Succeeds.exists_of_eq_followedBy {first rest whole : Run σ Flow} (h : first.Succeeds)
    (hwhole : whole = first.followedBy rest) (state : State σ) :
    ∃ flow between, first.apply state = (.ok flow, between) ∧
      (flow = .stopped → whole.apply state = (.ok .stopped, between)) ∧
      (flow = .completed → whole.apply state = rest.apply between) := by
  obtain ⟨flow, hflow⟩ := h state
  have hfirst : first.apply state = (.ok flow, (first.apply state).2) := Prod.ext hflow rfl
  have hseq : whole.apply state = _ := congrArg (Run.apply · state) hwhole
  rw [followedBy, bind_apply, hfirst] at hseq
  refine ⟨flow, _, hfirst, ?_, ?_⟩ <;> rintro rfl <;> exact hseq

/-- The policy that a line leaves is the one from which the lines after it start. -/
theorem inForce_cons (policy : Policy) (line : Line) (passed : List Line) :
    inForce policy (line :: passed) = inForce (line.onError?.getD policy) passed := by
  unfold inForce
  rw [List.filterMap_cons]
  cases line.onError? with
  | none => rfl
  | some set => rw [List.getLast?_cons, Option.getD_some, Option.getD_some]

namespace Validation

variable {limits : Limits} {lines : List Line} {start stop : Nat}

/-! ## Lines at the level of a range -/

/-- The lines of a range that stand at the level at which it begins, in their order: those that open no
block, and the openers of its blocks. -/
def ownLines (limits : Limits) (lines : List Line) (start stop : Nat) : List Line :=
  (List.range' start (stop - start)).filterMap fun position =>
    if depthAt limits lines position = depthAt limits lines start then lines[position]? else none

theorem ownLines_self (limits : Limits) (lines : List Line) (start : Nat) :
    ownLines limits lines start start = [] := by
  rw [ownLines, Nat.sub_self]
  rfl

/-- After the first line of a range, its next line at the same level is the one before which no block is
open again. -/
theorem ownLines_eq_cons {line : Line} {next : Nat} (hline : lines[start]? = some line)
    (hstart : start < next) (hnext : next ≤ stop)
    (hsame : depthAt limits lines next = depthAt limits lines start)
    (hinside : ∀ position, start < position → position < next →
      depthAt limits lines position ≠ depthAt limits lines start) :
    ownLines limits lines start stop = line :: ownLines limits lines next stop := by
  have hsplit : List.range' start (stop - start) =
      start :: (List.range' (start + 1) (next - (start + 1)) ++ List.range' next (stop - next)) := by
    have hfirst : stop - start = (next - (start + 1) + (stop - next)) + 1 := by omega
    have hsecond : next = start + 1 + (next - (start + 1)) := by omega
    rw [hfirst, List.range'_succ, ← List.range'_append_1, ← hsecond]
  have hnone : (List.range' (start + 1) (next - (start + 1))).filterMap (fun position =>
      if depthAt limits lines position = depthAt limits lines start then lines[position]?
      else none) = [] := by
    refine List.filterMap_eq_nil_iff.2 fun position hposition => if_neg ?_
    obtain ⟨hbefore, hafter⟩ := List.mem_range'_1.1 hposition
    exact hinside position hbefore (by omega)
  rw [ownLines, hsplit, List.filterMap_cons, if_pos rfl, hline, List.filterMap_append, hnone,
    List.nil_append, ownLines, hsame]

/-! ## Induction on level ranges -/

/-- At the start of a level range a block is opened. It ends inside the range, and it is found with the
end of the range as a bound and with every later one. -/
structure Stands (limits : Limits) (lines : List Line) (line : Line) (opening : Opening)
    (span : Span) (stop : Nat) : Prop where
  opener : lines[span.opener]? = some line
  opening : Directive.opening? line = some opening
  delimits : Delimits limits lines span
  terminator_lt : span.terminator < stop
  find : ∀ bound, stop ≤ bound → Span.find lines span.opener bound = .ok span

/-- What holds of empty ranges, and of a level range if it holds of the segments of the block that it
begins with and of what is left of it after its first line or block, holds of every level range. -/
theorem Level.range_induction (h : Accepts limits [] lines) {motive : Nat → Nat → Prop}
    (empty : ∀ position, motive position position)
    (line : ∀ start stop line, Level limits lines start stop → start < stop →
      lines[start]? = some line → Directive.opening? line = none →
      Level limits lines (start + 1) stop → motive (start + 1) stop → motive start stop)
    (block : ∀ line opening span stop, Stands limits lines line opening span stop →
      motive (span.opener + 1) (span.segmentEnd span.opener) →
      (∀ marker ∈ span.branches, motive (marker + 1) (span.segmentEnd marker)) →
      motive (span.terminator + 1) stop → motive span.opener stop)
    (hlevel : Level limits lines start stop) : motive start stop := by
  -- The segments of a block and the lines after it are shorter than the range.
  induction hsize : stop - start using Nat.strongRecOn generalizing start stop with
  | ind size ih =>
  rcases Nat.eq_or_lt_of_le hlevel.start_le with rfl | hstart
  · exact empty start
  · have hlength := Nat.lt_of_lt_of_le hstart hlevel.stop_le
    have hline : lines[start]? = some lines[start] := List.getElem?_eq_getElem hlength
    cases hopening : Directive.opening? lines[start] with
    | none =>
      have hrest : Level limits lines (start + 1) stop := by
        refine hlevel.next h hstart hline fun kind hkind => ?_
        obtain ⟨opening, hopens, -⟩ :=
          (readable_of_accepts h).exists_opening? (List.mem_of_getElem? hline) hkind
        rw [hopening] at hopens
        cases hopens
      exact line start stop _ hlevel hstart hline hopening hrest (ih _ (by omega) hrest rfl)
    | some opening =>
      have hrole := (roleAt_eq hline).trans (congrArg some (Directive.role_of_opening? hopening))
      obtain ⟨span, rfl, hterminator, hspan, hfind⟩ :=
        hlevel.exists_find h (Nat.le_refl _) hstart hrole
      have hopener := hspan.opener_lt
      refine block _ _ span stop ⟨hline, hopening, hspan, hterminator, hfind⟩ ?_
        (fun marker hmarker => ?_) ?_
      · have hbounds := hspan.segmentEnd_bounds hopener
        exact ih _ (by omega) (h.level_segment hspan (.inl rfl)) rfl
      · obtain ⟨hbefore, hafter, -⟩ := hspan.mem_branches_iff.1 hmarker
        have hbounds := hspan.segmentEnd_bounds hafter
        exact ih _ (by omega) (h.level_segment hspan (.inr hmarker)) rfl
      · exact ih _ (by omega) (hlevel.rest hspan hterminator) rfl

end Validation

namespace Interpreter

open Run Validation

variable (interpreter : Interpreter σ) {limits : Limits} {lines : List Line} {start middle stop : Nat}

/-! ## Running level ranges -/

/-- A level range of accepted lines is run to an end. -/
theorem succeeds_level (h : Accepts limits [] lines) (hlevel : Level limits lines start stop) :
    BodySucceeds (interpreter.runRange lines start stop) := by
  refine hlevel.range_induction h
    (motive := fun start stop => BodySucceeds (interpreter.runRange lines start stop)) ?_ ?_ ?_
  · intro position policy
    rw [interpreter.runRange_of_le (Nat.le_refl _)]
    exact succeeds_pure _
  · intro start stop line _ hstart hline hopening _ ih policy
    have hreads := readable_of_accepts h line (List.mem_of_getElem? hline)
    rw [interpreter.runRange_of_opening?_eq_none hline hstart hopening]
    refine (interpreter.succeeds_step policy hreads).bind fun next => ?_
    cases next with
    | none => exact succeeds_pure _
    | some next => exact ih next
  · intro line opening span stop hstands hbody hparts hrest policy
    have hopener := Nat.lt_trans hstands.delimits.opener_lt hstands.terminator_lt
    rw [interpreter.runRange_of_find_eq_ok hstands.opener hopener hstands.opening
      (hstands.find stop (Nat.le_refl _))]
    refine (interpreter.succeeds_block line opening hbody ?_ ?_ policy).bind fun flow => ?_
    · intro part hpart
      obtain ⟨marker, hmarker, hline, -⟩ := interpreter.exists_of_mem_segments hpart
      obtain ⟨found, directive, hfound, reads⟩ := h.reads_marker hstands.delimits hmarker
      obtain rfl : found = part.1 := Option.some.inj (hfound.symm.trans hline)
      exact ⟨directive, reads⟩
    · intro part hpart
      obtain ⟨marker, hmarker, -, hrun⟩ := interpreter.exists_of_mem_segments hpart
      exact hrun ▸ hparts marker hmarker
    · cases flow with
      | completed => exact hrest policy
      | stopped => exact succeeds_pure _

/-- A range goes on after a level range in front of it, under the policy that is in force there. -/
theorem runRange_eq_followedBy (h : Accepts limits [] lines)
    (hlevel : Level limits lines start middle) (hstop : middle ≤ stop) (policy : Policy) :
    interpreter.runRange lines start stop policy =
      (interpreter.runRange lines start middle policy).followedBy
        (interpreter.runRange lines middle stop
          (inForce policy (ownLines limits lines start middle))) := by
  revert policy hstop
  refine hlevel.range_induction h (motive := fun start middle => middle ≤ stop → ∀ policy,
    interpreter.runRange lines start stop policy =
      (interpreter.runRange lines start middle policy).followedBy
        (interpreter.runRange lines middle stop
          (inForce policy (ownLines limits lines start middle)))) ?_ ?_ ?_
  · intro position _ policy
    rw [ownLines_self, interpreter.runRange_of_le (Nat.le_refl _), completed_followedBy]
    rfl
  · intro start middle line hlevel hstart hline hopening hrest ih hstop policy
    have hfirst : interpreter.Turn lines middle start line (interpreter.runLine line) (start + 1) :=
      .line hstart hline hopening
    have hwhole : interpreter.Turn lines stop start line (interpreter.runLine line) (start + 1) :=
      .line (Nat.lt_of_lt_of_le hstart hstop) hline hopening
    have hown := ownLines_eq_cons hline (Nat.lt_succ_self start) hstart
      (hrest.same.symm.trans hlevel.same) fun position hbefore hafter => by omega
    rw [hwhole.runRange_eq, hfirst.runRange_eq, ih hstop, hown, inForce_cons, followedBy_assoc]
  · intro line opening span middle hstands _ _ ih hstop policy
    have hopener := Nat.lt_trans hstands.delimits.opener_lt hstands.terminator_lt
    -- The block is found with either bound, and the runs of its segments do not depend on the bound.
    have hfirst : interpreter.Turn lines middle _ _ _ _ :=
      .block hopener hstands.opener hstands.opening (hstands.find middle (Nat.le_refl _))
    have hwhole : interpreter.Turn lines stop _ _ _ _ :=
      .block (Nat.lt_of_lt_of_le hopener hstop) hstands.opener hstands.opening
        (hstands.find stop hstop)
    have hown := ownLines_eq_cons hstands.opener (Nat.lt_succ_of_lt hstands.delimits.opener_lt)
      hstands.terminator_lt hstands.delimits.depthAt_succ fun position hbefore hafter =>
        Nat.ne_of_gt (hstands.delimits.depthAt_lt hbefore (Nat.le_of_lt_succ hafter))
    rw [hwhole.runRange_eq, hfirst.runRange_eq, ih hstop, hown, inForce_cons, followedBy_assoc]

/-- Behind the last line all ends of a range are the same. -/
theorem runRange_of_length_le (hstop : lines.length ≤ stop) :
    interpreter.runRange lines start stop = interpreter.runRange lines start lines.length := by
  unfold runRange
  rw [List.take_of_length_le hstop, List.take_length]

end Interpreter

/-! ## Accepted scripts -/

namespace Script

open Validation Interpreter

/-- In an accepted script, let a range be cut at a place at which no block is open that was not open at
its start, while those that were open there are open all the way up to the place. The part before the place
is run to an end. If it is stopped, the range is stopped in the same state, and if it completes, the range
goes on as the part after the place does, under the policy that the last `@onerror` has set among
the lines that stand at the level of the range before the place. -/
theorem runRange_composes {script : Script} {limits : Limits} {warnings : List Diagnostic}
    (h : script.ensureValid limits = .ok warnings) {start middle stop : Nat}
    (hstart : start ≤ middle) (hstop : middle ≤ stop)
    (hsame : depthAt limits script.lines middle = depthAt limits script.lines start)
    (habove : ∀ position, start ≤ position → position ≤ middle →
      depthAt limits script.lines start ≤ depthAt limits script.lines position)
    (interpreter : Interpreter σ) (policy : Policy) (state : State σ) :
    ∃ flow between,
      (interpreter.runRange script.lines start middle policy).apply state = (.ok flow, between) ∧
      (flow = .stopped →
        (interpreter.runRange script.lines start stop policy).apply state = (.ok .stopped, between)) ∧
      (flow = .completed →
        (interpreter.runRange script.lines start stop policy).apply state =
          (interpreter.runRange script.lines middle stop
            (inForce policy (ownLines limits script.lines start middle))).apply between) := by
  have haccepts := accepts_of_ensureValid h
  rcases Nat.le_total middle script.lines.length with hmiddle | hmiddle
  · have hlevel : Level limits script.lines start middle := ⟨hstart, hmiddle, hsame, habove⟩
    exact (interpreter.succeeds_level haccepts hlevel policy).exists_of_eq_followedBy
      (interpreter.runRange_eq_followedBy haccepts hlevel hstop policy) state
  · -- All lines stand before the place, and there is nothing to go on with.
    have hsucceeds : BodySucceeds (interpreter.runRange script.lines start middle) := by
      rw [interpreter.runRange_of_length_le hmiddle]
      rcases Nat.le_total start script.lines.length with hlength | hlength
      · have hend : depthAt limits script.lines middle =
            depthAt limits script.lines script.lines.length := by
          rw [depthAt, depthAt, openAt, openAt, List.take_of_length_le hmiddle, List.take_length]
        exact interpreter.succeeds_level haccepts ⟨hlength, Nat.le_refl _, hend.symm.trans hsame,
          fun position hbefore hafter => habove position hbefore (Nat.le_trans hafter hmiddle)⟩
      · intro policy
        rw [interpreter.runRange_of_le hlength]
        exact Run.succeeds_pure _
    refine (hsucceeds policy).exists_of_eq_followedBy ?_ state
    rw [runRange_at_end interpreter (.inr hmiddle), Run.followedBy_completed,
      interpreter.runRange_of_length_le (Nat.le_trans hmiddle hstop),
      interpreter.runRange_of_length_le hmiddle]

/-- Before its last two lines nothing is open in the script, and there the policy is that of its first
line: what its block sets counts in the block only. -/
theorem runRange_composes_sample :
    scoped.ensureValid {} = .ok [] ∧
      ∃ between, (Interpreter.sample.runRange scoped.lines 0 6 .continue).apply State.sample =
          (.ok .completed, between) ∧
        (Interpreter.sample.runRange scoped.lines 0 8 .continue).apply State.sample =
          (Interpreter.sample.runRange scoped.lines 6 8 .abort).apply between := by
  have hvalid : scoped.ensureValid {} = .ok [] := ensureValid_of_nil (by decide +kernel)
  have hforce : inForce .continue (ownLines {} scoped.lines 0 6) = .abort := by decide +kernel
  obtain ⟨after, hrun, -⟩ : ∃ after, (Interpreter.sample.run ((scoped.lines.take 6).drop 0)
      .continue).apply State.sample = (.ok .completed, after) ∧ after.uncaught = 0 :=
    apply_run_of_ofLines? State.uncaught (by decide +kernel)
  obtain ⟨flow, between, hfirst, -, hcompleted⟩ :=
    runRange_composes hvalid (Nat.zero_le 6) (show 6 ≤ 8 by decide)
      (by decide +kernel) (fun _ _ _ => Nat.zero_le _) Interpreter.sample .continue State.sample
  obtain rfl : flow = .completed :=
    Except.ok.inj (congrArg Prod.fst (hfirst.symm.trans hrun))
  rw [hforce] at hcompleted
  exact ⟨hvalid, between, hfirst, hcompleted rfl⟩

end Script

end BatchScript
