import BatchScript.Proofs.Block.Coherence
import BatchScript.Proofs.Execution.Attempts
import BatchScript.Proofs.Execution.Bookkeeping

/-!
# The order of results

Without loops a run only goes forward: from a conditional it runs one segment at most, and from an
attempt its segments in the order in which they stand, since a `@catch` stands before a `@finally`. So
the results of a run of accepted lines come in the order of their lines (`keeps_rising`), and no line
has more than one.
-/

namespace BatchScript

variable {σ : Type}

/-! ## Rising results -/

/-- Results of lines from one position on and before another one, in the order of the lines. -/
structure Rising (start stop : Nat) (results : List LineResult) : Prop where
  placed : ∀ result ∈ results, start ≤ result.position ∧ result.position < stop
  ordered : results.Pairwise (·.line < ·.line)

namespace Rising

variable {start stop middle : Nat} {first last results : List LineResult}

theorem nil : Rising start stop [] :=
  ⟨nofun, .nil⟩

theorem mono {start' stop' : Nat} (h : Rising start stop results) (hstart : start' ≤ start)
    (hstop : stop ≤ stop') : Rising start' stop' results where
  placed result hmem :=
    ⟨Nat.le_trans hstart (h.placed result hmem).1, Nat.lt_of_lt_of_le (h.placed result hmem).2 hstop⟩
  ordered := h.ordered

/-- Results of later lines have larger numbers. -/
theorem line_lt {result other : LineResult} (hbefore : result.position < middle)
    (hafter : middle ≤ other.position) : result.line < other.line := by
  unfold LineResult.position at hbefore hafter
  omega

theorem append (h : Rising start middle first) (h' : Rising middle stop last)
    (hstart : start ≤ middle) (hstop : middle ≤ stop) : Rising start stop (first ++ last) where
  placed := List.forall_mem_append.2
    ⟨(h.mono (Nat.le_refl _) hstop).placed, (h'.mono hstart (Nat.le_refl _)).placed⟩
  ordered := List.pairwise_append.2 ⟨h.ordered, h'.ordered, fun result hmem other hother =>
    line_lt (h.placed result hmem).2 (h'.placed other hother).1⟩

/-- Runs of ranges that stand one after the other. -/
theorem flatMap {activations : List (Activation σ)} {record : Activation σ → List LineResult}
    (hranges : activations.Pairwise (·.stop ≤ ·.start))
    (hbounds : ∀ activation ∈ activations, start ≤ activation.start ∧ activation.stop ≤ stop)
    (h : ∀ activation ∈ activations, Rising activation.start activation.stop (record activation)) :
    Rising start stop (activations.flatMap record) where
  placed result hmem := by
    obtain ⟨activation, hactivation, hresult⟩ := List.mem_flatMap.1 hmem
    obtain ⟨hstart, hstop⟩ := hbounds activation hactivation
    exact ((h activation hactivation).mono hstart hstop).placed result hresult
  ordered := by
    refine List.pairwise_flatMap.2 ⟨fun activation hmem => (h activation hmem).ordered, ?_⟩
    refine hranges.imp_of_mem fun hfirst hlast hle result hresult other hother => ?_
    have hbefore := ((h _ hfirst).placed result hresult).2
    have hafter := ((h _ hlast).placed other hother).1
    exact line_lt (Nat.lt_of_lt_of_le hbefore hle) hafter

end Rising

/-- New results are rising. -/
def Promise.rising (start stop : Nat) : Promise σ :=
  fun new _ _ _ => Rising start stop new

theorem Promise.rising_of_single {lines : List Line} (hnumbered : Numbered lines) {position : Nat}
    {line : Line} (hline : lines[position]? = some line) {policy : Policy}
    {new : List LineResult} {before after : State σ} {outcome : Except Failure Flow}
    (h : single line policy new before outcome after) :
    rising position (position + 1) new before outcome after where
  placed := placed_of_single hnumbered hline h
  ordered := by
    obtain ⟨htallies, -⟩ := h
    match new, htallies.atMostOne with
    | [], _ => exact .nil
    | [_], _ => exact List.pairwise_singleton _ _

/-- What a run of a range promises is promised of what it records. -/
theorem Run.Keeps.recorded {interpreter : Interpreter σ} {lines : List Line} {promise : Promise σ}
    {start stop : Nat} {policy : Policy}
    (h : (interpreter.runRange lines start stop policy).Keeps promise) (state : State σ) :
    promise (interpreter.recorded lines ⟨start, stop, policy, state⟩) state
      (interpreter.outcome lines ⟨start, stop, policy, state⟩)
      (interpreter.ended lines ⟨start, stop, policy, state⟩) := by
  obtain ⟨new, hrecords, hpromise⟩ := h state
  obtain rfl := hrecords.unique (interpreter.records_recorded lines ⟨start, stop, policy, state⟩)
  exact hpromise

/-! ## Attempts -/

namespace Validation

variable {limits : Limits} {lines : List Line} {line : Line} {span : Span} {stop : Nat}

/-- The `@catch` of an attempt stands before its `@finally`. -/
theorem Delimits.catch_lt_finally (hspan : Delimits limits lines span) (h : Accepts limits [] lines)
    (hkind : span.kind = .attempt) {first last : Nat}
    (hcatch : span.branch? lines .catch = some first)
    (hfinally : span.branch? lines .finally = some last) : first < last := by
  -- No `@finally` stands before a `@catch`.
  let backward (before after : Option Role) : Prop :=
    before = some (.divides .finally) ∧ after = some (.divides .catch)
  obtain ⟨branches, hadmits, hroles⟩ := hspan.exists_admits h
  rw [hkind] at hadmits
  have hforward : branches.Pairwise fun before after =>
      ¬ backward (some (.divides before)) (some (.divides after)) :=
    List.Pairwise.sublist hadmits (by simp [backward])
  have hmarkers : span.branches.Pairwise fun before after =>
      ¬ backward (roleAt lines before) (roleAt lines after) := by
    rw [← List.pairwise_map (R := fun before after => ¬ backward before after), hroles,
      List.pairwise_map]
    exact hforward
  have hfirst := Span.roleAt_of_branch? hcatch
  have hlast := Span.roleAt_of_branch? hfinally
  obtain ⟨i, hi, rfl⟩ := List.getElem_of_mem (Span.mem_branches_of_branch? hcatch)
  obtain ⟨j, hj, rfl⟩ := List.getElem_of_mem (Span.mem_branches_of_branch? hfinally)
  rcases Nat.lt_trichotomy i j with hlt | rfl | hgt
  · exact List.pairwise_iff_getElem.1 hspan.closing.sorted i j hi hj hlt
  · cases hfirst.symm.trans hlast
  · exact absurd ⟨hlast, hfirst⟩ (List.pairwise_iff_getElem.1 hmarkers j i hj hi hgt)

end Validation

namespace Interpreter

open Validation

variable {interpreter : Interpreter σ} {limits : Limits} {lines : List Line} {line : Line}
  {span : Span} {start stop : Nat} {policy : Policy} {state : State σ}

theorem mem_handlerRun? {needed : Bool} {handler? : Option Nat} {run : Activation σ} :
    run ∈ (handlerRun? span policy state needed handler?).toList ↔
      needed = true ∧ ∃ marker, handler? = some marker ∧ run = span.activation marker policy state := by
  cases needed <;> cases handler? <;> simp [handlerRun?]

/-- An attempt runs its body under `continue`, and its other segments under the policy of the attempt. -/
theorem exists_marker_of_mem_attemptRuns {run : Activation σ}
    (h : run ∈ interpreter.attemptRuns lines span policy state) :
    ∃ marker inner first, run = span.activation marker inner first ∧
      ((marker = span.opener ∧ inner = .continue) ∨ (marker ∈ span.branches ∧ inner = policy)) := by
  rcases List.mem_cons.1 h with rfl | h
  · exact ⟨_, _, _, rfl, .inl ⟨rfl, rfl⟩⟩
  · have hbranch : ∀ branch needed first,
        run ∈ (handlerRun? span policy first needed (span.branch? lines branch)).toList →
        ∃ marker inner first, run = span.activation marker inner first ∧
          ((marker = span.opener ∧ inner = .continue) ∨
            (marker ∈ span.branches ∧ inner = policy)) := by
      intro branch needed first hmem
      obtain ⟨-, marker, hmarker, rfl⟩ := mem_handlerRun?.1 hmem
      exact ⟨marker, policy, first, rfl, .inr ⟨Span.mem_branches_of_branch? hmarker, rfl⟩⟩
    exact (List.mem_append.1 h).elim (hbranch _ _ _) (hbranch _ _ _)

end Interpreter

namespace Validation.Begins

open Interpreter

variable {limits : Limits} {lines : List Line} {line : Line} {span : Span} {stop : Nat}
  (hbegins : Begins limits lines line .attempt span stop) (h : Accepts limits [] lines)
  (interpreter : Interpreter σ) (policy : Policy) (state : State σ)

include hbegins h

/-- The segments of an attempt are run in the order in which they stand. -/
theorem pairwise_attemptRuns :
    (interpreter.attemptRuns lines span policy state).Pairwise (·.stop ≤ ·.start) := by
  have hspan := hbegins.delimits
  have hend : ∀ marker other inner inner' (first first' : State σ), marker < other →
      other ∈ span.branches →
      (span.activation marker inner first).stop ≤ (span.activation other inner' first').start :=
    fun marker other _ _ _ _ hlt hother =>
      Nat.le_succ_of_le (Span.segmentEnd_le hspan.closing.sorted hlt hother)
  have hoption : ∀ option : Option (Activation σ), option.toList.Pairwise (·.stop ≤ ·.start) := by
    intro option
    cases option <;> simp
  refine List.pairwise_cons.2 ⟨fun run hrun => ?_,
    List.pairwise_append.2 ⟨hoption _, hoption _, fun first hfirst last hlast => ?_⟩⟩
  · have hbranch : ∀ branch needed first,
        run ∈ (handlerRun? span policy first needed (span.branch? lines branch)).toList →
        (bodyRun lines span state).stop ≤ run.start := by
      intro branch needed first hmem
      obtain ⟨-, marker, hmarker, rfl⟩ := mem_handlerRun?.1 hmem
      have hmem := Span.mem_branches_of_branch? hmarker
      exact hend _ _ _ _ _ _ (hspan.mem_branches_iff.1 hmem).1 hmem
    exact (List.mem_append.1 hrun).elim (hbranch _ _ _) (hbranch _ _ _)
  · obtain ⟨-, marker, hcatch, rfl⟩ := mem_handlerRun?.1 hfirst
    obtain ⟨-, other, hfinally, rfl⟩ := mem_handlerRun?.1 hlast
    exact hend _ _ _ _ _ _ (hspan.catch_lt_finally h hbegins.kind_eq hcatch hfinally)
      (Span.mem_branches_of_branch? hfinally)

/-- What an attempt records is rising, if its segments are. -/
theorem keeps_rising_attempt
    (hbody : (interpreter.runRange lines (span.opener + 1) (span.segmentEnd span.opener)
      .continue).Keeps (.rising (span.opener + 1) (span.segmentEnd span.opener)))
    (hparts : ∀ marker ∈ span.branches,
      (interpreter.runRange lines (marker + 1) (span.segmentEnd marker) policy).Keeps
        (.rising (marker + 1) (span.segmentEnd marker))) :
    (interpreter.blockOn lines span.opener span line .attempt policy).Keeps
      (.rising (span.opener + 1) span.terminator) := by
  intro state
  obtain ⟨flow, hattempts⟩ := hbegins.exists_attempts h interpreter policy state
  have hplaced := hbegins.keeps_placed_attempt interpreter (hbody.mono Rising.placed)
    fun marker hmarker => (hparts marker hmarker).mono Rising.placed
  obtain ⟨new, hrecords, -⟩ := hplaced state
  refine ⟨new, hrecords, ?_⟩
  have hafter : ((interpreter.blockOn lines span.opener span line .attempt policy).apply state).2 =
      interpreter.afterFinally lines span policy state := congrArg Prod.snd hattempts.runs
  have hresults := hrecords.results
  have hnew : (interpreter.attemptRuns lines span policy state).flatMap (interpreter.recorded lines) =
      new := List.append_cancel_left (hattempts.results.symm.trans (hafter ▸ hresults))
  rw [← hnew]
  refine Rising.flatMap (hbegins.pairwise_attemptRuns h interpreter policy state) ?_ ?_
  · intro run hrun
    obtain ⟨marker, inner, first, rfl, hmarker⟩ := exists_marker_of_mem_attemptRuns hrun
    have hsegment := Span.segment_bounds hbegins.find (hmarker.imp And.left And.left)
    exact ⟨Nat.succ_le_succ hsegment.1, hsegment.2.2⟩
  · intro run hrun
    obtain ⟨marker, inner, first, rfl, ⟨rfl, rfl⟩ | ⟨hmarker, rfl⟩⟩ :=
      exists_marker_of_mem_attemptRuns hrun
    · exact hbody.recorded first
    · exact (hparts marker hmarker).recorded first

omit hbegins h in
/-- What a conditional records is rising, if its segments are: it runs one of them at most, or is
refused because of one line. -/
theorem keeps_rising_conditional {condition : String}
    (hbegins : Begins limits lines line (.conditional condition) span stop)
    (hnumbered : Numbered lines)
    (hbody : (interpreter.runRange lines (span.opener + 1) (span.segmentEnd span.opener)
      policy).Keeps (.rising (span.opener + 1) (span.segmentEnd span.opener)))
    (hparts : ∀ marker ∈ span.branches,
      (interpreter.runRange lines (marker + 1) (span.segmentEnd marker) policy).Keeps
        (.rising (marker + 1) (span.segmentEnd marker))) :
    (interpreter.blockOn lines span.opener span line (.conditional condition) policy).Keeps
      (.rising span.opener span.terminator) := by
  have hbounds := hbegins.delimits.segmentEnd_bounds hbegins.delimits.opener_lt
  have hrefused : ∀ position refused, lines[position]? = some refused →
      span.opener ≤ position → position < span.terminator → ∀ failure,
      (interpreter.failBlock refused failure policy).Keeps (.rising span.opener span.terminator) :=
    fun position refused hline hbefore hafter failure =>
      (interpreter.keeps_failBlock refused policy failure).mono fun hsingle =>
        (Promise.rising_of_single hnumbered hline hsingle).mono hbefore hafter
  have hmarker : ∀ part ∈ interpreter.segments lines span, ∃ marker ∈ span.branches,
      lines[marker]? = some part.1 ∧ span.opener < marker ∧ marker < span.terminator ∧
      interpreter.runRange lines (marker + 1) (span.segmentEnd marker) = part.2 := by
    intro part hpart
    obtain ⟨marker, hmarker, hline, hrun⟩ := interpreter.exists_of_mem_segments hpart
    obtain ⟨hbefore, hafter, -⟩ := hbegins.delimits.mem_branches_iff.1 hmarker
    exact ⟨marker, hmarker, hline, hbefore, hafter, hrun⟩
  refine Promise.Lawful.keeps_branch
    (hrefused _ line hbegins.opener (Nat.le_refl _) hbegins.delimits.opener_lt)
    ((hbody.mono (Rising.mono · (Nat.le_succ _) hbounds.2.1)).within id)
    (Promise.Lawful.keeps_chooseMarker (fun state => ⟨[], .refl state, .nil⟩)
      (fun _ state => ⟨[], .refl state, .nil⟩) ?_ ?_)
  · intro part hpart
    obtain ⟨marker, -, hline, hbefore, hafter, -⟩ := hmarker part hpart
    exact hrefused marker part.1 hline (Nat.le_of_lt hbefore) hafter
  · intro part hpart
    obtain ⟨marker, hmem, -, hbefore, hafter, hrun⟩ := hmarker part hpart
    have hend := hbegins.delimits.segmentEnd_bounds hafter
    have hrising : (interpreter.runRange lines (marker + 1) (span.segmentEnd marker) policy).Keeps
        (.rising span.opener span.terminator) :=
      (hparts marker hmem).mono (Rising.mono · (by omega) hend.2.1)
    exact (hrun ▸ hrising).within id

end Validation.Begins

/-! ## Ranges -/

/-- No line opens a loop. -/
def LoopFree (lines : List Line) : Prop :=
  ∀ line ∈ lines, line.role ≠ .opens .foreach ∧ line.role ≠ .opens .loop

namespace Interpreter

open Validation

variable (interpreter : Interpreter σ) {limits : Limits} {lines : List Line} {start stop : Nat}

theorem keeps_rising_followedBy {run rest : Run σ Flow} {middle : Nat}
    (h : run.Keeps (.rising start middle)) (h' : rest.Keeps (.rising middle stop))
    (hstart : start ≤ middle) (hstop : middle ≤ stop) :
    (run.followedBy rest).Keeps (.rising start stop) :=
  h.followedBy h' (fun _ hrising => hrising.mono (Nat.le_refl _) hstop)
    fun _ _ hfirst hlast => hfirst.append hlast hstart hstop

/-- Without loops the results of a range come in the order of its lines. -/
theorem keeps_rising (h : Accepts limits [] lines) (hnumbered : Numbered lines)
    (hloops : LoopFree lines) (hentered : Entered lines start stop) (policy : Policy) :
    (interpreter.runRange lines start stop policy).Keeps (.rising start stop) := by
  refine h.range_induction (motive := fun start stop => ∀ policy,
    (interpreter.runRange lines start stop policy).Keeps (.rising start stop)) ?_ ?_ ?_ hentered
    policy
  · intro start stop hend policy
    rw [interpreter.runRange_of_le hend]
    exact fun state => ⟨[], .refl state, .nil⟩
  · intro start stop line hentered hstart hline hopening hrest policy
    rw [(Turn.line hstart hline hopening).runRange_eq]
    exact keeps_rising_followedBy ((interpreter.keeps_runLine line policy).mono
      (Promise.rising_of_single hnumbered hline)) (hrest _) (Nat.le_succ _) hstart
  · intro line opening span stop hbegins hbody hparts hrest policy
    have hopener := hbegins.delimits.opener_lt
    have hrole := Directive.role_of_opening? hbegins.opening
    obtain ⟨hforeach, hloop⟩ := hloops line (List.mem_of_getElem? hbegins.opener)
    have hblock : (interpreter.blockOn lines span.opener span line opening policy).Keeps
        (.rising span.opener span.terminator) := by
      cases opening with
      | conditional condition =>
        exact hbegins.keeps_rising_conditional interpreter policy hnumbered (hbody policy)
          fun marker hmarker => hparts marker hmarker policy
      | foreach => exact absurd hrole hforeach
      | loop => exact absurd hrole hloop
      | attempt =>
        exact (hbegins.keeps_rising_attempt h interpreter policy (hbody .continue)
          fun marker hmarker => hparts marker hmarker policy).mono
            (Rising.mono · (Nat.le_succ _) (Nat.le_refl _))
    rw [hbegins.runRange_eq]
    exact keeps_rising_followedBy (hblock.mono (Rising.mono · (Nat.le_refl _) (Nat.le_succ _)))
      (hrest policy) (by omega) hbegins.terminator_lt

end Interpreter

/-! ## Results and calls of a run -/

/-- Where numbers increase strictly, none comes twice. -/
theorem length_filter_le_one {α : Type} {number : α → Nat} {all : List α}
    (h : all.Pairwise (number · < number ·)) (n : Nat) :
    (all.filter (number · = n)).length ≤ 1 := by
  have hfiltered := List.Pairwise.filter (number · = n) h
  have hall : ∀ x ∈ all.filter (number · = n), number x = n :=
    fun x hx => of_decide_eq_true (List.mem_filter.1 hx).2
  match hlist : all.filter (number · = n) with
  | [] => exact Nat.zero_le _
  | [_] => exact Nat.le_refl _
  | first :: second :: rest =>
    rw [hlist] at hfiltered hall
    have hlt := List.rel_of_pairwise_cons hfiltered List.mem_cons_self
    have hfirst := hall first List.mem_cons_self
    have hsecond := hall second (List.mem_cons_of_mem _ List.mem_cons_self)
    omega

/-- How lines are run that a run only goes forward in. The run has a journal, which books its results
and the calls of its dispatcher, visit by visit. The numbers of the results increase strictly, so to no
line belongs more than one result, and in no line is the dispatcher called more than once. -/
structure Interpreter.GoesForward (interpreter : Interpreter σ) (lines : List Line) (policy : Policy)
    (state : State σ) (visits : List (Visit (σ × List Call))) (booked : List (List Event))
    (flow : Flow) (after : State σ) : Prop where
  runs : (interpreter.run lines policy).apply state = (.ok flow, after)
  logged : (interpreter.logged.run lines policy).apply (state.withCalls []) =
    (.ok flow, after.withCalls (Event.calls booked.flatten))
  journal : interpreter.logged.Journal (state.withCalls []) visits
    (after.withCalls (Event.calls booked.flatten))
  lists : interpreter.logged.Lists lines
    [⟨0, lines.length, policy, state.withCalls []⟩] visits
  books : List.Forall₂ interpreter.Books visits booked
  results : after.results.toList = state.results.toList ++ Event.results booked.flatten
  ordered : (Event.results booked.flatten).Pairwise (·.line < ·.line)
  recordedOnce : ∀ number,
    ((Event.results booked.flatten).filter (·.line = number)).length ≤ 1
  dispatchedOnce : ∀ number,
    (Event.calls (booked.flatten.filter (·.result.line = number))).length ≤ 1

namespace Script

/-- A run of an accepted script without loops, as it is read from a text, goes forward, under every
policy, in every state and with every dispatcher. -/
theorem run_goesForward {text : String} {limits : Limits} {warnings : List Diagnostic}
    (h : (parse text).ensureValid limits = .ok warnings) (hloops : LoopFree (parse text).lines)
    (interpreter : Interpreter σ) (policy : Policy) (state : State σ) :
    ∃ visits booked flow after,
      interpreter.GoesForward (parse text).lines policy state visits booked flow after := by
  have haccepts := accepts_of_ensureValid h
  obtain ⟨flow, hflow⟩ := interpreter.succeeds_run haccepts policy state
  rcases hrun : (interpreter.run (parse text).lines policy).apply state with ⟨outcome, after⟩
  obtain rfl : outcome = .ok flow := by simpa [hrun] using hflow
  obtain ⟨events, -, hlogged⟩ := interpreter.logs_run (parse text).lines policy state []
  rw [hrun] at hlogged
  -- The run with a log has a journal, which books what has happened.
  have hended : interpreter.logged.ended (parse text).lines
      ⟨0, (parse text).lines.length, policy, state.withCalls []⟩ =
        after.withCalls (Event.calls events) := by
    unfold Interpreter.ended
    rw [← Interpreter.run_eq_runRange, hlogged]
    rfl
  have hrecounted : interpreter.logged.Recounted (parse text).lines
      [⟨0, (parse text).lines.length, policy, state.withCalls []⟩] _ _ := Interpreter.recounted _
  rw [hended] at hrecounted
  obtain ⟨visits, hlists, hjournal⟩ := hrecounted
  obtain ⟨booked, hbooks, hbooked⟩ := hjournal.exists_booked
  have hcalls : Event.calls events = Event.calls booked.flatten := hbooked.calls
  rw [hcalls] at hlogged hjournal
  -- The results that are booked are those that the run records in order.
  obtain ⟨new, hrecords, hrising⟩ := interpreter.keeps_rising haccepts (numbered_parse text) hloops
    .whole policy state
  rw [← Interpreter.run_eq_runRange, hrun] at hrecords
  obtain rfl : new = Event.results booked.flatten :=
    List.append_cancel_left (hrecords.results.symm.trans hbooked.results)
  have hevents := hrising.ordered
  rw [Event.results, List.pairwise_map] at hevents
  exact ⟨visits, booked, flow, after, {
    runs := hrun
    logged := hlogged
    journal := hjournal
    lists := hlists
    books := hbooks
    results := hrecords.results
    ordered := hrising.ordered
    recordedOnce := length_filter_le_one hrising.ordered
    dispatchedOnce := fun number => Nat.le_trans (List.length_filterMap_le ..)
      (length_filter_le_one hevents number) }⟩

/-- A script that chooses, attempts and cleans up. -/
def forward : String :=
  "@if $mode == fast
build
@elif $mode == full
make
@else
@try
fail
@catch
repair
@finally
clean
@endtry
@endif
deploy"

theorem run_goesForward_sample :
    (parse forward).ensureValid {} = .ok [] ∧ LoopFree (parse forward).lines ∧
      ∃ visits booked flow after, Interpreter.sample.GoesForward (parse forward).lines .abort
        State.sample visits booked flow after := by
  have hvalid : (parse forward).ensureValid {} = .ok [] := ensureValid_of_nil (by decide +kernel)
  have hloops : LoopFree (parse forward).lines := by
    unfold LoopFree
    decide +kernel
  exact ⟨hvalid, hloops, run_goesForward hvalid hloops Interpreter.sample .abort State.sample⟩

end Script

end BatchScript
