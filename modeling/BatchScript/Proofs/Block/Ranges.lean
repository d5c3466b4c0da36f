import BatchScript.Proofs.Block.Nesting
import BatchScript.Proofs.Block.Outline
import BatchScript.Proofs.Block.Slice

/-!
# Ranges that a run comes to

A run of a script goes through ranges of its lines: the whole script first, and from an opener on
the segments of its block and what is left of the range after the block (`Entered`). In accepted
lines every such range begins and ends at the same depth of open blocks and never gets below it
(`Level`), so the end of a range never cuts off a block: whatever is looked up on the way is found
(`Accepts.lookups`).
-/

namespace BatchScript

/-! ## Looking only at the lines before a bound -/

/-- The cut with other lines after the block. -/
def Cut.withRest (cut : Cut) (rest : List Line) : Cut :=
  { cut with rest }

/-- The lines after a block have no influence on its cut. -/
theorem cutBlock_withRest {kind : BlockKind} {depth : Nat} {all : List Line} {cut : Cut}
    (h : cutBlock kind depth all = some cut) (rest : List Line) :
    cutBlock kind depth (cut.withRest rest).lines = some (cut.withRest rest) := by
  fun_induction cutBlock kind depth all generalizing cut with
  | case1 => simp at h
  | case3 line _ hopens hcloses =>
    cases h
    exact cutBlock_cons_of_closes_zero hcloses
  | case2 depth line _ hopens ih =>
    obtain ⟨inner, hinner, rfl⟩ := Option.map_eq_some_iff.1 h
    have hlines := Cut.lines_keep line (inner.withRest rest)
    exact (congrArg _ hlines).trans ((cutBlock_cons_of_opens hopens).trans (congrArg _ (ih hinner)))
  | case4 line _ hopens hcloses outer ih =>
    obtain ⟨inner, hinner, rfl⟩ := Option.map_eq_some_iff.1 h
    have hlines := Cut.lines_keep line (inner.withRest rest)
    exact (congrArg _ hlines).trans
      ((cutBlock_cons_of_closes_succ hcloses).trans (congrArg _ (ih hinner)))
  | case5 depth line _ hopens hcloses hdivides ih =>
    obtain ⟨inner, hinner, rfl⟩ := Option.map_eq_some_iff.1 h
    have hlines := Cut.lines_divide line (inner.withRest rest)
    have hstep : cutBlock kind depth (line :: (inner.withRest rest).lines) =
        (cutBlock kind depth (inner.withRest rest).lines).map (.divide line) := by
      rw [cutBlock.eq_def]
      simp only [if_neg hopens, if_neg hcloses, if_pos hdivides]
    exact (congrArg _ hlines).trans (hstep.trans (congrArg _ (ih hinner)))
  | case6 depth line _ hopens hcloses hdivides ih =>
    obtain ⟨inner, hinner, rfl⟩ := Option.map_eq_some_iff.1 h
    have hlines := Cut.lines_keep line (inner.withRest rest)
    have hstep : cutBlock kind depth (line :: (inner.withRest rest).lines) =
        (cutBlock kind depth (inner.withRest rest).lines).map (.keep line) := by
      rw [cutBlock.eq_def]
      simp only [if_neg hopens, if_neg hcloses, if_neg hdivides]
    exact (congrArg _ hlines).trans (hstep.trans (congrArg _ (ih hinner)))

/-- A slice that ends after the terminator of a block holds the block. -/
theorem exists_withRest_of_slice {lines : List Line} {opener stop : Nat} {cut : Cut}
    (h : slice lines (opener + 1) lines.length = cut.lines) (hstop : opener + 1 + cut.size < stop) :
    ∃ rest, slice lines (opener + 1) stop = (cut.withRest rest).lines := by
  obtain ⟨count, hcount⟩ : ∃ count, stop - (opener + 1) = cut.size + (count + 1) :=
    ⟨stop - (opener + 1) - cut.size - 1, by omega⟩
  have hslice : slice lines (opener + 1) stop = cut.lines.take (stop - (opener + 1)) := by
    rw [← h, slice, slice, List.take_length, List.drop_take]
  refine ⟨cut.rest.take count, ?_⟩
  rw [hslice, hcount, Cut.lines, Cut.size, List.take_length_add_append, List.take_succ_cons]
  rfl

namespace Span

/-- A block is found in a range if its terminator stands before the end of the range. -/
theorem find_of_lt {lines : List Line} {opener stop : Nat} {span : Span}
    (h : find lines opener lines.length = .ok span) (hstop : span.terminator < stop) :
    find lines opener stop = .ok span := by
  cases hline : lines[opener]? with
  | none => simp [find, hline] at h
  | some line =>
    cases hrole : line.role with
    | plain | divides | closes => simp [find, hline, hrole] at h
    | opens kind =>
      rw [find_of_opens hline hrole] at h ⊢
      split at h <;> cases h
      next cut hcut =>
        obtain ⟨rest, hrest⟩ := exists_withRest_of_slice (Cut.lines_cut hcut).symm hstop
        rw [hrest, cutBlock_withRest hcut]
        rfl

/-- Only at an opener a block is found. -/
theorem exists_roleAt_of_find {lines : List Line} {opener stop : Nat} {span : Span}
    (h : find lines opener stop = .ok span) :
    ∃ kind, roleAt lines opener = some (.opens kind) := by
  obtain ⟨line, kind, -, hline, hrole, -⟩ := exists_cut_of_find h
  exact ⟨kind, (roleAt_eq hline).trans (congrArg some hrole)⟩

end Span

/-! ## Ranges of a run -/

/-- A run of a script comes to a range of its lines: from one line to the next, and from an opener
to the segments of its block and to the lines after it. -/
inductive Entered (lines : List Line) : (start stop : Nat) → Prop where
  | whole : Entered lines 0 lines.length
  | next {start stop : Nat} {line : Line} (h : Entered lines start stop) (hstart : start < stop)
      (hline : lines[start]? = some line) (hopening : Directive.opening? line = none) :
      Entered lines (start + 1) stop
  | body {start stop : Nat} {span : Span} (h : Entered lines start stop) (hstart : start < stop)
      (hfind : Span.find lines start stop = .ok span) :
      Entered lines (start + 1) (span.segmentEnd start)
  | part {start stop marker : Nat} {span : Span} (h : Entered lines start stop)
      (hstart : start < stop) (hfind : Span.find lines start stop = .ok span)
      (hmarker : marker ∈ span.branches) : Entered lines (marker + 1) (span.segmentEnd marker)
  | rest {start stop : Nat} {span : Span} (h : Entered lines start stop) (hstart : start < stop)
      (hfind : Span.find lines start stop = .ok span) : Entered lines (span.terminator + 1) stop

namespace Validation

variable {limits : Limits} {lines : List Line} {start stop : Nat}

/-- A range begins and ends with the same number of open blocks, and closes none of them. -/
structure Level (limits : Limits) (lines : List Line) (start stop : Nat) : Prop where
  start_le : start ≤ stop
  stop_le : stop ≤ lines.length
  same : depthAt limits lines stop = depthAt limits lines start
  above : ∀ position, start ≤ position → position ≤ stop →
    depthAt limits lines start ≤ depthAt limits lines position

/-- In a level range the block of an opener is found before the end of the range, and the same with any
later bound. -/
theorem Level.exists_find (hlevel : Level limits lines start stop) (h : Accepts limits [] lines)
    {opener : Nat} (hstart : start ≤ opener) (hstop : opener < stop) {kind : BlockKind}
    (hrole : roleAt lines opener = some (.opens kind)) :
    ∃ span, span.opener = opener ∧ span.terminator < stop ∧ Delimits limits lines span ∧
      ∀ bound, stop ≤ bound → Span.find lines opener bound = .ok span := by
  obtain ⟨span, hfind, rfl, hspan⟩ := h.exists_find hrole
  have hterminator : span.terminator < stop := by
    refine Nat.lt_of_not_le fun hle => ?_
    have habove := hlevel.above span.opener hstart (Nat.le_of_lt hstop)
    have hinside := hspan.depthAt_lt hstop hle
    have hsame := hlevel.same
    omega
  exact ⟨span, rfl, hterminator, hspan, fun bound hbound =>
    Span.find_of_lt hfind (Nat.lt_of_lt_of_le hterminator hbound)⟩

/-- What is found in a level range is a block of the check. -/
theorem Level.delimits_of_find (hlevel : Level limits lines start stop)
    (h : Accepts limits [] lines) (hstart : start < stop) {span : Span}
    (hfind : Span.find lines start stop = .ok span) :
    span.opener = start ∧ span.terminator < stop ∧ Delimits limits lines span := by
  obtain ⟨kind, hrole⟩ := Span.exists_roleAt_of_find hfind
  obtain ⟨found, hopener, hterminator, hspan, hfound⟩ :=
    hlevel.exists_find h (Nat.le_refl _) hstart hrole
  obtain rfl : found = span := Except.ok.inj ((hfound stop (Nat.le_refl _)).symm.trans hfind)
  exact ⟨hopener, hterminator, hspan⟩

namespace Delimits

variable {span : Span}

/-- A segment ends after its marker, at the next one or at the terminator. -/
theorem segmentEnd_bounds (hspan : Delimits limits lines span) {marker : Nat}
    (hafter : marker < span.terminator) :
    marker < span.segmentEnd marker ∧ span.segmentEnd marker ≤ span.terminator ∧
      depthAt limits lines (span.segmentEnd marker) = depthAt limits lines span.opener + 1 := by
  unfold Span.segmentEnd
  cases hfind : span.branches.find? (marker < ·) with
  | none => exact ⟨hafter, Nat.le_refl _, hspan.depthAt_terminator⟩
  | some next =>
    have hfound := List.find?_some hfind
    have hnext := hspan.mem_branches_iff.1 (List.mem_of_find?_eq_some hfind)
    exact ⟨of_decide_eq_true hfound, Nat.le_of_lt hnext.2.1, hnext.2.2.1⟩

/-- The segments of a block are level. -/
theorem level_segment (hspan : Delimits limits lines span) {marker : Nat}
    (hbefore : span.opener ≤ marker) (hafter : marker < span.terminator)
    (hdepth : depthAt limits lines (marker + 1) = depthAt limits lines span.opener + 1) :
    Level limits lines (marker + 1) (span.segmentEnd marker) := by
  obtain ⟨line, hline, -⟩ := exists_of_roleAt hspan.closing.closes
  obtain ⟨hlt, -⟩ := List.getElem?_eq_some_iff.1 hline
  obtain ⟨hstart, hstop, hend⟩ := hspan.segmentEnd_bounds hafter
  refine ⟨hstart, by omega, by omega, fun position hposition hle => ?_⟩
  have := hspan.depthAt_lt (Nat.lt_of_le_of_lt hbefore hposition) (Nat.le_trans hle hstop)
  omega

end Delimits

/-- The segment after the opener or a marker of a block is level. -/
theorem Accepts.level_segment (h : Accepts limits [] lines) {span : Span}
    (hspan : Delimits limits lines span) {marker : Nat}
    (hmarker : marker = span.opener ∨ marker ∈ span.branches) :
    Level limits lines (marker + 1) (span.segmentEnd marker) := by
  rcases hmarker with rfl | hmarker
  · refine hspan.level_segment (Nat.le_refl _) hspan.opener_lt ?_
    rw [depthAt, hspan.pushed]
    rfl
  · obtain ⟨hbefore, hafter, hdepth, branch, hbranch⟩ := hspan.mem_branches_iff.1 hmarker
    obtain ⟨line, hline, hrole⟩ := exists_of_roleAt hbranch
    obtain ⟨-, hlength⟩ := (h.advance hline).length_of_divides hrole
    exact hspan.level_segment (Nat.le_of_lt hbefore) hafter (hlength.trans hdepth)

/-- What is left of a level range after a block is level. -/
theorem Level.rest {span : Span} (hlevel : Level limits lines span.opener stop)
    (hspan : Delimits limits lines span) (hterminator : span.terminator < stop) :
    Level limits lines (span.terminator + 1) stop where
  start_le := hterminator
  stop_le := hlevel.stop_le
  same := hlevel.same.trans hspan.depthAt_succ.symm
  above position hstart hstop := by
    have hopener := hspan.opener_lt
    rw [hspan.depthAt_succ]
    exact hlevel.above position (by omega) hstop

/-- What is left of a level range after a line that opens no block is level. -/
theorem Level.next (hlevel : Level limits lines start stop) (h : Accepts limits [] lines)
    (hstart : start < stop) {line : Line} (hline : lines[start]? = some line)
    (hopens : ∀ kind, line.role ≠ .opens kind) : Level limits lines (start + 1) stop := by
  have habove := hlevel.above (start + 1) (Nat.le_succ _) hstart
  have hbelow : depthAt limits lines (start + 1) ≤ depthAt limits lines start := by
    refine Nat.le_of_not_lt fun hlt => ?_
    obtain ⟨⟨kind, hkind⟩, -⟩ := (h.advance hline).opens_of_length_lt hlt
    exact hopens kind hkind
  have hsame := Nat.le_antisymm hbelow habove
  refine ⟨hstart, hlevel.stop_le, hlevel.same.trans hsame.symm, fun position hposition hstop => ?_⟩
  rw [hsame]
  exact hlevel.above position (Nat.le_of_succ_le hposition) hstop

/-- Every range that a run of accepted lines comes to is level. -/
theorem Accepts.level (h : Accepts limits [] lines) (hentered : Entered lines start stop) :
    Level limits lines start stop := by
  induction hentered with
  | whole =>
    refine ⟨Nat.zero_le _, Nat.le_refl _, ?_, fun _ _ _ => Nat.zero_le _⟩
    rw [depthAt, h.openAt_length]
    rfl
  | @next start stop line _ hstart hline hopening ih =>
    refine ih.next h hstart hline fun kind hkind => ?_
    obtain ⟨opening, hopens, -⟩ :=
      (readable_of_accepts h).exists_opening? (List.mem_of_getElem? hline) hkind
    rw [hopening] at hopens
    cases hopens
  | body _ hstart hfind ih =>
    obtain ⟨rfl, -, hspan⟩ := ih.delimits_of_find h hstart hfind
    exact h.level_segment hspan (.inl rfl)
  | part _ hstart hfind hmarker ih =>
    obtain ⟨rfl, -, hspan⟩ := ih.delimits_of_find h hstart hfind
    exact h.level_segment hspan (.inr hmarker)
  | rest _ hstart hfind ih =>
    obtain ⟨rfl, hterminator, hspan⟩ := ih.delimits_of_find h hstart hfind
    exact ih.rest hspan hterminator

/-- No more blocks are open than may be nested. -/
theorem Accepts.depthAt_le (h : Accepts limits [] lines) {position : Nat}
    (hposition : position ≤ lines.length) :
    depthAt limits lines position ≤ limits.maxNestingDepth := by
  induction position with
  | zero => exact Nat.zero_le _
  | succ position ih =>
    have hline : lines[position]? = some lines[position] := List.getElem?_eq_getElem hposition
    exact (h.advance hline).length_le (ih (Nat.le_of_succ_le hposition))

/-- The markers of a block can be read. -/
theorem Accepts.reads_marker (h : Accepts limits [] lines) {span : Span}
    (hspan : Delimits limits lines span) {marker : Nat} (hmarker : marker ∈ span.branches) :
    ∃ line directive, lines[marker]? = some line ∧ Directive.ofLine line = .ok directive := by
  obtain ⟨-, -, -, branch, hbranch⟩ := hspan.mem_branches_iff.1 hmarker
  obtain ⟨line, hline, hrole⟩ := exists_of_roleAt hbranch
  obtain ⟨directive, reads, -⟩ :=
    (readable_of_accepts h).exists_ofLine (List.mem_of_getElem? hline) (by simp [hrole])
  exact ⟨line, directive, hline, reads⟩

/-- What a run looks up at the start of a range is there: a directive line can be read, and from an
opener the block is found before the end of the range, with markers that can be read. -/
structure Lookups (lines : List Line) (start stop : Nat) : Prop where
  reads : ∀ line, lines[start]? = some line → line.keyword?.isSome →
    ∃ directive, Directive.ofLine line = .ok directive
  finds : ∀ kind, roleAt lines start = some (.opens kind) →
    ∃ span, Span.find lines start stop = .ok span ∧
      ∀ marker ∈ span.branches, ∃ line directive, lines[marker]? = some line ∧
        Directive.ofLine line = .ok directive

theorem Accepts.lookups (h : Accepts limits [] lines) (hentered : Entered lines start stop)
    (hstart : start < stop) : Lookups lines start stop := by
  refine ⟨fun line hline => readable_of_accepts h line (List.mem_of_getElem? hline),
    fun kind hrole => ?_⟩
  obtain ⟨span, -, -, hspan, hfind⟩ :=
    (h.level hentered).exists_find h (Nat.le_refl _) hstart hrole
  exact ⟨span, hfind stop (Nat.le_refl _), fun marker hmarker => h.reads_marker hspan hmarker⟩

/-! ## Induction on ranges -/

/-- At the start of a range a block is opened, and it ends inside the range. -/
structure Begins (limits : Limits) (lines : List Line) (line : Line) (opening : Opening)
    (span : Span) (stop : Nat) : Prop where
  entered : Entered lines span.opener stop
  opener : lines[span.opener]? = some line
  opening : Directive.opening? line = some opening
  find : Span.find lines span.opener stop = .ok span
  delimits : Delimits limits lines span
  terminator_lt : span.terminator < stop

theorem Begins.opener_lt {line : Line} {opening : Opening} {span : Span}
    (h : Begins limits lines line opening span stop) : span.opener < stop :=
  Nat.lt_trans h.delimits.opener_lt h.terminator_lt

theorem Accepts.exists_begins (h : Accepts limits [] lines) (hentered : Entered lines start stop)
    (hstart : start < stop) {line : Line} {opening : Opening} (hline : lines[start]? = some line)
    (hopening : Directive.opening? line = some opening) :
    ∃ span, span.opener = start ∧ Begins limits lines line opening span stop := by
  have hrole := (roleAt_eq hline).trans (congrArg some (Directive.role_of_opening? hopening))
  obtain ⟨span, rfl, hterminator, hspan, hfind⟩ :=
    (h.level hentered).exists_find h (Nat.le_refl _) hstart hrole
  exact ⟨span, rfl, hentered, hline, hopening, hfind stop (Nat.le_refl _), hspan, hterminator⟩

/-- What holds of empty ranges, and of a range if it holds of the ranges that a run of it comes to
next, holds of every range that a run of accepted lines comes to. -/
theorem Accepts.range_induction (h : Accepts limits [] lines) {motive : Nat → Nat → Prop}
    (empty : ∀ start stop, stop ≤ start → motive start stop)
    (line : ∀ start stop line, Entered lines start stop → start < stop →
      lines[start]? = some line → Directive.opening? line = none →
      motive (start + 1) stop → motive start stop)
    (block : ∀ line opening span stop, Begins limits lines line opening span stop →
      motive (span.opener + 1) (span.segmentEnd span.opener) →
      (∀ marker ∈ span.branches, motive (marker + 1) (span.segmentEnd marker)) →
      motive (span.terminator + 1) stop → motive span.opener stop)
    (hentered : Entered lines start stop) : motive start stop := by
  -- The segments of a block and the lines after it are shorter than the range.
  induction hsize : stop - start using Nat.strongRecOn generalizing start stop with
  | ind size ih =>
  rcases Nat.lt_or_ge start stop with hstart | hend
  · have hlength := Nat.lt_of_lt_of_le hstart (h.level hentered).stop_le
    have hline : lines[start]? = some lines[start] := List.getElem?_eq_getElem hlength
    cases hopening : Directive.opening? lines[start] with
    | none =>
      exact line start stop _ hentered hstart hline hopening
        (ih _ (by omega) (hentered.next hstart hline hopening) rfl)
    | some opening =>
      obtain ⟨span, rfl, hbegins⟩ := h.exists_begins hentered hstart hline hopening
      have hspan := hbegins.delimits
      have hopener := hspan.opener_lt
      have hterminator := hbegins.terminator_lt
      refine block _ _ span stop hbegins ?_ (fun marker hmarker => ?_) ?_
      · have hbounds := hspan.segmentEnd_bounds hopener
        exact ih _ (by omega) (hentered.body hstart hbegins.find) rfl
      · obtain ⟨hbefore, hafter, -⟩ := hspan.mem_branches_iff.1 hmarker
        have hbounds := hspan.segmentEnd_bounds hafter
        exact ih _ (by omega) (hentered.part hstart hbegins.find hmarker) rfl
      · exact ih _ (by omega) (hentered.rest hstart hbegins.find) rfl
  · exact empty start stop hend

end Validation

end BatchScript
