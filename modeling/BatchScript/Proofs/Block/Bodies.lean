import BatchScript.Proofs.Block.Ranges
import BatchScript.Proofs.Block.Coherence

/-!
# Bodies of blocks

The body of a block is what stands between its opener and its first marker. A run goes from range to
range, and on the way only the step from an opener into its body leads into another body: from line
to line, to the markers of a block and the parts after them, and past a terminator, the bodies around
stay the same (`inBody_next`, `inBody_marker`, `inBody_part`, `inBody_rest`).
-/

namespace BatchScript

namespace Span

/-- A position lies in the body of a block. -/
def inBody (span : Span) (position : Nat) : Bool :=
  span.opener < position && position < span.segmentEnd span.opener

theorem inBody_iff {span : Span} {position : Nat} :
    span.inBody position = true ↔
      span.opener < position ∧ position < span.segmentEnd span.opener := by
  rw [inBody, Bool.and_eq_true, decide_eq_true_iff, decide_eq_true_iff]

theorem not_inBody_of_le {span : Span} {position : Nat}
    (h : span.segmentEnd span.opener ≤ position) : span.inBody position = false := by
  rw [inBody, decide_eq_false (Nat.not_lt.2 h), Bool.and_false]

end Span

namespace Validation

variable {limits : Limits} {lines : List Line} {start stop : Nat}

namespace Delimits

variable {span first second outer inner : Span} {marker position : Nat}

/-! ## One block at an opener -/

theorem terminator_le (hfirst : Delimits limits lines first) (hsecond : Delimits limits lines second)
    (hopener : first.opener = second.opener) : first.terminator ≤ second.terminator := by
  refine Nat.le_of_not_lt fun hlt => ?_
  have hbefore := hsecond.opener_lt
  have hinside : depthAt limits lines first.opener < depthAt limits lines (second.terminator + 1) :=
    hfirst.depthAt_lt (by omega) hlt
  rw [hsecond.depthAt_succ, hopener] at hinside
  exact Nat.lt_irrefl _ hinside

theorem eq_of_opener (hfirst : Delimits limits lines first) (hsecond : Delimits limits lines second)
    (hopener : first.opener = second.opener) : first = second := by
  have hterminator : first.terminator = second.terminator :=
    Nat.le_antisymm (hfirst.terminator_le hsecond hopener)
      (hsecond.terminator_le hfirst hopener.symm)
  have hkind : first.kind = second.kind := by
    have hopens := hfirst.opens.symm.trans ((congrArg (roleAt lines) hopener).trans hsecond.opens)
    exact Role.opens.inj (Option.some.inj hopens)
  have hbranches : first.branches = second.branches := by
    have hperm : first.branches.Perm second.branches := by
      refine (List.perm_ext_iff_of_nodup (hfirst.closing.sorted.imp Nat.ne_of_lt)
        (hsecond.closing.sorted.imp Nat.ne_of_lt)).2 fun position => ?_
      rw [hfirst.mem_branches_iff, hsecond.mem_branches_iff, hopener, hterminator]
    exact hperm.eq_of_pairwise (fun _ _ _ _ hlt hgt => absurd hgt (Nat.lt_asymm hlt))
      hfirst.closing.sorted hsecond.closing.sorted
  cases first
  cases second
  exact (Span.mk.injEq ..).mpr ⟨hkind, hopener, hterminator, hbranches⟩

/-! ## Markers and segments -/

/-- No marker stands in a segment at its own level. -/
theorem not_divides_segment (h : Delimits limits lines span)
    (hlevel : Level limits lines (marker + 1) (span.segmentEnd marker))
    (hmarker : marker = span.opener ∨ marker ∈ span.branches) (hafter : marker < position)
    (hbefore : position < span.segmentEnd marker)
    (hdepth : depthAt limits lines position = depthAt limits lines (marker + 1))
    (branch : Branch) : roleAt lines position ≠ some (.divides branch) := by
  intro hrole
  have hbounds : span.opener ≤ marker ∧ marker < span.terminator := by
    rcases hmarker with rfl | hmarker
    · exact ⟨Nat.le_refl _, h.opener_lt⟩
    · obtain ⟨hopener, hterminator, -⟩ := h.mem_branches_iff.1 hmarker
      exact ⟨Nat.le_of_lt hopener, hterminator⟩
  obtain ⟨-, hend, hlast⟩ := h.segmentEnd_bounds hbounds.2
  refine Span.not_mem_branches h.closing.sorted hafter hbefore (h.mem_branches_iff.2 ?_)
  exact ⟨by omega, by omega, hdepth.trans (hlevel.same.symm.trans hlast), branch, hrole⟩

/-- The body ends before all markers. -/
theorem segmentEnd_opener_le (h : Delimits limits lines span) (hmarker : marker ∈ span.branches) :
    span.segmentEnd span.opener ≤ marker :=
  Span.segmentEnd_le h.closing.sorted (h.mem_branches_iff.1 hmarker).1 hmarker

/-! ## Bodies around a block -/

/-- A body around an opener is around the whole block. -/
theorem inBody_of_inBody_opener (houter : Delimits limits lines outer)
    (hinner : Delimits limits lines inner) (h : outer.inBody inner.opener = true)
    (hbefore : inner.opener ≤ position) (hafter : position ≤ inner.terminator) :
    outer.inBody position = true := by
  obtain ⟨hopener, hbody⟩ := Span.inBody_iff.1 h
  have hbounds := houter.segmentEnd_bounds houter.opener_lt
  obtain ⟨marker, hmarker, hlt, hend⟩ := houter.within hinner hopener (by omega)
  rcases List.mem_cons.1 hmarker with rfl | hbranch
  · exact Span.inBody_iff.2 ⟨by omega, by omega⟩
  · have := houter.segmentEnd_opener_le hbranch
    omega

/-- A body inside a block lies strictly inside one of its segments. -/
theorem exists_segment_of_inBody (houter : Delimits limits lines outer)
    (hinner : Delimits limits lines inner) (hopener : outer.opener < inner.opener)
    (h : inner.inBody position = true) (hafter : position ≤ outer.terminator + 1) :
    ∃ marker ∈ outer.opener :: outer.branches,
      marker < inner.opener ∧ position < outer.segmentEnd marker := by
  obtain ⟨hbefore, hbody⟩ := Span.inBody_iff.1 h
  have hbounds := hinner.segmentEnd_bounds hinner.opener_lt
  obtain ⟨marker, hmarker, hlt, hend⟩ := houter.within hinner hopener (by omega)
  exact ⟨marker, hmarker, hlt, by omega⟩

end Delimits

/-! ## From range to range -/

/-- In a range that a run comes to, the lines at its own level are no markers: it ends before the next
marker of the block that it lies in. -/
theorem Accepts.not_divides (h : Accepts limits [] lines) (hentered : Entered lines start stop) :
    ∀ position, start ≤ position → position < stop →
      depthAt limits lines position = depthAt limits lines start →
      ∀ branch, roleAt lines position ≠ some (.divides branch) := by
  induction hentered with
  | whole =>
    intro position _ _ hdepth branch hrole
    obtain ⟨line, hline, hdivides⟩ := exists_of_roleAt hrole
    obtain ⟨hpositive, -⟩ := (h.advance hline).length_of_divides hdivides
    exact Nat.ne_of_gt hpositive hdepth
  | @next start stop line hentered hstart hline hopening ih =>
    intro position hposition hstop hdepth
    have hsame := (h.level (hentered.next hstart hline hopening)).same
    rw [(h.level hentered).same] at hsame
    exact ih position (Nat.le_of_succ_le hposition) hstop (hdepth.trans hsame.symm)
  | body hentered hstart hfind ih =>
    obtain ⟨rfl, -, hspan⟩ := (h.level hentered).delimits_of_find h hstart hfind
    exact fun position => hspan.not_divides_segment (h.level_segment hspan (.inl rfl)) (.inl rfl)
  | part hentered hstart hfind hmarker ih =>
    obtain ⟨rfl, -, hspan⟩ := (h.level hentered).delimits_of_find h hstart hfind
    exact fun position =>
      hspan.not_divides_segment (h.level_segment hspan (.inr hmarker)) (.inr hmarker)
  | rest hentered hstart hfind ih =>
    obtain ⟨rfl, -, hspan⟩ := (h.level hentered).delimits_of_find h hstart hfind
    intro position hposition hstop hdepth
    have hopener := hspan.opener_lt
    exact ih position (by omega) hstop (hdepth.trans hspan.depthAt_succ)

/-- A range that a run comes to does not begin where a segment ends. -/
theorem Accepts.ne_segmentEnd (h : Accepts limits [] lines) (hentered : Entered lines start stop)
    (hstart : start < stop) {span : Span} (hspan : Delimits limits lines span) :
    start ≠ span.segmentEnd span.opener := by
  intro hend
  have hlevel := h.level hentered
  unfold Span.segmentEnd at hend
  cases hfind : span.branches.find? (span.opener < ·) with
  | none =>
    obtain rfl : start = span.terminator := by simpa [hfind] using hend
    have habove := hlevel.above (span.terminator + 1) (Nat.le_succ _) hstart
    rw [hspan.depthAt_terminator, hspan.depthAt_succ] at habove
    exact Nat.not_succ_le_self _ habove
  | some next =>
    obtain rfl : start = next := by simpa [hfind] using hend
    obtain ⟨-, -, -, branch, hbranch⟩ :=
      hspan.mem_branches_iff.1 (List.mem_of_find?_eq_some hfind)
    exact h.not_divides hentered start (Nat.le_refl _) hstart rfl branch hbranch

section Transport

variable {span other : Span} {line : Line} {opening : Opening} {marker position : Nat}

/-- A body is not left where a range goes on. -/
theorem Accepts.inBody_succ (h : Accepts limits [] lines)
    (hentered : Entered lines (position + 1) stop) (hposition : position + 1 < stop)
    (hother : Delimits limits lines other) (hinside : other.inBody position = true) :
    other.inBody (position + 1) = true := by
  obtain ⟨hbefore, hafter⟩ := Span.inBody_iff.1 hinside
  have hne := h.ne_segmentEnd hentered hposition hother
  exact Span.inBody_iff.2 ⟨Nat.lt_succ_of_lt hbefore, Nat.lt_of_le_of_ne hafter hne⟩

/-- Past a line that opens no block. -/
theorem Accepts.inBody_next (h : Accepts limits [] lines) (hentered : Entered lines start stop)
    (hline : lines[start]? = some line) (hopening : Directive.opening? line = none)
    (hstart : start + 1 < stop) (hother : Delimits limits lines other) :
    other.inBody (start + 1) = other.inBody start := by
  rw [Bool.eq_iff_iff]
  constructor
  · intro hinside
    obtain ⟨hbefore, hafter⟩ := Span.inBody_iff.1 hinside
    have hne : other.opener ≠ start := by
      rintro rfl
      obtain ⟨found, hfound, hrole⟩ := exists_of_roleAt hother.opens
      obtain rfl : found = line := Option.some.inj (hfound.symm.trans hline)
      obtain ⟨opening, hopens, -⟩ :=
        (readable_of_accepts h).exists_opening? (List.mem_of_getElem? hline) hrole
      rw [hopening] at hopens
      cases hopens
    exact Span.inBody_iff.2 ⟨by omega, by omega⟩
  · exact h.inBody_succ (hentered.next (by omega) hline hopening) hstart hother

/-- Bodies at a position of a block are those at its opener, if they lead in from there and none is
opened inside the block. -/
theorem inBody_eq_opener (hposition : span.opener ≤ position)
    (hinto : other.inBody span.opener = true → other.inBody position = true)
    (hinner : span.opener ≤ other.opener → other.inBody position = false) :
    other.inBody position = other.inBody span.opener := by
  rw [Bool.eq_iff_iff]
  refine ⟨fun hinside => ?_, hinto⟩
  have hlt : other.opener < span.opener := by
    refine Nat.lt_of_not_le fun hle => ?_
    rw [hinner hle] at hinside
    cases hinside
  exact Span.inBody_iff.2 ⟨hlt, Nat.lt_of_le_of_lt hposition (Span.inBody_iff.1 hinside).2⟩

variable (hbegins : Begins limits lines line opening span stop) (hother : Delimits limits lines other)

include hbegins hother

/-- Into the body of a block, but for this body. -/
theorem Begins.inBody_body (hne : other.opener ≠ span.opener) :
    other.inBody (span.opener + 1) = other.inBody span.opener := by
  have hspan := hbegins.delimits
  have hopener := hspan.opener_lt
  refine inBody_eq_opener (Nat.le_succ _) (fun hinside => ?_) fun hle => ?_
  · exact hother.inBody_of_inBody_opener hspan hinside (Nat.le_succ _) hopener
  · rw [Bool.eq_false_iff]
    intro hinside
    have := (Span.inBody_iff.1 hinside).1
    omega

/-- To a marker of a block. -/
theorem Begins.inBody_marker (hmarker : marker ∈ span.branches) :
    other.inBody marker = other.inBody span.opener := by
  have hspan := hbegins.delimits
  obtain ⟨hbefore, hafter, -⟩ := hspan.mem_branches_iff.1 hmarker
  refine inBody_eq_opener (Nat.le_of_lt hbefore) (fun hinside => ?_) fun hle => ?_
  · exact hother.inBody_of_inBody_opener hspan hinside (Nat.le_of_lt hbefore) (Nat.le_of_lt hafter)
  · rcases Nat.eq_or_lt_of_le hle with heq | hlt
    · rw [hother.eq_of_opener hspan heq.symm]
      exact Span.not_inBody_of_le (hspan.segmentEnd_opener_le hmarker)
    · rw [Bool.eq_false_iff]
      intro hinside
      obtain ⟨before, -, hbefore', hend⟩ :=
        hspan.exists_segment_of_inBody hother hlt hinside (by omega)
      have := (Span.inBody_iff.1 hinside).1
      exact Span.not_mem_branches hspan.closing.sorted (by omega) hend hmarker

/-- Into the part after a marker. -/
theorem Begins.inBody_part (hmarker : marker ∈ span.branches) :
    other.inBody (marker + 1) = other.inBody span.opener := by
  have hspan := hbegins.delimits
  obtain ⟨hbefore, hafter, -⟩ := hspan.mem_branches_iff.1 hmarker
  refine inBody_eq_opener (by omega) (fun hinside => ?_) fun hle => ?_
  · exact hother.inBody_of_inBody_opener hspan hinside (by omega) hafter
  · rcases Nat.eq_or_lt_of_le hle with heq | hlt
    · rw [hother.eq_of_opener hspan heq.symm]
      exact Span.not_inBody_of_le (Nat.le_succ_of_le (hspan.segmentEnd_opener_le hmarker))
    · rw [Bool.eq_false_iff]
      intro hinside
      obtain ⟨before, -, hbefore', hend⟩ :=
        hspan.exists_segment_of_inBody hother hlt hinside (by omega)
      have := (Span.inBody_iff.1 hinside).1
      exact Span.not_mem_branches hspan.closing.sorted (by omega) (Nat.lt_of_succ_lt hend) hmarker

/-- Past the terminator of a block. -/
theorem Begins.inBody_rest (h : Accepts limits [] lines) (hstop : span.terminator + 1 < stop) :
    other.inBody (span.terminator + 1) = other.inBody span.opener := by
  have hspan := hbegins.delimits
  have hopener := hspan.opener_lt
  refine inBody_eq_opener (by omega) (fun hinside => ?_) fun hle => ?_
  · have hrest := hbegins.entered.rest hbegins.opener_lt hbegins.find
    exact h.inBody_succ hrest hstop hother
      (hother.inBody_of_inBody_opener hspan hinside (Nat.le_of_lt hopener) (Nat.le_refl _))
  · have hbounds := hspan.segmentEnd_bounds hopener
    rcases Nat.eq_or_lt_of_le hle with heq | hlt
    · rw [hother.eq_of_opener hspan heq.symm]
      exact Span.not_inBody_of_le (by omega)
    · rw [Bool.eq_false_iff]
      intro hinside
      have hinside := Span.inBody_iff.1 hinside
      have hinner := hother.segmentEnd_bounds hother.opener_lt
      have := hspan.terminator_lt hother hlt (by omega)
      omega

end Transport

end Validation

/-! ## Covered lines -/

/-- The block is an attempt that has a `@catch`. -/
def Span.catches (lines : List Line) (span : Span) : Bool :=
  span.kind = .attempt && (span.branch? lines .catch).isSome

/-- A position lies in the body of an attempt that has a `@catch`. -/
def coveredAt (lines : List Line) (spans : List Span) (position : Nat) : Bool :=
  spans.any fun span => span.catches lines && span.inBody position

theorem coveredAt_iff {lines : List Line} {spans : List Span} {position : Nat} :
    coveredAt lines spans position = true ↔
      ∃ span ∈ spans, span.catches lines = true ∧ span.inBody position = true := by
  simp only [coveredAt, List.any_eq_true, Bool.and_eq_true]

theorem coveredAt_congr {lines : List Line} {spans : List Span} {first second : Nat}
    (h : ∀ span ∈ spans, span.catches lines = true → span.inBody first = span.inBody second) :
    coveredAt lines spans first = coveredAt lines spans second := by
  rw [Bool.eq_iff_iff, coveredAt_iff, coveredAt_iff]
  refine exists_congr fun span => and_congr_right fun hspan => and_congr_right fun hcatches => ?_
  rw [h span hspan hcatches]

namespace Validation.Outlines

variable {limits : Limits} {lines : List Line} {spans : List Span} {span : Span} {line : Line}
  {opening : Opening} {start stop marker position : Nat}

theorem mem_of_delimits (h : Outlines limits lines spans) (hspan : Delimits limits lines span) :
    span ∈ spans := by
  have hopener : span.opener ∈ spans.map (·.opener) :=
    h.openers ▸ mem_openers_iff.2 ⟨span.kind, hspan.opens⟩
  obtain ⟨found, hfound, hsame⟩ := List.mem_map.1 hopener
  exact (h.delimits found hfound).eq_of_opener hspan hsame ▸ hfound

theorem coveredAt_next (h : Outlines limits lines spans) (hentered : Entered lines start stop)
    (hline : lines[start]? = some line) (hopening : Directive.opening? line = none)
    (hstart : start + 1 < stop) :
    coveredAt lines spans (start + 1) = coveredAt lines spans start :=
  coveredAt_congr fun other hother _ =>
    h.accepts.inBody_next hentered hline hopening hstart (h.delimits other hother)

section Block

variable (h : Outlines limits lines spans) (hbegins : Begins limits lines line opening span stop)

include h hbegins

theorem coveredAt_body (hnot : span.catches lines = false) :
    coveredAt lines spans (span.opener + 1) = coveredAt lines spans span.opener := by
  refine coveredAt_congr fun other hother hcatches => ?_
  refine hbegins.inBody_body (h.delimits other hother) fun hsame => ?_
  rw [(h.delimits other hother).eq_of_opener hbegins.delimits hsame, hnot] at hcatches
  cases hcatches

/-- All lines of the body of an attempt that has a `@catch` are covered. -/
theorem coveredAt_of_catches (hcatches : span.catches lines = true)
    (hbefore : span.opener < position) (hafter : position < span.segmentEnd span.opener) :
    coveredAt lines spans position = true :=
  coveredAt_iff.2 ⟨span, h.mem_of_delimits hbegins.delimits, hcatches,
    Span.inBody_iff.2 ⟨hbefore, hafter⟩⟩

theorem coveredAt_marker (hmarker : marker ∈ span.branches) :
    coveredAt lines spans marker = coveredAt lines spans span.opener :=
  coveredAt_congr fun other hother _ => hbegins.inBody_marker (h.delimits other hother) hmarker

theorem coveredAt_part (hmarker : marker ∈ span.branches) :
    coveredAt lines spans (marker + 1) = coveredAt lines spans span.opener :=
  coveredAt_congr fun other hother _ => hbegins.inBody_part (h.delimits other hother) hmarker

theorem coveredAt_rest (hstop : span.terminator + 1 < stop) :
    coveredAt lines spans (span.terminator + 1) = coveredAt lines spans span.opener :=
  coveredAt_congr fun other hother _ =>
    hbegins.inBody_rest (h.delimits other hother) h.accepts hstop

end Block

end Validation.Outlines

end BatchScript
