import BatchScript.Proofs.Block.Outline

/-!
# The structure that an outline shows

The matcher and the check give accepted lines the same structure (`Coherent`): the spans of the
outline open and close where the check opens and closes its blocks, they are nested in segments of
one another, every line of the block structure has one place in one span, the markers of a span
stand in order, and the depth at which an explanation shows a span is the number of blocks that the
check has open at its opener.
-/

namespace BatchScript

namespace Span

/-- No line lies in both spans. -/
def Apart (first second : Span) : Prop :=
  first.terminator < second.opener ∨ second.terminator < first.opener

/-- A span lies strictly inside one segment of another span. -/
def Within (inner outer : Span) : Prop :=
  ∃ marker ∈ outer.opener :: outer.branches,
    marker < inner.opener ∧ inner.terminator < outer.segmentEnd marker

/-- What a line can be to a span. -/
inductive Use where
  | opener
  | branch
  | terminator
deriving DecidableEq, Repr

/-- The line at a position is the opener, a marker or the terminator of a span. -/
def Uses (span : Span) (position : Nat) : Use → Prop
  | .opener => span.opener = position
  | .branch => position ∈ span.branches
  | .terminator => span.terminator = position

end Span

namespace Validation

variable {limits : Limits} {lines : List Line}

/-! ## Segments -/

/-- Some marker is the last one before a bound. -/
theorem exists_last_before (markers : List Nat) {first bound : Nat} (h : first < bound) :
    ∃ marker ∈ first :: markers, marker < bound ∧
      ∀ other ∈ first :: markers, other < bound → other ≤ marker := by
  induction markers generalizing first with
  | nil => exact ⟨first, List.mem_cons_self, h, by simp⟩
  | cons next markers ih =>
    by_cases hnext : first ≤ next ∧ next < bound
    · obtain ⟨marker, hmem, hlt, hlast⟩ := ih hnext.2
      refine ⟨marker, List.mem_cons_of_mem _ hmem, hlt, List.forall_mem_cons.2 ⟨fun _ => ?_, hlast⟩⟩
      exact Nat.le_trans hnext.1 (hlast next List.mem_cons_self hnext.2)
    · obtain ⟨marker, hmem, hlt, hlast⟩ := ih h
      have hsub : first :: markers ⊆ first :: next :: markers :=
        List.cons_subset_cons _ (List.subset_cons_self _ _)
      obtain ⟨hfirst, hothers⟩ := List.forall_mem_cons.1 hlast
      refine ⟨marker, hsub hmem, hlt, ?_⟩
      refine List.forall_mem_cons.2 ⟨hfirst, List.forall_mem_cons.2 ⟨fun hbound => ?_, hothers⟩⟩
      have := hfirst h
      omega

namespace Delimits

variable {first second : Span}

/-- A block that is opened inside another one lies in one of its segments: the markers of the outer
block are found where no block is open inside it. -/
theorem within (hfirst : Delimits limits lines first) (hsecond : Delimits limits lines second)
    (hopener : first.opener < second.opener) (hinside : second.opener ≤ first.terminator) :
    second.Within first := by
  have hterminator := hfirst.terminator_lt hsecond hopener hinside
  obtain ⟨marker, hmem, hlt, hlast⟩ := exists_last_before first.branches hopener
  refine ⟨marker, hmem, hlt, ?_⟩
  unfold Span.segmentEnd
  cases hfind : first.branches.find? (marker < ·) with
  | none => exact hterminator
  | some next =>
    have hnext : next ∈ first.branches := List.mem_of_find?_eq_some hfind
    have hfound := List.find?_some hfind
    have hafter : marker < next := of_decide_eq_true hfound
    obtain ⟨-, -, hdepth, branch, hbranch⟩ := hfirst.mem_branches_iff.1 hnext
    have hle : second.opener ≤ next := by
      refine Nat.le_of_not_lt fun hbefore => ?_
      have := hlast next (List.mem_cons_of_mem _ hnext) hbefore
      omega
    have hne : second.opener ≠ next := by
      rintro rfl
      rw [hsecond.opens] at hbranch
      cases hbranch
    -- Inside the second block more than one block is open over those at the first opener.
    refine Nat.lt_of_not_le fun hstill => ?_
    have hfirst' := hfirst.depthAt_lt hopener hinside
    have hsecond' := hsecond.depthAt_lt (Nat.lt_of_le_of_ne hle hne) hstill
    omega

end Delimits

namespace Outlines

variable {spans : List Span} {span first second : Span} {position : Nat}

theorem apart_or_within (h : Outlines limits lines spans) (hfirst : first ∈ spans)
    (hsecond : second ∈ spans) (hne : first ≠ second) :
    first.Apart second ∨ first.Within second ∨ second.Within first := by
  have hfirst' := h.delimits first hfirst
  have hsecond' := h.delimits second hsecond
  rcases Nat.lt_trichotomy first.opener second.opener with hlt | heq | hgt
  · rcases Nat.lt_or_ge first.terminator second.opener with hapart | hinside
    · exact .inl (.inl hapart)
    · exact .inr (.inr (hfirst'.within hsecond' hlt hinside))
  · exact absurd (h.eq_of_opener hfirst hsecond heq) hne
  · rcases Nat.lt_or_ge second.terminator first.opener with hapart | hinside
    · exact .inl (.inr hapart)
    · exact .inr (.inl (hsecond'.within hfirst' hgt hinside))

/-! ## Places of lines -/

/-- The part of a line is that of its place in a span. -/
theorem roleAt_of_uses (h : Delimits limits lines span) {use : Span.Use}
    (huse : span.Uses position use) :
    match use with
    | .opener => roleAt lines position = some (.opens span.kind)
    | .branch => ∃ branch, roleAt lines position = some (.divides branch)
    | .terminator => roleAt lines position = some (.closes span.kind) := by
  cases use with
  | opener => exact huse ▸ h.opens
  | branch => exact (h.mem_branches_iff.1 huse).2.2.2
  | terminator => exact huse ▸ h.closing.closes

/-- A place of a line lies after the opener of its span, unless the line is the opener. -/
theorem around_of_uses (h : Delimits limits lines span) {use : Span.Use}
    (huse : span.Uses position use) (hne : use ≠ .opener) :
    span.opener < position ∧ position ≤ span.terminator ∧
      depthAt limits lines position = depthAt limits lines span.opener + 1 := by
  cases use with
  | opener => exact absurd rfl hne
  | branch =>
    obtain ⟨hbefore, hafter, hdepth, -⟩ := h.mem_branches_iff.1 huse
    exact ⟨hbefore, Nat.le_of_lt hafter, hdepth⟩
  | terminator => exact huse ▸ ⟨h.opener_lt, Nat.le_refl _, h.depthAt_terminator⟩

/-- Every line of the block structure has a place in some span. -/
theorem exists_uses (h : Outlines limits lines spans) {line : Line}
    (hline : lines[position]? = some line) (hrole : line.role ≠ .plain) :
    ∃ span ∈ spans, ∃ use, span.Uses position use := by
  obtain ⟨hlt, -⟩ := List.getElem?_eq_some_iff.1 hline
  have hadvance := h.accepts.advance hline
  cases hpart : line.role with
  | plain => exact absurd hpart hrole
  | opens kind =>
    have hopener : position ∈ Span.openers lines :=
      mem_openers_iff.2 ⟨kind, (roleAt_eq hline).trans (congrArg some hpart)⟩
    rw [← h.openers] at hopener
    obtain ⟨span, hspan, hposition⟩ := List.mem_map.1 hopener
    exact ⟨span, hspan, .opener, hposition⟩
  | divides branch =>
    have hroleAt := (roleAt_eq hline).trans (congrArg some hpart)
    obtain ⟨hpositive, -⟩ := hadvance.length_of_divides hpart
    have hlevel : depthAt limits lines position - 1 < depthAt limits lines position :=
      Nat.sub_lt hpositive Nat.one_pos
    obtain ⟨span, hspan, hbefore, hafter, hdepth⟩ := h.exists_around (Nat.le_of_lt hlt) hlevel
    have hne : position ≠ span.terminator := by
      rintro rfl
      rw [(h.delimits span hspan).closing.closes] at hroleAt
      cases hroleAt
    refine ⟨span, hspan, .branch, (h.delimits span hspan).mem_branches_iff.2 ?_⟩
    exact ⟨hbefore, Nat.lt_of_le_of_ne hafter hne, by omega, branch, hroleAt⟩
  | closes kind =>
    have hdepth : depthAt limits lines position = depthAt limits lines (position + 1) + 1 :=
      hadvance.length_of_closes hpart
    have hlevel : depthAt limits lines (position + 1) < depthAt limits lines position := by omega
    obtain ⟨span, hspan, hbefore, hafter, hspandepth⟩ := h.exists_around (Nat.le_of_lt hlt) hlevel
    refine ⟨span, hspan, .terminator, Nat.le_antisymm (Nat.le_of_not_lt fun hnot => ?_) hafter⟩
    have hinside : depthAt limits lines span.opener < depthAt limits lines (position + 1) :=
      (h.delimits span hspan).depthAt_lt (Nat.lt_succ_of_lt hbefore) hnot
    omega

/-- It is the only place of the line. -/
theorem use_unique (h : Outlines limits lines spans) (hfirst : first ∈ spans)
    (hsecond : second ∈ spans) {use use' : Span.Use} (huse : first.Uses position use)
    (huse' : second.Uses position use') : first = second ∧ use = use' := by
  have hrole := roleAt_of_uses (h.delimits first hfirst) huse
  have hrole' := roleAt_of_uses (h.delimits second hsecond) huse'
  have hsame : use = use' := by
    cases use <;> cases use' <;> first | rfl | simp_all
  subst hsame
  refine ⟨?_, rfl⟩
  by_cases hopener : use = .opener
  · subst hopener
    exact h.eq_of_opener hfirst hsecond (huse.trans huse'.symm)
  · obtain ⟨hbefore, hafter, hdepth⟩ := around_of_uses (h.delimits first hfirst) huse hopener
    obtain ⟨hbefore', hafter', hdepth'⟩ := around_of_uses (h.delimits second hsecond) huse' hopener
    exact h.eq_of_around hfirst hsecond hbefore hafter hbefore' hafter' (by omega)

/-! ## Depths of spans -/

/-- A span contains another one if and only if it is around its opener. -/
theorem contains_iff (houter : Delimits limits lines first)
    (hinner : Delimits limits lines second) :
    (first.opener < second.opener && second.terminator < first.terminator) = true ↔
      first.opener < second.opener ∧ second.opener ≤ first.terminator := by
  rw [Bool.and_eq_true, decide_eq_true_eq, decide_eq_true_eq]
  constructor
  · rintro ⟨hopener, hterminator⟩
    have := hinner.opener_lt
    exact ⟨hopener, by omega⟩
  · rintro ⟨hopener, hinside⟩
    exact ⟨hopener, houter.terminator_lt hinner hopener hinside⟩

/-- The spans that contain a span are opened at the depths below its own, one at each. -/
theorem depth_eq (h : Outlines limits lines spans) (hspan : span ∈ spans) :
    Explanation.depth spans span = depthAt limits lines span.opener := by
  have hinner := h.delimits span hspan
  obtain ⟨line, hline, -⟩ := exists_of_roleAt hinner.opens
  obtain ⟨hlt, -⟩ := List.getElem?_eq_some_iff.1 hline
  -- The depths of their openers are the numbers below the depth of the span, each once.
  have hperm : ((spans.filter fun outer => outer.opener < span.opener &&
      span.terminator < outer.terminator).map fun outer => depthAt limits lines outer.opener).Perm
      (List.range (depthAt limits lines span.opener)) := by
    refine (List.perm_ext_iff_of_nodup ?_ List.nodup_range).2 fun level => ?_
    · refine List.Nodup.map_on ?_ (h.nodup.filter _)
      intro first hfirst second hsecond hdepth
      obtain ⟨hfirst, hcontains⟩ := List.mem_filter.1 hfirst
      obtain ⟨hsecond, hcontains'⟩ := List.mem_filter.1 hsecond
      obtain ⟨hbefore, hafter⟩ := (contains_iff (h.delimits first hfirst) hinner).1 hcontains
      obtain ⟨hbefore', hafter'⟩ := (contains_iff (h.delimits second hsecond) hinner).1 hcontains'
      exact h.eq_of_around hfirst hsecond hbefore hafter hbefore' hafter' hdepth
    · rw [List.mem_map, List.mem_range]
      constructor
      · rintro ⟨outer, houter, rfl⟩
        obtain ⟨houter, hcontains⟩ := List.mem_filter.1 houter
        have houter' := h.delimits outer houter
        obtain ⟨hbefore, hafter⟩ := (contains_iff houter' hinner).1 hcontains
        exact houter'.depthAt_lt hbefore hafter
      · intro hlevel
        obtain ⟨outer, houter, hbefore, hafter, hdepth⟩ := h.exists_around (Nat.le_of_lt hlt) hlevel
        refine ⟨outer, List.mem_filter.2 ⟨houter, ?_⟩, hdepth⟩
        exact (contains_iff (h.delimits outer houter) hinner).2 ⟨hbefore, hafter⟩
  rw [Explanation.depth, List.countP_eq_length_filter]
  simpa using hperm.length_eq

end Outlines

/-! ## Order of markers -/

/-- The markers of a span stand in an order that its kind admits. -/
theorem Delimits.exists_admits {span : Span} (hspan : Delimits limits lines span)
    (h : Accepts limits [] lines) :
    ∃ branches : List Branch, span.kind.Admits branches ∧
      span.branches.map (roleAt lines) = branches.map (some <| .divides ·) := by
  obtain ⟨branches, hroles, hlast⟩ := hspan.closing.last
  obtain ⟨line, hline, -⟩ := exists_of_roleAt hspan.closing.closes
  obtain ⟨hlt, -⟩ := List.getElem?_eq_some_iff.1 hline
  have hordered := h.ordered (Nat.le_of_lt hlt)
  rw [hlast] at hordered
  refine ⟨branches, ?_, hroles⟩
  simpa [Span.entry] using hordered _ List.mem_cons_self

/-! ## Coherence -/

/-- The spans of an outline are the blocks of the check. -/
structure Coherent (limits : Limits) (lines : List Line) (spans : List Span) : Prop where
  /-- There is one span for each opener, in order. -/
  openers : spans.map (·.opener) = Span.openers lines
  /-- The entry that the opener adds to the open blocks is taken off again at the terminator. -/
  pops : ∀ span ∈ spans, Delimits limits lines span
  nested : ∀ first ∈ spans, ∀ second ∈ spans, first ≠ second →
    first.Apart second ∨ first.Within second ∨ second.Within first
  places : ∀ position line, lines[position]? = some line → line.role ≠ .plain →
    ∃! place : Span × Span.Use, place.1 ∈ spans ∧ place.1.Uses position place.2
  ordered : ∀ span ∈ spans, span.branches.Pairwise (· < ·) ∧
    ∃ branches : List Branch, span.kind.Admits branches ∧
      span.branches.map (roleAt lines) = branches.map (some <| .divides ·)
  depths : ∀ span ∈ spans,
    Explanation.depth spans span = (openAt limits lines span.opener).length

theorem Outlines.coherent {spans : List Span} (h : Outlines limits lines spans) :
    Coherent limits lines spans where
  openers := h.openers
  pops := h.delimits
  nested _ hfirst _ hsecond := h.apart_or_within hfirst hsecond
  places position line hline hrole := by
    obtain ⟨span, hspan, use, huse⟩ := h.exists_uses hline hrole
    refine ⟨(span, use), ⟨hspan, huse⟩, ?_⟩
    rintro ⟨other, use'⟩ ⟨hother, huse'⟩
    obtain ⟨rfl, rfl⟩ := h.use_unique hother hspan huse' huse
    rfl
  ordered span hspan :=
    ⟨(h.delimits span hspan).closing.sorted, (h.delimits span hspan).exists_admits h.accepts⟩
  depths _ hspan := h.depth_eq hspan

end Validation

namespace Script

/-- The outline of an accepted script exists and shows the blocks of the check. -/
theorem exists_outline_coherent {script : Script} {limits : Limits} {warnings : List Diagnostic}
    (h : script.ensureValid limits = .ok warnings) :
    ∃ spans, Span.outline script.lines = .ok spans ∧
      Validation.Coherent limits script.lines spans := by
  have haccepts := accepts_of_ensureValid h
  obtain ⟨spans, houtline, hopeners, hdelimits⟩ := haccepts.exists_outline
  exact ⟨spans, houtline, Validation.Outlines.coherent ⟨haccepts, hopeners, hdelimits⟩⟩

theorem exists_outline_coherent_sample :
    sample.ensureValid {} = .ok [] ∧
      ∃ spans, Span.outline sample.lines = .ok spans ∧
        Validation.Coherent {} sample.lines spans :=
  ⟨ensureValid_sample, exists_outline_coherent ensureValid_sample⟩

end Script

end BatchScript
