import BatchScript.Proofs.Block.Coherence

/-!
# The spans around a line

The spans of accepted lines that are around a position stand inside one another, so they form a stack with
the innermost span on top (`Enclosing`). An opener puts its span on the stack for the lines after it, a
terminator takes off the span that it ends, and every other line leaves the stack as it is.
-/

namespace BatchScript

namespace Validation

variable {limits : Limits} {lines : List Line} {spans stack : List Span} {span : Span}
  {position : Nat}

/-- The spans that were opened before a position and end there or later, innermost first. -/
structure Enclosing (spans : List Span) (position : Nat) (stack : List Span) : Prop where
  mem_iff : ∀ span, span ∈ stack ↔
    span ∈ spans ∧ span.opener < position ∧ position ≤ span.terminator
  sorted : stack.Pairwise fun inner outer => outer.opener < inner.opener

theorem enclosing_zero (spans : List Span) : Enclosing spans 0 [] where
  mem_iff span := by simp
  sorted := .nil

/-! ## Ends of spans -/

theorem Outlines.opener_ne (h : Outlines limits lines spans) (hspan : span ∈ spans)
    (hrole : ∀ kind, roleAt lines position ≠ some (.opens kind)) : span.opener ≠ position := by
  rintro rfl
  exact hrole _ (h.delimits span hspan).opens

theorem Outlines.terminator_ne (h : Outlines limits lines spans) (hspan : span ∈ spans)
    (hrole : ∀ kind, roleAt lines position ≠ some (.closes kind)) : span.terminator ≠ position := by
  rintro rfl
  exact hrole _ (h.delimits span hspan).closing.closes

theorem Outlines.exists_opener (h : Outlines limits lines spans) {kind : BlockKind}
    (hrole : roleAt lines position = some (.opens kind)) :
    ∃ span ∈ spans, span.opener = position := by
  have hopener : position ∈ spans.map (·.opener) := h.openers ▸ mem_openers_iff.2 ⟨kind, hrole⟩
  exact List.mem_map.1 hopener

theorem Outlines.exists_terminator (h : Outlines limits lines spans) {kind : BlockKind}
    (hrole : roleAt lines position = some (.closes kind)) :
    ∃ span ∈ spans, span.terminator = position ∧ span.kind = kind := by
  obtain ⟨line, hline, hpart⟩ := exists_of_roleAt hrole
  obtain ⟨span, hspan, use, huse⟩ := h.exists_uses hline (by simp [hpart])
  have hplace := roleAt_of_uses (h.delimits span hspan) huse
  cases use with
  | opener =>
    rw [hrole] at hplace
    cases hplace
  | branch =>
    obtain ⟨branch, hplace⟩ := hplace
    rw [hrole] at hplace
    cases hplace
  | terminator =>
    rw [hrole] at hplace
    cases hplace
    exact ⟨span, hspan, huse, rfl⟩

theorem Outlines.eq_of_terminator {first second : Span} (h : Outlines limits lines spans)
    (hfirst : first ∈ spans) (hsecond : second ∈ spans)
    (hterminator : first.terminator = second.terminator) : first = second := by
  have huse : first.Uses second.terminator .terminator := hterminator
  have huse' : second.Uses second.terminator .terminator := rfl
  exact (h.use_unique hfirst hsecond huse huse').1

/-! ## Steps from line to line -/

namespace Enclosing

theorem stay (henclosing : Enclosing spans position stack) (h : Outlines limits lines spans)
    (hopens : ∀ kind, roleAt lines position ≠ some (.opens kind))
    (hcloses : ∀ kind, roleAt lines position ≠ some (.closes kind)) :
    Enclosing spans (position + 1) stack where
  mem_iff span := by
    rw [henclosing.mem_iff]
    refine and_congr_right fun hspan => ?_
    have hopener := h.opener_ne hspan hopens
    have hterminator := h.terminator_ne hspan hcloses
    omega
  sorted := henclosing.sorted

theorem push (henclosing : Enclosing spans position stack) (h : Outlines limits lines spans)
    (hspan : span ∈ spans) (hopener : span.opener = position) :
    Enclosing spans (position + 1) (span :: stack) where
  mem_iff other := by
    have hinside := (h.delimits span hspan).opener_lt
    rw [List.mem_cons, henclosing.mem_iff]
    constructor
    · rintro (rfl | ⟨hother, hbefore, hafter⟩)
      · exact ⟨hspan, by omega, by omega⟩
      · have hopens := (h.delimits span hspan).opens
        have hterminator : other.terminator ≠ position :=
          h.terminator_ne hother fun kind hcloses => by
            rw [← hopener, hopens] at hcloses
            cases hcloses
        exact ⟨hother, by omega, by omega⟩
    · rintro ⟨hother, hbefore, hafter⟩
      by_cases hsame : other.opener = position
      · exact .inl (h.eq_of_opener hother hspan (hsame.trans hopener.symm))
      · exact .inr ⟨hother, by omega, by omega⟩
  sorted := List.pairwise_cons.2 ⟨fun outer houter => by
    rw [hopener]
    exact ((henclosing.mem_iff outer).1 houter).2.1, henclosing.sorted⟩

/-- The span that ends is the innermost one: any other one inside it ends before. -/
theorem pop (henclosing : Enclosing spans position stack) (h : Outlines limits lines spans)
    (hspan : span ∈ spans) (hterminator : span.terminator = position) :
    ∃ rest, stack = span :: rest ∧ Enclosing spans (position + 1) rest := by
  have hinside := (h.delimits span hspan).opener_lt
  have hmem : span ∈ stack := (henclosing.mem_iff span).2 ⟨hspan, by omega, by omega⟩
  have hsorted := henclosing.sorted
  cases stack with
  | nil => cases hmem
  | cons top rest =>
    obtain ⟨htop, hrest⟩ := List.pairwise_cons.1 hsorted
    obtain ⟨htop_mem, hbefore, hafter⟩ := (henclosing.mem_iff top).1 List.mem_cons_self
    have hspan_top : span = top := by
      refine (List.mem_cons.1 hmem).resolve_right fun hinner => ?_
      have hends := (h.delimits span hspan).terminator_lt (h.delimits top htop_mem)
        (htop span hinner) (by omega)
      omega
    subst hspan_top
    refine ⟨rest, rfl, ⟨fun other => ?_, hrest⟩⟩
    constructor
    · intro hother
      obtain ⟨hother_mem, hopened, hopen⟩ :=
        (henclosing.mem_iff other).1 (List.mem_cons_of_mem _ hother)
      have hne : other.terminator ≠ position := fun hsame => by
        obtain rfl := h.eq_of_terminator hother_mem hspan (hsame.trans hterminator.symm)
        exact Nat.lt_irrefl _ (htop other hother)
      exact ⟨hother_mem, by omega, by omega⟩
    · rintro ⟨hother, hopened, hopen⟩
      have hcloses := (h.delimits span hspan).closing.closes
      have hne : other.opener ≠ position := h.opener_ne hother fun kind hopens => by
        rw [← hterminator, hcloses] at hopens
        cases hopens
      have hmem := (henclosing.mem_iff other).2 ⟨hother, by omega, by omega⟩
      refine (List.mem_cons.1 hmem).resolve_left ?_
      rintro rfl
      omega

end Enclosing

end Validation

end BatchScript
