import BatchScript.Block.Span

/-!
# Slices of a script

The lines between two positions. The segments of a block, as its span gives them, are the parts of
the cut that the span was made from (`slice_body`, `slices_parts`, `slice_rest`).
-/

namespace BatchScript

/-- The lines from one position on and before another one. -/
def slice (lines : List Line) (start stop : Nat) : List Line :=
  (lines.take stop).drop start

variable {lines front middle back : List Line} {line : Line} {start stop : Nat}

theorem slice_of_le (h : stop ≤ start) : slice lines start stop = [] :=
  List.drop_eq_nil_of_le (Nat.le_trans (List.length_take_le stop lines) h)

theorem slice_length : slice lines 0 lines.length = lines := by
  rw [slice, List.take_length, List.drop_zero]

theorem length_slice : (slice lines start stop).length = min stop lines.length - start := by
  rw [slice, List.length_drop, List.length_take]

/-- The first lines of a slice. -/
theorem take_slice {count : Nat} (h : start + count ≤ stop) :
    (slice lines start stop).take count = slice lines start (start + count) := by
  rw [slice, slice, List.take_drop, List.take_take, Nat.min_eq_left h]

theorem getElem?_slice {count : Nat} (h : start + count < stop) :
    (slice lines start stop)[count]? = lines[start + count]? := by
  rw [slice, List.getElem?_drop, List.getElem?_take_of_lt h]

theorem slice_cons (hline : lines[start]? = some line) (h : start < stop) :
    slice lines start stop = line :: slice lines (start + 1) stop := by
  obtain ⟨hlt, rfl⟩ := List.getElem?_eq_some_iff.1 hline
  have hlength : start < (lines.take stop).length := by
    rw [List.length_take]
    omega
  rw [slice, List.drop_eq_getElem_cons hlength, List.getElem_take]
  rfl

/-- The slice after the lines in front. -/
theorem slice_of_append (h : slice lines start stop = front ++ back) :
    slice lines (start + front.length) stop = back := by
  have hdrop : (slice lines start stop).drop front.length = back := by
    rw [h, List.drop_left]
  rw [← hdrop, slice, slice, List.drop_drop]

/-- The line after the lines in front. -/
theorem getElem?_of_slice (h : slice lines start stop = front ++ line :: back) :
    lines[start + front.length]? = some line := by
  have hget : (slice lines start stop)[front.length]? = some line := by
    rw [h, List.getElem?_append_right (Nat.le_refl _), Nat.sub_self]
    rfl
  rw [slice, List.getElem?_drop, List.getElem?_take] at hget
  split at hget
  · exact hget
  · cases hget

/-- The slice of the lines in the middle. -/
theorem slice_middle (hstart : start ≤ stop)
    (h : slice lines start stop = front ++ (middle ++ back)) :
    slice lines (start + front.length) (start + front.length + middle.length) = middle := by
  have hlength : front.length + middle.length ≤ stop - start := by
    have := congrArg List.length h
    simp only [slice, List.length_drop, List.length_take, List.length_append] at this
    omega
  have htake : lines.take (start + front.length + middle.length) =
      (lines.take stop).take (start + front.length + middle.length) := by
    rw [List.take_take, Nat.min_eq_left (by omega)]
  have hrest := slice_of_append h
  rw [slice] at hrest
  rw [slice, htake, List.drop_take, hrest, Nat.add_sub_cancel_left, List.take_left]

/-! ## Segments of a cut -/

namespace Span

/-- The span of an opener is found by cutting the slice after it. -/
theorem find_of_opens {kind : BlockKind} (hline : lines[start]? = some line)
    (hrole : line.role = .opens kind) :
    find lines start stop = match cutBlock kind 0 (slice lines (start + 1) stop) with
      | some cut => .ok (ofCut kind start cut)
      | none => .error (.parse line.number (.unmatched kind line.number)) := by
  simp only [find, hline, hrole]
  rfl

/-- A span that is found is made from a cut of the slice after its opener. -/
theorem exists_cut_of_find {opener : Nat} {span : Span} (h : find lines opener stop = .ok span) :
    ∃ line kind cut, lines[opener]? = some line ∧ line.role = .opens kind ∧
      cutBlock kind 0 (slice lines (opener + 1) stop) = some cut ∧ span = ofCut kind opener cut := by
  unfold find at h
  split at h
  · cases h
  next line hline =>
    split at h
    next kind hrole =>
      split at h <;> cases h
      next cut hcut => exact ⟨line, kind, cut, hline, hrole, hcut, rfl⟩
    next => cases h

/-- The first marker of parts after an earlier position, or the end of the parts if there are
none. -/
theorem find?_markers {marker position : Nat} (h : marker < position)
    (parts : List (Line × List Line)) :
    ((markers position parts).find? (marker < ·)).getD
      (position + (Cut.partLines parts).length) = position := by
  cases parts with
  | nil => rfl
  | cons part parts => simp [markers, h]

/-- Markers that are not after a position are passed over. -/
theorem find?_after {before after : List Nat} {marker : Nat}
    (h : ∀ other ∈ before, other ≤ marker) :
    (before ++ after).find? (marker < ·) = after.find? (marker < ·) := by
  have hnone : before.find? (marker < ·) = none :=
    List.find?_eq_none.2 fun other hother => by simpa using h other hother
  rw [List.find?_append, hnone, Option.none_or]

/-- The lines of each part stand between its marker and the next one. -/
theorem map_markers (hstart : start ≤ stop) {parts : List (Line × List Line)} {position : Nat}
    (before : List Nat) (h : slice lines start stop = front ++ (Cut.partLines parts ++ back))
    (hposition : start + front.length = position) (hbefore : ∀ marker ∈ before, marker < position) :
    ((markers position parts).map fun marker => (lines[marker]?, slice lines (marker + 1)
      (((before ++ markers position parts).find? (marker < ·)).getD
        (position + (Cut.partLines parts).length)))) =
      parts.map fun part => (some part.1, part.2) := by
  induction parts generalizing front position before with
  | nil => rfl
  | cons part parts ih =>
    rw [Cut.partLines_cons, List.cons_append, List.cons_append, List.append_assoc] at h
    have hline : lines[position]? = some part.1 := hposition ▸ getElem?_of_slice h
    have hnext : start + (front ++ part.1 :: part.2).length = position + 1 + part.2.length := by
      simp only [List.length_append, List.length_cons]
      omega
    have hend : position + (Cut.partLines (part :: parts)).length =
        position + 1 + part.2.length + (Cut.partLines parts).length := by
      simp only [Cut.partLines_cons, List.length_append, List.length_cons]
      omega
    have hpart : slice lines (position + 1) (position + 1 + part.2.length) = part.2 := by
      rw [List.append_cons] at h
      have hmiddle := slice_middle hstart h
      rwa [List.length_append, List.length_singleton, ← Nat.add_assoc, hposition] at hmiddle
    have hbefore' : ∀ marker ∈ before ++ [position], marker ≤ position := by
      intro marker hmarker
      rcases List.mem_append.1 hmarker with hmarker | hmarker
      · exact Nat.le_of_lt (hbefore marker hmarker)
      · exact Nat.le_of_eq (List.mem_singleton.1 hmarker)
    rw [markers, List.append_cons, List.map_cons, List.map_cons, hend, hline, find?_after hbefore',
      find?_markers (by omega), hpart]
    refine congrArg _ (ih (before ++ [position]) ?_ hnext ?_)
    · rw [h, List.append_assoc, List.cons_append]
    · intro marker hmarker
      exact Nat.lt_of_le_of_lt (hbefore' marker hmarker) (by omega)

variable (kind : BlockKind) {opener : Nat} {cut : Cut}

theorem terminator_ofCut : (ofCut kind opener cut).terminator =
    opener + 1 + cut.body.length + (Cut.partLines cut.parts).length := by
  simp only [ofCut, Cut.size, List.length_append]
  omega

theorem segmentEnd_ofCut :
    (ofCut kind opener cut).segmentEnd opener = opener + 1 + cut.body.length := by
  rw [segmentEnd, terminator_ofCut]
  exact find?_markers (by omega) cut.parts

/-- The body of a block is the segment after its opener. -/
theorem slice_body (hopener : opener < stop) (h : slice lines (opener + 1) stop = cut.lines) :
    slice lines (opener + 1) ((ofCut kind opener cut).segmentEnd opener) = cut.body := by
  rw [Cut.lines, List.append_assoc, ← List.nil_append (cut.body ++ _)] at h
  rw [segmentEnd_ofCut]
  exact slice_middle hopener h

/-- The parts of a block are the segments after its markers. -/
theorem slices_parts (hopener : opener < stop) (h : slice lines (opener + 1) stop = cut.lines) :
    ((ofCut kind opener cut).branches.map fun marker =>
      (lines[marker]?, slice lines (marker + 1) ((ofCut kind opener cut).segmentEnd marker))) =
      cut.parts.map fun part => (some part.1, part.2) := by
  rw [Cut.lines, List.append_assoc] at h
  unfold segmentEnd
  rw [terminator_ofCut]
  exact map_markers hopener [] h rfl fun marker hmarker => absurd hmarker List.not_mem_nil

/-- The lines after a block are those after its terminator. -/
theorem slice_rest (h : slice lines (opener + 1) stop = cut.lines) :
    slice lines ((ofCut kind opener cut).terminator + 1) stop = cut.rest := by
  rw [Cut.lines, List.append_cons] at h
  have hend : opener + 1 + (cut.body ++ Cut.partLines cut.parts ++ [cut.terminator]).length =
      (ofCut kind opener cut).terminator + 1 := by
    rw [terminator_ofCut]
    simp only [List.length_append, List.length_singleton]
    omega
  rw [← hend]
  exact slice_of_append h

/-! ## Positions in a block -/

omit kind in
theorem markers_bounds {parts : List (Line × List Line)} {position marker : Nat}
    (h : marker ∈ markers position parts) :
    position ≤ marker ∧ marker < position + (Cut.partLines parts).length := by
  induction parts generalizing position with
  | nil => cases h
  | cons part parts ih =>
    rw [Cut.partLines_cons, List.length_append, List.length_cons]
    rcases List.mem_cons.1 h with rfl | h
    · omega
    · have hbounds := ih h
      omega

/-- The markers of parts follow one another. -/
theorem pairwise_markers (position : Nat) (parts : List (Line × List Line)) :
    (markers position parts).Pairwise (· < ·) := by
  induction parts generalizing position with
  | nil => exact .nil
  | cons part parts ih =>
    refine .cons (fun marker hmarker => ?_) (ih _)
    have hbounds := markers_bounds hmarker
    omega

/-- No marker stands inside a segment. -/
theorem not_mem_branches {span : Span} (hsorted : span.branches.Pairwise (· < ·))
    {marker position : Nat} (hafter : marker < position) (hbefore : position < span.segmentEnd marker) :
    position ∉ span.branches := by
  intro hmem
  unfold segmentEnd at hbefore
  cases hfind : span.branches.find? (marker < ·) with
  | none => exact absurd hafter (by simpa using List.find?_eq_none.1 hfind position hmem)
  | some next =>
    rw [hfind] at hbefore
    obtain ⟨-, front, back, hbranches, hfront⟩ := List.find?_eq_some_iff_append.1 hfind
    rw [hbranches] at hmem hsorted
    rcases List.mem_append.1 hmem with hmem | hmem
    · exact absurd hafter (by simpa using hfront position hmem)
    · rcases List.mem_cons.1 hmem with rfl | hmem
      · exact Nat.lt_irrefl _ hbefore
      · have hnext := List.rel_of_pairwise_cons (List.pairwise_append.1 hsorted).2.1 hmem
        exact Nat.lt_asymm hnext hbefore

/-- A segment ends before all later markers. -/
theorem segmentEnd_le {span : Span} (hsorted : span.branches.Pairwise (· < ·))
    {marker position : Nat} (hbefore : marker < position) (hposition : position ∈ span.branches) :
    span.segmentEnd marker ≤ position :=
  Nat.le_of_not_lt fun hlt => not_mem_branches hsorted hbefore hlt hposition

/-- Whatever the lines are, a block ends inside the range that it is found in. -/
theorem terminator_lt {span : Span} (h : find lines opener stop = .ok span) :
    span.terminator < stop := by
  obtain ⟨-, kind, cut, -, -, hcut, rfl⟩ := exists_cut_of_find h
  have hlength := congrArg List.length (Cut.lines_cut hcut)
  rw [Cut.length_lines, slice, List.length_drop, List.length_take] at hlength
  rw [terminator_ofCut]
  omega

/-- Whatever the lines are, the segments of a block stand one after the other inside it: each begins
after the opener and ends behind its marker, at the terminator at the latest. -/
theorem segment_bounds {span : Span} (h : find lines opener stop = .ok span) {marker : Nat}
    (hmarker : marker = opener ∨ marker ∈ span.branches) :
    opener ≤ marker ∧ marker < span.segmentEnd marker ∧
      span.segmentEnd marker ≤ span.terminator := by
  obtain ⟨-, kind, cut, -, -, -, rfl⟩ := exists_cut_of_find h
  have hbranches : ∀ other ∈ (ofCut kind opener cut).branches,
      opener < other ∧ other < (ofCut kind opener cut).terminator := by
    intro other hother
    have hbounds := markers_bounds hother
    rw [terminator_ofCut]
    omega
  have hbefore : opener ≤ marker ∧ marker < (ofCut kind opener cut).terminator := by
    rcases hmarker with rfl | hmarker
    · rw [terminator_ofCut]
      omega
    · have hbounds := hbranches marker hmarker
      omega
  refine ⟨hbefore.1, ?_⟩
  unfold segmentEnd
  cases hnext : (ofCut kind opener cut).branches.find? (marker < ·) with
  | none => exact ⟨hbefore.2, Nat.le_refl _⟩
  | some next =>
    have hafter := List.find?_some hnext
    have hbounds := hbranches next (List.mem_of_find?_eq_some hnext)
    exact ⟨of_decide_eq_true hafter, Nat.le_of_lt hbounds.2⟩

end Span

end BatchScript
