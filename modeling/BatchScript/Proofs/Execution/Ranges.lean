import BatchScript.Execution.Segment
import BatchScript.Proofs.Block.Reading
import BatchScript.Proofs.Block.Slice

/-!
# Runs between positions

Running the lines between two positions of a script goes from line to line. Where a block opens, its
span is looked for before the end of the range, and the block gets the ranges of its segments
(`runRange_of_find_eq_ok`). No tree is built: all ranges are ranges of the same list of lines.
-/

namespace BatchScript.Interpreter

variable {σ : Type} (interpreter : Interpreter σ) {lines : List Line} {line : Line}
  {start stop : Nat}

/-- What runs the segments after the markers of a span. -/
def segments (lines : List Line) (span : Span) : List (Line × Body σ) :=
  span.branches.filterMap fun marker => (lines[marker]?).map fun line =>
    (line, interpreter.runRange lines (marker + 1) (span.segmentEnd marker))

theorem exists_of_mem_segments {span : Span} {part : Line × Body σ}
    (h : part ∈ interpreter.segments lines span) :
    ∃ marker ∈ span.branches, lines[marker]? = some part.1 ∧
      interpreter.runRange lines (marker + 1) (span.segmentEnd marker) = part.2 := by
  obtain ⟨marker, hmarker, hpart⟩ := List.mem_filterMap.1 h
  obtain ⟨line, hline, rfl⟩ := Option.map_eq_some_iff.1 hpart
  exact ⟨marker, hmarker, hline, rfl⟩

theorem runRange_of_le (h : stop ≤ start) (policy : Policy) :
    interpreter.runRange lines start stop policy = return .completed := by
  have hnil : (lines.take stop).drop start = [] := slice_of_le h
  rw [runRange, hnil, run_nil]

/-- All lines are a range. -/
theorem run_eq_runRange (policy : Policy) :
    interpreter.run lines policy = interpreter.runRange lines 0 lines.length policy := by
  have hall : (lines.take lines.length).drop 0 = lines := slice_length
  rw [runRange, hall]

/-- A line that opens no block is run by itself. -/
theorem runRange_of_opening?_eq_none (hline : lines[start]? = some line) (hstart : start < stop)
    (hopening : Directive.opening? line = none) (policy : Policy) :
    interpreter.runRange lines start stop policy = (do
      match ← interpreter.step line policy with
      | some next => interpreter.runRange lines (start + 1) stop next
      | none => return .stopped) := by
  have hcons : (lines.take stop).drop start = line :: slice lines (start + 1) stop :=
    slice_cons hline hstart
  rw [runRange, hcons, run_cons_of_opening?_eq_none _ hopening]
  rfl

/-- The segments after the markers are the parts of the cut that the span was made from. -/
theorem segments_ofCut (kind : BlockKind) {cut : Cut} (hstart : start < stop)
    (hlines : slice lines (start + 1) stop = cut.lines) :
    interpreter.segments lines (Span.ofCut kind start cut) =
      cut.parts.map fun part => (part.1, interpreter.run part.2) := by
  have hslices := congrArg (List.filterMap fun segment : Option Line × List Line =>
    segment.1.map fun line => (line, interpreter.run segment.2))
    (Span.slices_parts kind hstart hlines)
  rw [List.filterMap_map, List.filterMap_map] at hslices
  exact hslices.trans (congrFun List.filterMap_eq_map _)

section Opener

variable {opening : Opening} (hline : lines[start]? = some line) (hstart : start < stop)
  (hopening : Directive.opening? line = some opening)

include hline hstart hopening

/-- A block whose terminator does not stand before the end of the range is a fault. -/
theorem runRange_of_find_eq_error {failure : Failure}
    (hfind : Span.find lines start stop = .error failure) (policy : Policy) :
    interpreter.runRange lines start stop policy = .fail failure := by
  have hcons : (lines.take stop).drop start = line :: slice lines (start + 1) stop :=
    slice_cons hline hstart
  rw [Span.find_of_opens hline (Directive.role_of_opening? hopening)] at hfind
  split at hfind <;> cases hfind
  next hcut => rw [runRange, hcons, run_cons_of_cutBlock_eq_none _ hopening hcut]

/-- A block is run on the segments of its span, and then the lines after it. -/
theorem runRange_of_find_eq_ok {span : Span} (hfind : Span.find lines start stop = .ok span)
    (policy : Policy) :
    interpreter.runRange lines start stop policy = (do
      match ← interpreter.block line opening
          (interpreter.runRange lines (start + 1) (span.segmentEnd start))
          (interpreter.segments lines span) policy with
      | .completed => interpreter.runRange lines (span.terminator + 1) stop policy
      | .stopped => return .stopped) := by
  have hcons : (lines.take stop).drop start = line :: slice lines (start + 1) stop :=
    slice_cons hline hstart
  rw [Span.find_of_opens hline (Directive.role_of_opening? hopening)] at hfind
  split at hfind <;> cases hfind
  next cut hcut =>
    have hlines : slice lines (start + 1) stop = cut.lines := (Cut.lines_cut hcut).symm
    have hbody : interpreter.runRange lines (start + 1)
        ((Span.ofCut opening.kind start cut).segmentEnd start) = interpreter.run cut.body :=
      congrArg interpreter.run (Span.slice_body _ hstart hlines)
    have hrest : interpreter.runRange lines ((Span.ofCut opening.kind start cut).terminator + 1)
        stop = interpreter.run cut.rest :=
      congrArg interpreter.run (Span.slice_rest _ hlines)
    have hparts : interpreter.segments lines (Span.ofCut opening.kind start cut) =
        cut.parts.map fun part => (part.1, interpreter.run part.2) :=
      interpreter.segments_ofCut opening.kind hstart hlines
    have hrun := interpreter.run_cons_of_cutBlock_eq_some hopening hcut policy
    rw [← hbody, ← hrest, ← hparts] at hrun
    rw [runRange, hcons]
    exact hrun

end Opener

end BatchScript.Interpreter
