import BatchScript.Block.Cut

/-!
# Spans of blocks

Where a block stands in a script: the positions of its opener, of the markers that divide it and of
its terminator, counted from zero. A span is found by cutting the lines after the opener.
-/

namespace BatchScript

/-- The place of one block in a list of lines. -/
structure Span where
  kind : BlockKind
  opener : Nat
  terminator : Nat
  branches : List Nat
deriving DecidableEq, Repr

namespace Span

/-- The end of the part that starts after a marker: the next marker, else the terminator. The
opener counts as a marker. -/
def segmentEnd (span : Span) (marker : Nat) : Nat :=
  (span.branches.find? (marker < ·)).getD span.terminator

/-- The position of the first marker of a branch. -/
def branch? (span : Span) (lines : List Line) (branch : Branch) : Option Nat :=
  span.branches.find? fun marker =>
    (lines[marker]?).any fun line => line.role = .divides branch

/-! ## Finding -/

/-- The positions of the markers of parts, the first of which stands at `position`. -/
def markers (position : Nat) : List (Line × List Line) → List Nat
  | [] => []
  | (_, part) :: rest => position :: markers (position + 1 + part.length) rest

/-- The span of the block that is opened at a position and cut from the lines after it. -/
def ofCut (kind : BlockKind) (opener : Nat) (cut : Cut) : Span where
  kind := kind
  opener := opener
  terminator := opener + 1 + cut.size
  branches := markers (opener + 1 + cut.body.length) cut.parts

/-- Finds the block that is opened at a position, without looking at the lines from `stop` on. -/
def find (lines : List Line) (opener stop : Nat) : Except Failure Span :=
  match lines[opener]? with
  | none => .error (.parse 0 (.noSuchLine opener))
  | some line =>
    match line.role with
    | .opens kind =>
      match cutBlock kind 0 ((lines.take stop).drop (opener + 1)) with
      | some cut => .ok (ofCut kind opener cut)
      | none => .error (.parse line.number (.unmatched kind line.number))
    | _ => .error (.parse line.number (.opensNothing line.text))

/-! ## Outlines -/

/-- Whether a line opens a block. -/
def isOpener (line : Line) : Bool :=
  match line.role with
  | .opens _ => true
  | _ => false

/-- The positions of the lines that open blocks. -/
def openers (lines : List Line) : List Nat :=
  (List.range lines.length).filter fun position => (lines[position]?).any isOpener

/-- The spans of all blocks, in the order of their openers. -/
def outline (lines : List Line) : Except Failure (List Span) :=
  (openers lines).mapM fun opener => find lines opener lines.length

end Span

end BatchScript
