import BatchScript.Block.Span
import BatchScript.Script
import BatchScript.Text.Blank

/-!
# Explanations

The block structure of a script in words: one entry for each block, indented under the blocks that
contain it.
-/

namespace BatchScript.Explanation

/-- The number of spans that strictly contain a span. -/
def depth (spans : List Span) (span : Span) : Nat :=
  spans.countP fun outer => outer.opener < span.opener && span.terminator < outer.terminator

/-- The number that the line at a position has. -/
def numberAt (lines : List Line) (position : Nat) : Nat :=
  (lines[position]?).elim 0 Line.number

/-- The part of an entry that repeats the condition or the list of the opener. -/
def heading (opener : Line) : String :=
  match opener.content with
  | .directive _ body => if body = "" then "" else ": " ++ body
  | _ => ""

/-- The part of an entry that names a marker. -/
def marker (line : Line) : String :=
  ", @" ++ line.keyword?.getD "" ++ s!" at {line.number}"

/-- The entry of one block. -/
def entry (lines : List Line) (spans : List Span) (span : Span) : String :=
  let indent := String.ofList (List.replicate (2 * depth spans span) ' ')
  let first := numberAt lines span.opener
  let last := numberAt lines span.terminator
  s!"{indent}{span.kind.display} lines {first}-{last}" ++
    (lines[span.opener]?).elim "" heading ++
    String.join (span.branches.map fun position => (lines[position]?).elim "" marker)

/-- The entries of all blocks of a script. -/
def ofLines (lines : List Line) : Except Failure (List String) :=
  (Span.outline lines).map fun spans => spans.map (entry lines spans)

end BatchScript.Explanation
