import BatchScript.Block.Cut
import BatchScript.Execution.Block

/-!
# Segments

Running a segment of a script: its lines one after the other, under a policy that `@onerror` changes
for the rest of the segment. Where a block opens, the rest of the segment is cut at the end of the
block, the parts of the block are run as segments of their own, and the run goes on after the block.
No block tree is built before the run: a fault in the block structure shows only when the run
reaches it.
-/

namespace BatchScript.Interpreter

variable {σ : Type} (interpreter : Interpreter σ)

/-- Runs the lines of a segment. -/
def run (lines : List Line) (policy : Policy) : Run σ Flow :=
  match lines with
  | [] => return .completed
  | line :: rest =>
    match Directive.opening? line with
    | none => do
      match ← interpreter.step line policy with
      | some next => run rest next
      | none => return .stopped
    | some opening =>
      match _hcut : cutBlock opening.kind 0 rest with
      | none => .fail (.parse line.number (.unmatched opening.kind line.number))
      | some cut => do
        let parts := cut.parts.attach.map fun ⟨part, _⟩ => (part.1, run part.2)
        match ← interpreter.block line opening (run cut.body) parts policy with
        | .completed => run cut.rest policy
        | .stopped => return .stopped
termination_by lines.length
decreasing_by
  all_goals rw [List.length_cons]
  · exact Nat.lt_succ_self _
  · exact Nat.lt_succ_of_lt (Cut.length_of_mem_parts _hcut (by assumption))
  · exact Nat.lt_succ_of_lt (Cut.length_body_lt _hcut)
  · exact Nat.lt_succ_of_lt (Cut.length_rest_lt _hcut)

/-! ## Equations -/

theorem run_nil (policy : Policy) : interpreter.run [] policy = return .completed := by
  rw [run]

/-- A line that opens no block runs by itself. -/
theorem run_cons_of_opening?_eq_none {line : Line} (h : Directive.opening? line = none)
    (rest : List Line) (policy : Policy) :
    interpreter.run (line :: rest) policy = (do
      match ← interpreter.step line policy with
      | some next => interpreter.run rest next
      | none => return .stopped) := by
  rw [run]
  split
  · rfl
  · simp_all

/-- A block that is never closed is a fault. -/
theorem run_cons_of_cutBlock_eq_none {line : Line} {opening : Opening} {rest : List Line}
    (h : Directive.opening? line = some opening) (hcut : cutBlock opening.kind 0 rest = none)
    (policy : Policy) :
    interpreter.run (line :: rest) policy =
      .fail (.parse line.number (.unmatched opening.kind line.number)) := by
  rw [run]
  split
  · simp_all
  · next opening' h' =>
    obtain rfl : opening = opening' := by simpa [h] using h'
    split
    · rfl
    · simp_all

/-- A block runs as its kind says, and then the lines after it. -/
theorem run_cons_of_cutBlock_eq_some {line : Line} {opening : Opening} {rest : List Line}
    {cut : Cut} (h : Directive.opening? line = some opening)
    (hcut : cutBlock opening.kind 0 rest = some cut) (policy : Policy) :
    interpreter.run (line :: rest) policy = (do
      match ← interpreter.block line opening (interpreter.run cut.body)
          (cut.parts.map fun part => (part.1, interpreter.run part.2)) policy with
      | .completed => interpreter.run cut.rest policy
      | .stopped => return .stopped) := by
  rw [run]
  split
  · simp_all
  · next opening' h' =>
    obtain rfl : opening = opening' := by simpa [h] using h'
    split
    · simp_all
    · next cut' hcut' =>
      obtain rfl : cut = cut' := by simpa [hcut] using hcut'
      have hparts := cut.parts.attach_map_val (f := fun part => (part.1, interpreter.run part.2))
      exact congrArg (fun parts => interpreter.block line opening (interpreter.run cut.body) parts
        policy >>= _) hparts

/-! ## Ranges -/

/-- Runs all lines of a script under the policy of the settings. -/
def runAll (lines : List Line) : Run σ Flow :=
  interpreter.run lines (.ofFlag interpreter.settings.continueOnError)

/-- Runs the lines from one position on and before another one. -/
def runRange (lines : List Line) (start stop : Nat) (policy : Policy) : Run σ Flow :=
  interpreter.run ((lines.take stop).drop start) policy

end BatchScript.Interpreter
