import BatchScript.Proofs.Block.Check
import BatchScript.Proofs.Block.Tree

/-!
# Trees of accepted lines

Accepted lines form a block tree that is nested no deeper than allowed (`exists_ofLines?`). The
invariant is that the blocks that the validator has open before a line are those that reading the
lines after it from the end has left to be opened (`Meets`).
-/

namespace BatchScript

namespace Validation

/-- The parts that have been read of a block from its end are such as may follow the markers that
the block has had before. -/
def Follows (seen : List Branch) : Frame → Prop
  | .conditional elifs otherwise _ =>
    seen.contains .otherwise → elifs = .nil ∧ otherwise = .absent
  | .foreach _ | .loop _ => True
  | .attempt handler cleanup _ =>
    (seen.contains .finally → handler = .absent ∧ cleanup = .absent) ∧
      (seen.contains .catch → handler = .absent)

end Validation

/-- The kind of a block. -/
def Frame.kind : Frame → BlockKind
  | .conditional .. => .conditional
  | .foreach _ => .foreach
  | .loop _ => .loop
  | .attempt .. => .attempt

/-- The number of blocks that are nested in one another in some part that has been read. -/
def Frame.height : Frame → Nat
  | .conditional elifs otherwise _ => max elifs.height otherwise.height
  | .foreach _ | .loop _ => 0
  | .attempt handler cleanup _ => max handler.height cleanup.height

namespace Validation

/-- The blocks that the validator has open and those that are still to be opened are the same, and
none of the sequences that have been read is nested too deep where it stands. -/
def Meets (limits : Limits) : List OpenBlock → Tree → List (Frame × Tree) → Prop
  | [], tree, [] => tree.height ≤ limits.maxNestingDepth
  | top :: outer, tree, (frame, after) :: frames =>
    top.kind = frame.kind ∧ Follows top.seen frame ∧
      max tree.height frame.height + (outer.length + 1) ≤ limits.maxNestingDepth ∧
      Meets limits outer after frames
  | _, _, _ => False

end Validation

namespace Frame

@[simp] theorem kind_ofCloser {kind : BlockKind} (closer : LineOf (.closes kind)) :
    (ofCloser closer).kind = kind := by
  cases kind <;> rfl

@[simp] theorem height_ofCloser {kind : BlockKind} (closer : LineOf (.closes kind)) :
    (ofCloser closer).height = 0 := by
  cases kind <;> rfl

theorem follows_ofCloser {kind : BlockKind} (closer : LineOf (.closes kind)) (seen : List Branch) :
    Validation.Follows seen (ofCloser closer) := by
  cases kind <;> simp [ofCloser, Validation.Follows]

/-- An opener of the kind of a block that is still to be opened opens it. -/
theorem exists_open? {frame : Frame} {opening : Opening} (line : LineOf (.opens opening))
    (body : Tree) (h : opening.kind = frame.kind) :
    ∃ node, frame.open? line body = some node ∧
      node.height = max body.height frame.height + 1 := by
  cases opening <;> cases frame <;> cases h <;>
    exact ⟨_, rfl, by simp [Node.height, height]⟩

/-- A marker that the validator lets pass divides a block that is still to be opened. -/
theorem exists_divide? {frame : Frame} {marker : Marker} (line : LineOf (.divides marker))
    (body : Tree) {seen : List Branch} (hkind : frame.kind = marker.branch.kind)
    (free : Validation.markerFault? seen marker.branch = none)
    (follows : Validation.Follows (marker.branch :: seen) frame) :
    ∃ divided, frame.divide? line body = some divided ∧ divided.kind = frame.kind ∧
      Validation.Follows seen divided ∧ divided.height = max body.height frame.height := by
  cases marker with
  | elif condition =>
    cases frame with
    | conditional elifs otherwise closer =>
      have hseen : seen.contains .otherwise = false := by
        simpa [Validation.markerFault?, Marker.branch] using free
      refine ⟨_, rfl, rfl, fun h => ?_, ?_⟩
      · rw [hseen] at h
        cases h
      · simp [height, Elifs.height, Nat.max_assoc]
    | foreach | loop | attempt => cases hkind
  | otherwise =>
    cases frame with
    | conditional elifs otherwise closer =>
      have hseen : seen.contains .otherwise = false := by
        simpa [Validation.markerFault?, Marker.branch] using free
      obtain ⟨rfl, rfl⟩ := follows (by simp [Marker.branch])
      refine ⟨_, rfl, rfl, fun h => ?_, ?_⟩
      · rw [hseen] at h
        cases h
      · simp [height, Elifs.height, Clause.height]
    | foreach | loop | attempt => cases hkind
  | «catch» =>
    cases frame with
    | attempt handler cleanup closer =>
      obtain rfl := follows.2 (by simp [Marker.branch])
      have hseen : seen.contains .finally = false ∧ seen.contains .catch = false := by
        simp only [Validation.markerFault?, Marker.branch] at free
        split at free <;> simp_all
      refine ⟨_, rfl, rfl, ⟨fun h => ?_, fun h => ?_⟩, ?_⟩
      · rw [hseen.1] at h
        cases h
      · rw [hseen.2] at h
        cases h
      · simp [height, Clause.height]
    | foreach | loop | conditional => cases hkind
  | «finally» =>
    cases frame with
    | attempt handler cleanup closer =>
      obtain ⟨rfl, rfl⟩ := follows.1 (by simp [Marker.branch])
      have hseen : seen.contains .finally = false := by
        simpa [Validation.markerFault?, Marker.branch] using free
      refine ⟨_, rfl, rfl, ⟨fun h => ?_, fun _ => rfl⟩, ?_⟩
      · rw [hseen] at h
        cases h
      · simp [height, Clause.height]
    | foreach | loop | conditional => cases hkind

end Frame

namespace Validation

/-- A node in front of what has been read. -/
theorem Meets.cons {limits : Limits} {blocks : List OpenBlock} {tree : Tree}
    {frames : List (Frame × Tree)} (h : Meets limits blocks tree frames) {node : Node}
    (hnode : node.height + blocks.length ≤ limits.maxNestingDepth) :
    Meets limits blocks (.cons node tree) frames := by
  match blocks, frames with
  | [], [] => exact Nat.max_le.2 ⟨hnode, h⟩
  | top :: outer, (frame, after) :: frames =>
    obtain ⟨hkind, hfollows, hheight, hrest⟩ := h
    refine ⟨hkind, hfollows, ?_, hrest⟩
    rw [List.length_cons] at hnode
    simp only [Tree.height]
    omega
  | [], _ :: _ | _ :: _, [] => cases h

/-- What has been read from the end meets the open blocks of the validator also after one more line
that the validator lets pass. -/
theorem Advance.exists_read? {limits : Limits} {line : Line} {blocks next : List OpenBlock}
    (h : Advance limits line blocks next) (hroom : blocks.length ≤ limits.maxNestingDepth)
    {pending : Pending} (hmeets : Meets limits next pending.tree pending.frames) :
    ∃ before, pending.read? line = some before ∧ Meets limits blocks before.tree before.frames := by
  obtain ⟨tree, frames⟩ := pending
  dsimp only at hmeets
  cases h with
  | text plain =>
    refine ⟨_, dif_pos plain, hmeets.cons ?_⟩
    simpa [Node.height] using hroom
  | @simple _ directive reads plain =>
    rw [Pending.read?_of_ofLine reads]
    cases directive with
    | opens | divides | closes => cases plain
    | set | exported | unset | echo | onError =>
      refine ⟨_, rfl, hmeets.cons ?_⟩
      simpa [Node.height] using hroom
  | @opens _ opening reads room =>
    rw [Pending.read?_of_ofLine reads]
    cases frames with
    | nil => cases hmeets
    | cons top frames =>
      obtain ⟨frame, after⟩ := top
      obtain ⟨hkind, -, hheight, hrest⟩ := hmeets
      obtain ⟨node, hopen, hnode⟩ := frame.exists_open? ⟨line, reads⟩ tree hkind
      refine ⟨⟨.cons node after, frames⟩, by simp [Pending.push?, hopen], hrest.cons ?_⟩
      rw [hnode]
      omega
  | @divides top outer marker reads same free =>
    rw [Pending.read?_of_ofLine reads]
    cases frames with
    | nil => cases hmeets
    | cons top frames =>
      obtain ⟨frame, after⟩ := top
      obtain ⟨hkind, hfollows, hheight, hrest⟩ := hmeets
      obtain ⟨divided, hdivide, hkind', hfollows', hheight'⟩ :=
        frame.exists_divide? ⟨line, reads⟩ tree (hkind.symm.trans same) free hfollows
      refine ⟨⟨.nil, (divided, after) :: frames⟩, by simp [Pending.push?, hdivide],
        hkind.trans hkind'.symm, hfollows', ?_, hrest⟩
      rw [hheight']
      simp only [Tree.height]
      omega
  | @closes top outer reads =>
    rw [Pending.read?_of_ofLine reads]
    refine ⟨_, rfl, (Frame.kind_ofCloser _).symm, Frame.follows_ofCloser _ _, ?_, hmeets⟩
    simpa [Tree.height] using hroom

theorem Advance.length_le {limits : Limits} {line : Line} {blocks next : List OpenBlock}
    (h : Advance limits line blocks next) (hroom : blocks.length ≤ limits.maxNestingDepth) :
    next.length ≤ limits.maxNestingDepth := by
  cases h with
  | text | simple | divides => exact hroom
  | opens _ room => exact room
  | closes => exact Nat.le_of_succ_le hroom

/-- Lines that are accepted when some blocks are open can be read from the end, and what has been
read meets the open blocks. -/
theorem exists_pending_of_accepts {limits : Limits} {blocks : List OpenBlock} {lines : List Line}
    (h : Accepts limits blocks lines) (hroom : blocks.length ≤ limits.maxNestingDepth) :
    ∃ pending, Pending.ofLines? lines = some pending ∧
      Meets limits blocks pending.tree pending.frames := by
  induction lines generalizing blocks with
  | nil =>
    obtain rfl := accepts_nil_iff.1 h
    exact ⟨{}, rfl, Nat.zero_le _⟩
  | cons line rest ih =>
    obtain ⟨next, hline, hrest⟩ := accepts_cons_iff.1 h
    obtain ⟨pending, hpending, hmeets⟩ := ih hrest (hline.length_le hroom)
    obtain ⟨before, hread, hbefore⟩ := hline.exists_read? hroom hmeets
    exact ⟨before, by simp [Pending.ofLines?, hpending, hread], hbefore⟩

/-- Accepted lines form a block tree that is nested no deeper than allowed. -/
theorem exists_ofLines? {limits : Limits} {lines : List Line} (h : Accepts limits [] lines) :
    ∃ tree, Tree.ofLines? lines = some tree ∧ tree.height ≤ limits.maxNestingDepth := by
  obtain ⟨⟨tree, frames⟩, hpending, hmeets⟩ := exists_pending_of_accepts h (Nat.zero_le _)
  cases frames with
  | nil => exact ⟨tree, by simp [Tree.ofLines?, hpending], hmeets⟩
  | cons => cases hmeets

end Validation

end BatchScript
