import BatchScript.Proofs.Block.Nesting

/-!
# Nested lines

The lines of a block tree, seen through the roles of the lines alone (`Nested`): every opener stands
before a cut whose parts are nested themselves, whose markers its kind admits in their order, and
whose terminator is of its kind. Accepted lines are nested no deeper than allowed
(`Validation.Accepts.nested`).
-/

namespace BatchScript

/-! ## Nested lines -/

/-- The orders in which the markers of a block may stand: any number of `@elif` and then at most one
`@else`; at most one `@catch` and then at most one `@finally`. -/
def BlockKind.Admits : BlockKind → List Branch → Prop
  | .conditional, branches =>
    ∃ count last, branches = List.replicate count .elif ++ last ∧ last.Sublist [.otherwise]
  | .attempt, branches => branches.Sublist [.catch, .finally]
  | .foreach, branches | .loop, branches => branches = []

theorem BlockKind.Admits.kind_eq {kind : BlockKind} {branches : List Branch}
    (h : kind.Admits branches) {branch : Branch} (hbranch : branch ∈ branches) :
    branch.kind = kind := by
  cases kind with
  | conditional =>
    obtain ⟨count, last, rfl, hlast⟩ := h
    rcases List.mem_append.1 hbranch with hbranch | hbranch
    · rw [List.eq_of_mem_replicate hbranch]
      rfl
    · rw [List.mem_singleton.1 (hlast.subset hbranch)]
      rfl
  | attempt =>
    have hmem := List.Sublist.subset h hbranch
    simp only [List.mem_cons, List.not_mem_nil, or_false] at hmem
    rcases hmem with rfl | rfl <;> rfl
  | foreach | loop =>
    rw [h] at hbranch
    cases hbranch

/-- A cut is that of a block of a kind: its markers may stand in their order, and its terminator
ends such a block. -/
structure Cut.Fits (cut : Cut) (kind : BlockKind) : Prop where
  markers : ∃ branches, kind.Admits branches ∧ cut.parts.map (·.1.role) = branches.map .divides
  closer : cut.terminator.role = .closes kind

theorem Cut.Fits.exists_branch {cut : Cut} {kind : BlockKind} (h : cut.Fits kind) :
    ∀ part ∈ cut.parts, ∃ branch : Branch, part.1.role = .divides branch ∧ branch.kind = kind := by
  intro part hpart
  obtain ⟨branches, hadmits, hroles⟩ := h.markers
  have hmem : part.1.role ∈ branches.map Role.divides :=
    hroles ▸ List.mem_map_of_mem (f := fun part : Line × List Line => part.1.role) hpart
  obtain ⟨branch, hbranch, hrole⟩ := List.mem_map.1 hmem
  exact ⟨branch, hrole.symm, hadmits.kind_eq hbranch⟩

/-- Lines whose blocks are nested properly, and at most `depth` deep. -/
inductive Nested : Nat → List Line → Prop where
  | nil {depth : Nat} : Nested depth []
  | line {depth : Nat} {line : Line} {rest : List Line} (plain : line.role = .plain)
      (hrest : Nested depth rest) : Nested depth (line :: rest)
  | block {depth : Nat} {kind : BlockKind} {opener : Line} {cut : Cut}
      (hopener : opener.role = .opens kind) (hfits : cut.Fits kind)
      (hbody : Nested depth cut.body) (hparts : ∀ part ∈ cut.parts, Nested depth part.2)
      (hrest : Nested (depth + 1) cut.rest) : Nested (depth + 1) (opener :: cut.lines)

/-! ## Blocks of trees -/

theorem LineOf.role_eq {directive : Directive} (line : LineOf directive) :
    line.line.role = directive.role :=
  Directive.role_of_ofLine line.reads

theorem Elifs.markers (elifs : Elifs) :
    ∃ count, elifs.parts.map (·.1.role) = (List.replicate count Branch.elif).map .divides := by
  match elifs with
  | .nil => exact ⟨0, rfl⟩
  | .cons marker body others =>
    obtain ⟨count, hcount⟩ := others.markers
    refine ⟨count + 1, ?_⟩
    rw [Elifs.parts, List.map_cons, hcount, marker.role_eq]
    rfl

theorem Clause.markers {marker : Marker} (clause : Clause marker) :
    ∃ branches : List Branch, branches.Sublist [marker.branch] ∧
      clause.parts.map (·.1.role) = branches.map .divides := by
  cases clause with
  | absent => exact ⟨[], List.nil_sublist _, rfl⟩
  | present line body =>
    refine ⟨[marker.branch], List.Sublist.refl _, ?_⟩
    rw [Clause.parts, List.map_singleton, line.role_eq]
    rfl

namespace Cut

variable {body rest : List Line}

theorem fits_conditional (elifs : Elifs) (otherwise : Clause .otherwise)
    (closer : LineOf (.closes .conditional)) :
    Fits ⟨body, elifs.parts ++ otherwise.parts, closer.line, rest⟩ .conditional := by
  obtain ⟨count, hcount⟩ := elifs.markers
  obtain ⟨last, hlast, hrole⟩ := otherwise.markers
  exact ⟨⟨_, ⟨count, last, rfl, hlast⟩, by simp [hcount, hrole]⟩, closer.role_eq⟩

theorem fits_attempt (handler : Clause .catch) (cleanup : Clause .finally)
    (closer : LineOf (.closes .attempt)) :
    Fits ⟨body, handler.parts ++ cleanup.parts, closer.line, rest⟩ .attempt := by
  obtain ⟨first, hfirst, hrole⟩ := handler.markers
  obtain ⟨last, hlast, hrole'⟩ := cleanup.markers
  exact ⟨⟨first ++ last, hfirst.append hlast, by simp [hrole, hrole']⟩, closer.role_eq⟩

theorem fits_foreach (closer : LineOf (.closes .foreach)) :
    Fits ⟨body, [], closer.line, rest⟩ .foreach :=
  ⟨⟨[], rfl, rfl⟩, closer.role_eq⟩

theorem fits_loop (closer : LineOf (.closes .loop)) :
    Fits ⟨body, [], closer.line, rest⟩ .loop :=
  ⟨⟨[], rfl, rfl⟩, closer.role_eq⟩

end Cut

mutual

/-- A node in front of nested lines, with its blocks not too deep. -/
theorem Node.nested {depth : Nat} (node : Node) (h : node.height ≤ depth) {rest : List Line}
    (hrest : Nested depth rest) : Nested depth (node.lines ++ rest) := by
  cases node with
  | text line plain => exact .line (Line.role_of_keyword?_eq_none plain) hrest
  | simple line plain => exact .line (line.role_eq.trans plain) hrest
  | conditional opener body elifs otherwise closer =>
    obtain ⟨depth, rfl, hheight⟩ := exists_depth_of_succ_le h
    obtain ⟨hbody, hparts⟩ := Nat.max_le.1 hheight
    obtain ⟨helifs, hotherwise⟩ := Nat.max_le.1 hparts
    rw [Node.lines_conditional]
    exact .block opener.role_eq (Cut.fits_conditional elifs otherwise closer) (body.nested hbody)
      (List.forall_mem_append.2 ⟨elifs.nested helifs, otherwise.nested hotherwise⟩) hrest
  | foreach opener body closer =>
    obtain ⟨depth, rfl, hheight⟩ := exists_depth_of_succ_le h
    rw [Node.lines_foreach]
    exact .block opener.role_eq (Cut.fits_foreach closer) (body.nested hheight)
      (fun part hpart => absurd hpart List.not_mem_nil) hrest
  | loop opener body closer =>
    obtain ⟨depth, rfl, hheight⟩ := exists_depth_of_succ_le h
    rw [Node.lines_loop]
    exact .block opener.role_eq (Cut.fits_loop closer) (body.nested hheight)
      (fun part hpart => absurd hpart List.not_mem_nil) hrest
  | attempt opener body handler cleanup closer =>
    obtain ⟨depth, rfl, hheight⟩ := exists_depth_of_succ_le h
    obtain ⟨hbody, hparts⟩ := Nat.max_le.1 hheight
    obtain ⟨hhandler, hcleanup⟩ := Nat.max_le.1 hparts
    rw [Node.lines_attempt]
    exact .block opener.role_eq (Cut.fits_attempt handler cleanup closer) (body.nested hbody)
      (List.forall_mem_append.2 ⟨handler.nested hhandler, cleanup.nested hcleanup⟩) hrest

theorem Tree.nested {depth : Nat} (tree : Tree) (h : tree.height ≤ depth) :
    Nested depth tree.lines := by
  cases tree with
  | nil => exact .nil
  | cons node rest =>
    obtain ⟨hnode, hrest⟩ := Nat.max_le.1 h
    exact node.nested hnode (rest.nested hrest)

theorem Elifs.nested {depth : Nat} (elifs : Elifs) (h : elifs.height ≤ depth) :
    ∀ part ∈ elifs.parts, Nested depth part.2 := by
  cases elifs with
  | nil => exact fun part hpart => absurd hpart List.not_mem_nil
  | cons marker body others =>
    obtain ⟨hbody, hothers⟩ := Nat.max_le.1 h
    exact List.forall_mem_cons.2 ⟨body.nested hbody, others.nested hothers⟩

theorem Clause.nested {depth : Nat} {marker : Marker} (clause : Clause marker)
    (h : clause.height ≤ depth) : ∀ part ∈ clause.parts, Nested depth part.2 := by
  cases clause with
  | absent => exact fun part hpart => absurd hpart List.not_mem_nil
  | present line body => exact List.forall_mem_singleton.2 (body.nested h)

end

/-- Accepted lines are nested no deeper than allowed. -/
theorem Validation.Accepts.nested {limits : Limits} {lines : List Line}
    (h : Accepts limits [] lines) : Nested limits.maxNestingDepth lines := by
  obtain ⟨tree, htree, hheight⟩ := exists_ofLines? h
  rw [← Tree.lines_of_ofLines? htree]
  exact tree.nested hheight

end BatchScript
