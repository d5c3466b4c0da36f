import BatchScript.Proofs.Block.Nested

/-!
# Matching nested blocks

On nested lines the depth counter of `cutBlock`, which knows only one kind, finds the cut that the
nesting gives (`cutBlock_lines`). The reason is that nested lines are kept as a whole whatever kind
is looked for and however deep the counter stands (`Nested.kept`): a block of the kind raises the
counter and lowers it again, and the markers and terminators of the other kinds are not counted.
-/

namespace BatchScript

/-! ## One line -/

section Line

variable {kind : BlockKind} {depth : Nat} {line : Line} {rest : List Line}

theorem cutBlock_cons_of_opens (h : line.role = .opens kind) :
    cutBlock kind depth (line :: rest) = (cutBlock kind (depth + 1) rest).map (.keep line) := by
  rw [cutBlock.eq_def]
  exact if_pos h

theorem cutBlock_cons_of_closes_zero (h : line.role = .closes kind) :
    cutBlock kind 0 (line :: rest) = some ⟨[], [], line, rest⟩ := by
  rw [cutBlock, if_neg (by simp [h]), if_pos h]

theorem cutBlock_cons_of_closes_succ (h : line.role = .closes kind) :
    cutBlock kind (depth + 1) (line :: rest) = (cutBlock kind depth rest).map (.keep line) := by
  rw [cutBlock, if_neg (by simp [h]), if_pos h]

theorem cutBlock_cons_of_divides {branch : Branch} (h : line.role = .divides branch)
    (hkind : branch.kind = kind) :
    cutBlock kind 0 (line :: rest) = (cutBlock kind 0 rest).map (.divide line) := by
  rw [cutBlock, if_neg (by simp [h]), if_neg (by simp [h]),
    if_pos (by simp [Line.divides, h, hkind])]

/-- A line that neither opens nor closes a block of the kind is kept, unless it divides the block
that is looked for. -/
theorem cutBlock_cons_of_keep (hopens : line.role ≠ .opens kind)
    (hcloses : line.role ≠ .closes kind) (hdivides : depth = 0 → line.divides kind = false) :
    cutBlock kind depth (line :: rest) = (cutBlock kind depth rest).map (.keep line) := by
  rw [cutBlock.eq_def]
  dsimp only
  rw [if_neg hopens, if_neg hcloses, if_neg]
  intro h
  obtain ⟨hdepth, hline⟩ := Bool.and_eq_true_iff.1 h
  rw [hdivides (of_decide_eq_true hdepth)] at hline
  cases hline

end Line

/-! ## Lines that are kept -/

namespace Cut

/-- The cut with more lines at the start of the body. -/
def keepAll (lines : List Line) (cut : Cut) : Cut :=
  { cut with body := lines ++ cut.body }

theorem keepAll_nil : keepAll [] = id := rfl

theorem keep_comp_keepAll (line : Line) (lines : List Line) :
    keep line ∘ keepAll lines = keepAll (line :: lines) := rfl

theorem keepAll_comp_keepAll (first last : List Line) :
    keepAll first ∘ keepAll last = keepAll (first ++ last) := by
  funext cut
  simp [keepAll]

end Cut

/-- Lines that stay in the body of the block that is looked for, and leave the counter as it was. -/
def Kept (kind : BlockKind) (depth : Nat) (lines : List Line) : Prop :=
  ∀ rest, cutBlock kind depth (lines ++ rest) = (cutBlock kind depth rest).map (.keepAll lines)

section Kept

variable {kind : BlockKind} {depth : Nat}

theorem kept_nil : Kept kind depth [] := by
  intro rest
  rw [Cut.keepAll_nil, Option.map_id_fun, id, List.nil_append]

theorem Kept.cons {line : Line} {lines : List Line} (hopens : line.role ≠ .opens kind)
    (hcloses : line.role ≠ .closes kind) (hdivides : depth = 0 → line.divides kind = false)
    (h : Kept kind depth lines) : Kept kind depth (line :: lines) := by
  intro rest
  rw [List.cons_append, cutBlock_cons_of_keep hopens hcloses hdivides, h rest, Option.map_map,
    Cut.keep_comp_keepAll]

theorem Kept.append {first last : List Line} (hfirst : Kept kind depth first)
    (hlast : Kept kind depth last) : Kept kind depth (first ++ last) := by
  intro rest
  rw [List.append_assoc, hfirst, hlast, Option.map_map, Cut.keepAll_comp_keepAll]

/-- A block of the kind that is looked for is kept if what it holds is kept one level deeper. -/
theorem Kept.enclose {opener closer : Line} {inside : List Line}
    (hopener : opener.role = .opens kind) (hinside : Kept kind (depth + 1) inside)
    (hcloser : closer.role = .closes kind) :
    Kept kind depth (opener :: (inside ++ [closer])) := by
  intro rest
  rw [List.cons_append, cutBlock_cons_of_opens hopener, List.append_assoc, hinside,
    List.singleton_append, cutBlock_cons_of_closes_succ hcloser]
  simp only [Option.map_map]
  congr 1
  funext cut
  simp [Cut.keep, Cut.keepAll]

/-- The parts of a block are kept if its markers do not divide the block that is looked for. -/
theorem kept_partLines {inner : BlockKind} {parts : List (Line × List Line)}
    (hmarkers : ∀ part ∈ parts, ∃ branch : Branch,
      part.1.role = .divides branch ∧ branch.kind = inner)
    (hparts : ∀ part ∈ parts, Kept kind depth part.2) (h : depth = 0 → inner ≠ kind) :
    Kept kind depth (Cut.partLines parts) := by
  induction parts with
  | nil => exact kept_nil
  | cons part parts ih =>
    obtain ⟨branch, hrole, hkind⟩ := hmarkers part List.mem_cons_self
    obtain ⟨hpart, hrest⟩ := List.forall_mem_cons.1 hparts
    have hdivides : depth = 0 → part.1.divides kind = false := by
      intro hdepth
      simpa [Line.divides, hrole, hkind] using h hdepth
    rw [Cut.partLines_cons, List.cons_append]
    exact .cons (by simp [hrole]) (by simp [hrole]) hdivides
      (hpart.append (ih (List.forall_mem_cons.1 hmarkers).2 hrest))

end Kept

/-- Nested lines are kept, whatever kind of block is looked for. -/
theorem Nested.kept {height : Nat} {lines : List Line} (h : Nested height lines) (kind : BlockKind)
    (depth : Nat) : Kept kind depth lines := by
  induction h generalizing depth with
  | nil => exact kept_nil
  | line plain _ ih =>
    exact .cons (by simp [plain]) (by simp [plain]) (fun _ => by simp [Line.divides, plain])
      (ih depth)
  | @block _ inner opener cut hopener hfits _ _ _ ihbody ihparts ihrest =>
    have hsplit : opener :: cut.lines =
        (opener :: ((cut.body ++ Cut.partLines cut.parts) ++ [cut.terminator])) ++ cut.rest := by
      simp [Cut.lines]
    rw [hsplit]
    refine .append ?_ (ihrest depth)
    -- Of the kind that is looked for, the block raises the counter and lowers it again; of another
    -- kind it is not counted, and its markers are not taken for those of the kind.
    by_cases hkind : inner = kind
    · subst hkind
      refine .enclose hopener (.append (ihbody (depth + 1)) ?_) hfits.closer
      exact kept_partLines hfits.exists_branch (fun part hpart => ihparts part hpart (depth + 1))
        (fun hdepth => absurd hdepth (Nat.succ_ne_zero depth))
    · refine .cons (by simpa [hopener] using hkind) (by simp [hopener])
        (fun _ => by simp [Line.divides, hopener]) ?_
      refine .append (.append (ihbody depth) ?_) ?_
      · exact kept_partLines hfits.exists_branch (fun part hpart => ihparts part hpart depth)
          fun _ => hkind
      · exact .cons (by simp [hfits.closer]) (by simpa [hfits.closer] using hkind)
          (fun _ => by simp [Line.divides, hfits.closer]) kept_nil

/-! ## Cuts of nested lines -/

theorem cutBlock_partLines {kind : BlockKind} {parts : List (Line × List Line)} {terminator : Line}
    {rest : List Line}
    (hmarkers : ∀ part ∈ parts, ∃ branch : Branch,
      part.1.role = .divides branch ∧ branch.kind = kind)
    (hparts : ∀ part ∈ parts, Kept kind 0 part.2) (hcloser : terminator.role = .closes kind) :
    cutBlock kind 0 (Cut.partLines parts ++ terminator :: rest) =
      some ⟨[], parts, terminator, rest⟩ := by
  induction parts with
  | nil => exact cutBlock_cons_of_closes_zero hcloser
  | cons part parts ih =>
    obtain ⟨branch, hrole, hkind⟩ := hmarkers part List.mem_cons_self
    obtain ⟨hpart, hrest⟩ := List.forall_mem_cons.1 hparts
    rw [Cut.partLines_cons, List.cons_append, List.cons_append,
      cutBlock_cons_of_divides hrole hkind, List.append_assoc, hpart,
      ih (List.forall_mem_cons.1 hmarkers).2 hrest]
    simp [Cut.divide, Cut.keepAll]

/-- The cut of a block whose parts are kept is found. -/
theorem cutBlock_lines {kind : BlockKind} {cut : Cut} (hfits : cut.Fits kind)
    (hbody : Kept kind 0 cut.body) (hparts : ∀ part ∈ cut.parts, Kept kind 0 part.2) :
    cutBlock kind 0 cut.lines = some cut := by
  rw [Cut.lines, List.append_assoc, hbody,
    cutBlock_partLines hfits.exists_branch hparts hfits.closer]
  simp [Cut.keepAll]

/-! ### Trees -/

theorem Tree.kept (tree : Tree) (kind : BlockKind) (depth : Nat) : Kept kind depth tree.lines :=
  (tree.nested (Nat.le_refl _)).kept kind depth

theorem Elifs.kept (elifs : Elifs) (kind : BlockKind) (depth : Nat) :
    ∀ part ∈ elifs.parts, Kept kind depth part.2 :=
  fun part hpart => (elifs.nested (Nat.le_refl _) part hpart).kept kind depth

theorem Clause.kept {marker : Marker} (clause : Clause marker) (kind : BlockKind) (depth : Nat) :
    ∀ part ∈ clause.parts, Kept kind depth part.2 :=
  fun part hpart => (clause.nested (Nat.le_refl _) part hpart).kept kind depth

end BatchScript
