import BatchScript.Line

/-!
# Cutting a block out of a script

The lines after a block's opener are cut at the line that closes the block. The scan counts how
many blocks of the same kind are open inside: openers and terminators of other kinds do not count,
and the block's own markers divide its body only where none is open. Only keywords matter, so a
directive whose body is malformed keeps its part in the structure.

The main statements say that a cut loses no line (`lines_cut`) and that every part of it is shorter
than what was cut, which is what a run of nested blocks descends on.
-/

namespace BatchScript

/-- The lines after the opener of a block, cut at the end of the block: the body up to the first
marker, the parts that the markers begin, the line that closes the block, and the lines after it. -/
structure Cut where
  body : List Line
  parts : List (Line × List Line)
  terminator : Line
  rest : List Line
deriving DecidableEq, Repr

/-- Whether a line is a marker that divides blocks of a kind. -/
def Line.divides (line : Line) (kind : BlockKind) : Bool :=
  match line.role with
  | .divides branch => branch.kind = kind
  | _ => false

namespace Cut

/-- The cut with one more line at the start of the body. -/
def keep (line : Line) (cut : Cut) : Cut :=
  { cut with body := line :: cut.body }

/-- The cut in which a marker stands before the body. -/
def divide (line : Line) (cut : Cut) : Cut :=
  { cut with body := [], parts := (line, cut.body) :: cut.parts }

/-- The lines of the parts, each after its marker. -/
def partLines (parts : List (Line × List Line)) : List Line :=
  parts.flatMap fun (marker, part) => marker :: part

/-- The lines that were cut. -/
def lines (cut : Cut) : List Line :=
  cut.body ++ partLines cut.parts ++ cut.terminator :: cut.rest

/-- The number of lines inside the block. -/
def size (cut : Cut) : Nat :=
  (cut.body ++ partLines cut.parts).length

end Cut

/-- Cuts lines at the terminator of a block of a kind, `depth` blocks of the kind being open inside
that block. -/
def cutBlock (kind : BlockKind) (depth : Nat) : List Line → Option Cut
  | [] => none
  | line :: rest =>
    if line.role = .opens kind then
      (cutBlock kind (depth + 1) rest).map (.keep line)
    else if line.role = .closes kind then
      match depth with
      | 0 => some ⟨[], [], line, rest⟩
      | outer + 1 => (cutBlock kind outer rest).map (.keep line)
    else if depth = 0 && line.divides kind then
      (cutBlock kind depth rest).map (.divide line)
    else
      (cutBlock kind depth rest).map (.keep line)

namespace Cut

@[simp] theorem partLines_nil : partLines [] = [] := rfl

@[simp] theorem partLines_cons (part : Line × List Line) (parts : List (Line × List Line)) :
    partLines (part :: parts) = part.1 :: part.2 ++ partLines parts := rfl

@[simp] theorem partLines_append (first last : List (Line × List Line)) :
    partLines (first ++ last) = partLines first ++ partLines last :=
  List.flatMap_append

@[simp] theorem lines_keep (line : Line) (cut : Cut) :
    (cut.keep line).lines = line :: cut.lines := by
  simp [keep, lines]

@[simp] theorem lines_divide (line : Line) (cut : Cut) :
    (cut.divide line).lines = line :: cut.lines := by
  simp [divide, lines, partLines]

/-- A cut loses no line. -/
theorem lines_cut {kind : BlockKind} {depth : Nat} {all : List Line} {cut : Cut}
    (h : cutBlock kind depth all = some cut) : cut.lines = all := by
  fun_induction cutBlock kind depth all generalizing cut with
  | case1 => simp at h
  | case3 => cases h; rfl
  | case2 _ _ _ _ ih | case4 _ _ _ _ _ ih | case5 _ _ _ _ _ _ ih | case6 _ _ _ _ _ _ ih =>
    obtain ⟨inner, hinner, rfl⟩ := Option.map_eq_some_iff.1 h
    simp [ih hinner]

/-! ## Lines inside -/

section Subset

variable {kind : BlockKind} {depth : Nat} {all : List Line} {cut : Cut}
  (h : cutBlock kind depth all = some cut)

include h

theorem body_subset : cut.body ⊆ all := by
  rw [← lines_cut h, lines, List.append_assoc]
  exact List.subset_append_left _ _

theorem rest_subset : cut.rest ⊆ all := by
  rw [← lines_cut h, lines]
  exact fun _ hmem => List.mem_append_right _ (List.mem_cons_of_mem _ hmem)

theorem part_subset {part : Line × List Line} (hpart : part ∈ cut.parts) : part.2 ⊆ all := by
  rw [← lines_cut h, lines]
  intro line hline
  refine List.mem_append_left _ (List.mem_append_right _ ?_)
  exact List.mem_flatMap.2 ⟨part, hpart, List.mem_cons_of_mem _ hline⟩

end Subset

/-! ## Lengths -/

theorem length_lines (cut : Cut) :
    cut.lines.length = cut.body.length + (partLines cut.parts).length + 1 + cut.rest.length := by
  simp only [lines, List.length_append, List.length_cons]
  omega

theorem length_part_lt {parts : List (Line × List Line)} {part : Line × List Line}
    (h : part ∈ parts) : part.2.length < (partLines parts).length := by
  induction parts with
  | nil => simp at h
  | cons first others ih =>
    rw [partLines_cons]
    rcases List.mem_cons.1 h with rfl | h
    · simp only [List.length_append, List.length_cons]
      omega
    · have := ih h
      simp only [List.length_append, List.length_cons]
      omega

theorem length_body_lt {kind : BlockKind} {depth : Nat} {all : List Line} {cut : Cut}
    (h : cutBlock kind depth all = some cut) : cut.body.length < all.length := by
  have := cut.length_lines
  rw [lines_cut h] at this
  omega

theorem length_rest_lt {kind : BlockKind} {depth : Nat} {all : List Line} {cut : Cut}
    (h : cutBlock kind depth all = some cut) : cut.rest.length < all.length := by
  have := cut.length_lines
  rw [lines_cut h] at this
  omega

theorem length_of_mem_parts {kind : BlockKind} {depth : Nat} {all : List Line} {cut : Cut}
    (h : cutBlock kind depth all = some cut) {part : Line × List Line} (hp : part ∈ cut.parts) :
    part.2.length < all.length := by
  have := cut.length_lines
  have := length_part_lt hp
  rw [lines_cut h] at *
  omega

end Cut

end BatchScript
