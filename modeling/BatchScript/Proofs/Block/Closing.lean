import BatchScript.Block.Span
import BatchScript.Proofs.Block.Matching
import BatchScript.Proofs.Block.Stack

/-!
# Where open blocks are closed

A block that is open at a position of accepted lines stays open until the line that takes it off the
open blocks, and the markers on the way that find it on top are its own (`Closing`). Cutting the
lines from the position on finds this line and these markers: the depth counter is the number of
blocks of the same kind that are open inside the block (`Accepts.cutBlock_drop`).
-/

namespace BatchScript

namespace Validation

/-- From `position` on, the block `top` stays open over the blocks `base`, until the line at
`terminator` closes it. The lines at `branches` are those that divide it on the way. -/
structure Closing (limits : Limits) (lines : List Line) (top : OpenBlock) (base : List OpenBlock)
    (position terminator : Nat) (branches : List Nat) : Prop where
  le : position ≤ terminator
  stays : ∀ other, position ≤ other → other ≤ terminator →
    ∃ inner seen, openAt limits lines other = inner ++ { top with seen } :: base
  marks : ∀ other, other ∈ branches ↔ position ≤ other ∧ other < terminator ∧
    depthAt limits lines other = base.length + 1 ∧
      ∃ branch, roleAt lines other = some (.divides branch)
  sorted : branches.Pairwise (· < ·)
  last : ∃ added : List Branch, branches.map (roleAt lines) = added.map (some <| .divides ·) ∧
    openAt limits lines terminator = { top with seen := added.reverse ++ top.seen } :: base
  closes : roleAt lines terminator = some (.closes top.kind)
  popped : openAt limits lines (terminator + 1) = base

namespace Closing

variable {limits : Limits} {lines : List Line} {top : OpenBlock} {base inner : List OpenBlock}
  {position terminator : Nat} {branches : List Nat}

/-- The block is closed at once. -/
theorem of_closes (hopen : openAt limits lines position = top :: base)
    (hrole : roleAt lines position = some (.closes top.kind))
    (hnext : openAt limits lines (position + 1) = base) :
    Closing limits lines top base position position [] where
  le := Nat.le_refl _
  stays other hle hge := by
    obtain rfl : position = other := Nat.le_antisymm hle hge
    exact ⟨[], top.seen, hopen⟩
  marks other := by
    constructor
    · exact fun hmem => absurd hmem List.not_mem_nil
    · omega
  sorted := .nil
  last := ⟨[], rfl, hopen⟩
  closes := hrole
  popped := hnext

/-- A line in front that does not divide the block. -/
theorem keep (h : Closing limits lines top base (position + 1) terminator branches)
    (hopen : openAt limits lines position = inner ++ top :: base)
    (hrole : inner = [] → ∀ branch, roleAt lines position ≠ some (.divides branch)) :
    Closing limits lines top base position terminator branches where
  le := Nat.le_of_succ_le h.le
  stays other hle hge := by
    rcases Nat.eq_or_lt_of_le hle with rfl | hlt
    · exact ⟨inner, top.seen, hopen⟩
    · exact h.stays other hlt hge
  marks other := by
    rw [h.marks]
    constructor
    · rintro ⟨hle, hmark⟩
      exact ⟨Nat.le_of_succ_le hle, hmark⟩
    · rintro ⟨hle, hlt, hlength, branch, hbranch⟩
      refine ⟨Nat.lt_of_le_of_ne hle ?_, hlt, hlength, branch, hbranch⟩
      rintro rfl
      rw [depthAt, hopen, List.length_append, List.length_cons] at hlength
      exact hrole (List.length_eq_zero_iff.1 (by omega)) branch hbranch
  sorted := h.sorted
  last := h.last
  closes := h.closes
  popped := h.popped

/-- A line in front that divides the block. -/
theorem divide {branch : Branch}
    (h : Closing limits lines { top with seen := branch :: top.seen } base (position + 1)
      terminator branches)
    (hopen : openAt limits lines position = top :: base)
    (hrole : roleAt lines position = some (.divides branch)) :
    Closing limits lines top base position terminator (position :: branches) where
  le := Nat.le_of_succ_le h.le
  stays other hle hge := by
    rcases Nat.eq_or_lt_of_le hle with rfl | hlt
    · exact ⟨[], top.seen, hopen⟩
    · exact h.stays other hlt hge
  marks other := by
    rw [List.mem_cons, h.marks]
    constructor
    · rintro (rfl | ⟨hle, hmark⟩)
      · exact ⟨Nat.le_refl _, h.le, by rw [depthAt, hopen, List.length_cons], branch, hrole⟩
      · exact ⟨Nat.le_of_succ_le hle, hmark⟩
    · rintro ⟨hle, hmark⟩
      rcases Nat.eq_or_lt_of_le hle with rfl | hlt
      · exact .inl rfl
      · exact .inr ⟨hlt, hmark⟩
  sorted := .cons (fun other hother => ((h.marks other).1 hother).1) h.sorted
  last := by
    obtain ⟨added, hroles, hlast⟩ := h.last
    refine ⟨branch :: added, by rw [List.map_cons, List.map_cons, hrole, hroles], ?_⟩
    rw [hlast, List.reverse_cons, List.append_assoc, List.singleton_append]
  closes := h.closes
  popped := h.popped

end Closing

/-! ## The depth counter -/

/-- The number of open blocks of a kind. -/
def countKind (kind : BlockKind) (blocks : List OpenBlock) : Nat :=
  blocks.countP (·.kind = kind)

theorem countKind_cons_of_eq {kind : BlockKind} {block : OpenBlock} (h : block.kind = kind)
    (blocks : List OpenBlock) : countKind kind (block :: blocks) = countKind kind blocks + 1 :=
  List.countP_cons_of_pos (by simpa using h)

theorem countKind_cons_of_ne {kind : BlockKind} {block : OpenBlock} (h : block.kind ≠ kind)
    (blocks : List OpenBlock) : countKind kind (block :: blocks) = countKind kind blocks :=
  List.countP_cons_of_neg (by simpa using h)

section Step

variable {limits : Limits} {line : Line} {top : OpenBlock} {inner base next : List OpenBlock}

/-- What a line does to a block that stays open while it is read: the cut that is looked for keeps
the line, and the counter is again the number of blocks of the kind inside. -/
structure Keeps (line : Line) (top : OpenBlock) (inner base next : List OpenBlock)
    (inner' : List OpenBlock) : Prop where
  next_eq : next = inner' ++ top :: base
  role_ne : inner = [] → ∀ branch, line.role ≠ .divides branch
  cut_eq : ∀ rest, cutBlock top.kind (countKind top.kind inner) (line :: rest) =
    (cutBlock top.kind (countKind top.kind inner') rest).map (.keep line)

/-- A line that plays no part is kept. -/
theorem keeps_of_plain (hrole : line.role = .plain) :
    Keeps line top inner base (inner ++ top :: base) inner where
  next_eq := rfl
  role_ne _ branch := by simp [hrole]
  cut_eq rest := cutBlock_cons_of_keep (by simp [hrole]) (by simp [hrole])
    fun _ => by simp [Line.divides, hrole]

/-- An opener is kept, and counts if it is of the kind. -/
theorem keeps_of_opens {kind : BlockKind} (hrole : line.role = .opens kind) :
    Keeps line top inner base (⟨kind, line.number, []⟩ :: (inner ++ top :: base))
      (⟨kind, line.number, []⟩ :: inner) where
  next_eq := rfl
  role_ne _ branch := by simp [hrole]
  cut_eq rest := by
    by_cases hkind : kind = top.kind
    · rw [countKind_cons_of_eq hkind]
      exact cutBlock_cons_of_opens (hkind ▸ hrole)
    · rw [countKind_cons_of_ne hkind]
      exact cutBlock_cons_of_keep (by simpa [hrole] using hkind) (by simp [hrole])
        fun _ => by simp [Line.divides, hrole]

/-- A marker of a block inside is kept: if that block is of the kind, the counter is not zero. -/
theorem keeps_of_divides {block : OpenBlock} {branch : Branch}
    (hrole : line.role = .divides branch) (hkind : block.kind = branch.kind) :
    Keeps line top (block :: inner) base
      ({ block with seen := branch :: block.seen } :: (inner ++ top :: base))
      ({ block with seen := branch :: block.seen } :: inner) where
  next_eq := rfl
  role_ne h := by cases h
  cut_eq rest := by
    have hcount : countKind top.kind ({ block with seen := branch :: block.seen } :: inner) =
        countKind top.kind (block :: inner) := rfl
    rw [hcount]
    refine cutBlock_cons_of_keep (by simp [hrole]) (by simp [hrole]) fun hzero => ?_
    by_cases hsame : block.kind = top.kind
    · rw [countKind_cons_of_eq hsame] at hzero
      cases hzero
    · simpa [Line.divides, hrole, ← hkind] using hsame

/-- The terminator of a block inside is kept, and counts if the block is of the kind. -/
theorem keeps_of_closes {block : OpenBlock} (hrole : line.role = .closes block.kind) :
    Keeps line top (block :: inner) base (inner ++ top :: base) inner where
  next_eq := rfl
  role_ne h := by cases h
  cut_eq rest := by
    by_cases hkind : block.kind = top.kind
    · rw [countKind_cons_of_eq hkind]
      exact cutBlock_cons_of_closes_succ (hkind ▸ hrole)
    · rw [countKind_cons_of_ne hkind]
      exact cutBlock_cons_of_keep (by simp [hrole]) (by simpa [hrole] using hkind)
        fun _ => by simp [Line.divides, hrole]

/-- A line closes the block, divides it, or is kept inside it. -/
theorem Advance.closes_or_divides_or_keeps
    (h : Advance limits line (inner ++ top :: base) next) :
    (inner = [] ∧ line.role = .closes top.kind ∧ next = base) ∨
      (∃ branch : Branch, inner = [] ∧ line.role = .divides branch ∧ branch.kind = top.kind ∧
        next = { top with seen := branch :: top.seen } :: base) ∨
      ∃ inner', Keeps line top inner base next inner' := by
  have hchanges := h.changes
  rcases hrole : line.role with _ | kind | branch | kind <;> rw [hrole] at hchanges
  · subst hchanges
    exact .inr (.inr ⟨inner, keeps_of_plain hrole⟩)
  · subst hchanges
    exact .inr (.inr ⟨_, keeps_of_opens hrole⟩)
  · obtain ⟨first, outer, hblocks, hkind, rfl⟩ := hchanges
    rcases inner with _ | ⟨block, inner⟩ <;> cases hblocks
    · exact .inr (.inl ⟨branch, rfl, rfl, hkind.symm, rfl⟩)
    · exact .inr (.inr ⟨_, keeps_of_divides hrole hkind⟩)
  · obtain ⟨first, rfl, hblocks⟩ := hchanges
    rcases inner with _ | ⟨block, inner⟩ <;> cases hblocks
    · exact .inl ⟨rfl, rfl, rfl⟩
    · exact .inr (.inr ⟨_, keeps_of_closes hrole⟩)

end Step

/-! ## The cut of an open block -/

end Validation

namespace Cut

theorem size_keep (line : Line) (cut : Cut) (position : Nat) :
    position + (cut.keep line).size = position + 1 + cut.size := by
  simp only [size, keep, List.cons_append, List.length_cons]
  omega

theorem size_divide (line : Line) (cut : Cut) (position : Nat) :
    position + (cut.divide line).size = position + 1 + cut.size := by
  simp only [size, divide, partLines_cons, List.cons_append, List.nil_append, List.length_cons]
  omega

theorem markers_keep (line : Line) (cut : Cut) (position : Nat) :
    Span.markers (position + (cut.keep line).body.length) (cut.keep line).parts =
      Span.markers (position + 1 + cut.body.length) cut.parts := by
  simp only [keep, List.length_cons]
  congr 1
  omega

theorem markers_divide (line : Line) (cut : Cut) (position : Nat) :
    Span.markers (position + (cut.divide line).body.length) (cut.divide line).parts =
      position :: Span.markers (position + 1 + cut.body.length) cut.parts := rfl

end Cut

namespace Validation

/-- Cutting the lines from a position on, at which a block is open, finds where the block is
closed. -/
theorem Accepts.cutBlock_drop {limits : Limits} {lines : List Line} (h : Accepts limits [] lines)
    {position : Nat} (hposition : position ≤ lines.length) {top : OpenBlock}
    {inner base : List OpenBlock} (hopen : openAt limits lines position = inner ++ top :: base) :
    ∃ cut, cutBlock top.kind (countKind top.kind inner) (lines.drop position) = some cut ∧
      Closing limits lines top base position (position + cut.size)
        (Span.markers (position + cut.body.length) cut.parts) := by
  -- At the end of the lines no block is open, so the block is closed before.
  induction hrest : lines.length - position generalizing position top inner with
  | zero =>
    obtain rfl : position = lines.length := by omega
    rw [h.openAt_length] at hopen
    exact absurd hopen.symm (List.append_ne_nil_of_right_ne_nil _ (List.cons_ne_nil _ _))
  | succ count ih =>
    have hlt : position < lines.length := by omega
    have hline : lines[position]? = some lines[position] := List.getElem?_eq_getElem hlt
    have hadvance := h.advance hline
    rw [List.drop_eq_getElem_cons hlt]
    rw [hopen] at hadvance
    rcases hadvance.closes_or_divides_or_keeps with
      ⟨rfl, hrole, hnext⟩ | ⟨branch, rfl, hrole, hkind, hnext⟩ | ⟨inner', hkeeps⟩
    · refine ⟨_, cutBlock_cons_of_closes_zero hrole, ?_⟩
      exact .of_closes hopen ((roleAt_eq hline).trans (congrArg some hrole)) hnext
    · rw [← List.nil_append (_ :: base)] at hnext
      obtain ⟨cut, hcut, hclosing⟩ := ih (Nat.succ_le_of_lt hlt) hnext (by omega)
      refine ⟨cut.divide lines[position], ?_, ?_⟩
      · exact (cutBlock_cons_of_divides hrole hkind).trans (congrArg _ hcut)
      · rw [Cut.size_divide, Cut.markers_divide]
        exact .divide hclosing hopen ((roleAt_eq hline).trans (congrArg some hrole))
    · obtain ⟨cut, hcut, hclosing⟩ := ih (Nat.succ_le_of_lt hlt) hkeeps.next_eq (by omega)
      refine ⟨cut.keep lines[position], ?_, ?_⟩
      · exact (hkeeps.cut_eq _).trans (congrArg _ hcut)
      · rw [Cut.size_keep, Cut.markers_keep]
        refine .keep hclosing hopen fun hinner branch => ?_
        rw [roleAt_eq hline]
        exact fun heq => hkeeps.role_ne hinner branch (Option.some.inj heq)

end Validation

end BatchScript
