import BatchScript.Proofs.Block.Nested

/-!
# The blocks that are open at a line

The check of accepted lines goes through a list of open blocks for each position (`openAt`). Each
line advances the list (`Accepts.advance`), and at the end it is empty again. The markers that an
open block has had stand in an order that its kind admits (`Accepts.ordered`).
-/

namespace BatchScript

/-- The part that the line at a position plays in the block structure. -/
def roleAt (lines : List Line) (position : Nat) : Option Role :=
  (lines[position]?).map Line.role

theorem roleAt_eq {lines : List Line} {position : Nat} {line : Line}
    (h : lines[position]? = some line) : roleAt lines position = some line.role := by
  rw [roleAt, h]
  rfl

theorem exists_of_roleAt {lines : List Line} {position : Nat} {role : Role}
    (h : roleAt lines position = some role) :
    ∃ line, lines[position]? = some line ∧ line.role = role :=
  Option.map_eq_some_iff.1 h

namespace Validation

/-- The blocks that are open, innermost first, when the check reaches a position. -/
def openAt (limits : Limits) (lines : List Line) (position : Nat) : List OpenBlock :=
  (lines.take position).foldl (fun blocks line => (checkLine limits line blocks).blocks) []

/-- The number of blocks that are open when the check reaches a position. -/
def depthAt (limits : Limits) (lines : List Line) (position : Nat) : Nat :=
  (openAt limits lines position).length

variable {limits : Limits} {lines : List Line}

theorem openAt_succ {position : Nat} {line : Line} (hline : lines[position]? = some line) :
    openAt limits lines (position + 1) =
      (checkLine limits line (openAt limits lines position)).blocks := by
  unfold openAt
  rw [List.take_add_one, hline, List.foldl_append]
  rfl

namespace Accepts

/-- The lines from a position on are accepted with the blocks that are open there. -/
theorem drop (h : Accepts limits [] lines) {position : Nat} (hposition : position ≤ lines.length) :
    Accepts limits (openAt limits lines position) (lines.drop position) := by
  induction position with
  | zero => exact h
  | succ position ih =>
    have hlt : position < lines.length := hposition
    have hrest := ih (Nat.le_of_lt hlt)
    rw [List.drop_eq_getElem_cons hlt] at hrest
    obtain ⟨next, hline, hnext⟩ := accepts_cons_iff.1 hrest
    rw [openAt_succ (List.getElem?_eq_getElem hlt), hline.checkLine_eq.1]
    exact hnext

/-- Each line advances the open blocks. -/
theorem advance (h : Accepts limits [] lines) {position : Nat} {line : Line}
    (hline : lines[position]? = some line) :
    Advance limits line (openAt limits lines position) (openAt limits lines (position + 1)) := by
  obtain ⟨hlt, rfl⟩ := List.getElem?_eq_some_iff.1 hline
  have hrest := h.drop (Nat.le_of_lt hlt)
  rw [List.drop_eq_getElem_cons hlt] at hrest
  obtain ⟨next, hadvance, -⟩ := accepts_cons_iff.1 hrest
  rw [openAt_succ hline, hadvance.checkLine_eq.1]
  exact hadvance

/-- No block is open at the end. -/
theorem openAt_length (h : Accepts limits [] lines) : openAt limits lines lines.length = [] := by
  have hrest := h.drop (Nat.le_refl _)
  rw [List.drop_length] at hrest
  exact accepts_nil_iff.1 hrest

end Accepts

/-! ## Lines and the number of open blocks -/

/-- How a line that plays a part changes the open blocks. -/
def Changes (role : Role) (number : Nat) (blocks next : List OpenBlock) : Prop :=
  match role with
  | .plain => next = blocks
  | .opens kind => next = ⟨kind, number, []⟩ :: blocks
  | .divides branch => ∃ top outer, blocks = top :: outer ∧ top.kind = branch.kind ∧
    next = { top with seen := branch :: top.seen } :: outer
  | .closes kind => ∃ top, top.kind = kind ∧ blocks = top :: next

namespace Advance

variable {line : Line} {blocks next : List OpenBlock}

theorem changes (h : Advance limits line blocks next) :
    Changes line.role line.number blocks next := by
  cases h with
  | text plain =>
    rw [Line.role_of_keyword?_eq_none plain]
    rfl
  | simple reads plain =>
    rw [Directive.role_of_ofLine reads, plain]
    rfl
  | opens reads =>
    rw [Directive.role_of_ofLine reads]
    rfl
  | divides reads same =>
    rw [Directive.role_of_ofLine reads]
    exact ⟨_, _, rfl, same, rfl⟩
  | closes reads =>
    rw [Directive.role_of_ofLine reads]
    exact ⟨_, rfl, rfl⟩

theorem eq_of_opens (h : Advance limits line blocks next) {kind : BlockKind}
    (hrole : line.role = .opens kind) : next = ⟨kind, line.number, []⟩ :: blocks := by
  have hchanges := h.changes
  rwa [hrole] at hchanges

theorem length_of_divides (h : Advance limits line blocks next) {branch : Branch}
    (hrole : line.role = .divides branch) : 0 < blocks.length ∧ next.length = blocks.length := by
  have hchanges := h.changes
  rw [hrole] at hchanges
  obtain ⟨top, outer, rfl, -, rfl⟩ := hchanges
  exact ⟨Nat.succ_pos _, rfl⟩

theorem length_of_closes (h : Advance limits line blocks next) {kind : BlockKind}
    (hrole : line.role = .closes kind) : blocks.length = next.length + 1 := by
  have hchanges := h.changes
  rw [hrole] at hchanges
  obtain ⟨top, -, rfl⟩ := hchanges
  rfl

/-- Only an opener adds to the open blocks. -/
theorem opens_of_length_lt (h : Advance limits line blocks next)
    (hlength : blocks.length < next.length) :
    (∃ kind, line.role = .opens kind) ∧ next.length = blocks.length + 1 := by
  cases h with
  | text | simple | divides => exact absurd hlength (Nat.lt_irrefl _)
  | opens reads => exact ⟨⟨_, Directive.role_of_ofLine reads⟩, rfl⟩
  | closes => exact absurd hlength (Nat.not_lt.2 (Nat.le_succ _))

end Advance

/-! ## Order of markers -/

/-- Every open block has had its markers in an order that its kind admits. -/
def Ordered (blocks : List OpenBlock) : Prop :=
  ∀ block ∈ blocks, block.kind.Admits block.seen.reverse

theorem admits_nil (kind : BlockKind) : kind.Admits [] := by
  cases kind with
  | conditional => exact ⟨0, [], rfl, List.nil_sublist _⟩
  | attempt => exact List.nil_sublist _
  | foreach | loop => rfl

theorem exists_replicate_elif {branches : List Branch}
    (h : BlockKind.conditional.Admits branches) (hnot : .otherwise ∉ branches) :
    ∃ count, branches = List.replicate count .elif := by
  obtain ⟨count, last, rfl, hlast⟩ := h
  cases last with
  | nil => exact ⟨count, List.append_nil _⟩
  | cons first last =>
    obtain rfl := List.mem_singleton.1 (hlast.subset List.mem_cons_self)
    exact absurd (List.mem_append_right _ List.mem_cons_self) hnot

theorem sublist_catch {branches : List Branch} (h : BlockKind.attempt.Admits branches)
    (hnot : .finally ∉ branches) : branches.Sublist [.catch] := by
  have hself : branches.filter (· ≠ .finally) = branches := by
    refine List.filter_eq_self.2 fun branch hmem => decide_eq_true ?_
    rintro rfl
    exact hnot hmem
  rw [← hself]
  exact List.Sublist.filter (· ≠ .finally) h

/-- A marker that is no fault keeps the order. -/
theorem admits_of_markerFault? {seen : List Branch} {branch : Branch}
    (h : branch.kind.Admits seen.reverse) (free : markerFault? seen branch = none) :
    branch.kind.Admits (branch :: seen).reverse := by
  rw [List.reverse_cons]
  cases branch with
  | elif =>
    have hseen : .otherwise ∉ seen := by simpa [markerFault?] using free
    obtain ⟨count, hcount⟩ := exists_replicate_elif h (by simpa using hseen)
    rw [hcount, ← List.replicate_succ']
    exact ⟨count + 1, [], (List.append_nil _).symm, List.nil_sublist _⟩
  | otherwise =>
    have hseen : .otherwise ∉ seen := by simpa [markerFault?] using free
    obtain ⟨count, hcount⟩ := exists_replicate_elif h (by simpa using hseen)
    rw [hcount]
    exact ⟨count, [.otherwise], rfl, List.Sublist.refl _⟩
  | «catch» =>
    have hfinally : .finally ∉ seen := fun hmem => by simp [markerFault?, hmem] at free
    have hcatch : .catch ∉ seen := fun hmem => by simp [markerFault?, hfinally, hmem] at free
    have hnil : seen.reverse = [] := by
      refine List.eq_nil_iff_forall_not_mem.2 fun branch hmem => ?_
      obtain rfl := List.mem_singleton.1 ((sublist_catch h (by simpa using hfinally)).subset hmem)
      exact hcatch (List.mem_reverse.1 hmem)
    rw [hnil]
    exact List.sublist_append_left [Branch.catch] [.finally]
  | «finally» =>
    have hseen : .finally ∉ seen := by simpa [markerFault?] using free
    exact (sublist_catch h (by simpa using hseen)).append (List.Sublist.refl [Branch.finally])

/-- A line keeps the markers of all open blocks in order. -/
theorem Advance.ordered {line : Line} {blocks next : List OpenBlock}
    (h : Advance limits line blocks next) (hblocks : Ordered blocks) : Ordered next := by
  cases h with
  | text | simple => exact hblocks
  | opens => exact List.forall_mem_cons.2 ⟨admits_nil _, hblocks⟩
  | divides reads same free =>
    obtain ⟨htop, houter⟩ := List.forall_mem_cons.1 hblocks
    refine List.forall_mem_cons.2 ⟨?_, houter⟩
    rw [same] at htop
    exact same ▸ admits_of_markerFault? htop free
  | closes => exact (List.forall_mem_cons.1 hblocks).2

/-- The markers of the blocks that are open at a position are in order. -/
theorem Accepts.ordered (h : Accepts limits [] lines) {position : Nat}
    (hposition : position ≤ lines.length) : Ordered (openAt limits lines position) := by
  induction position with
  | zero => exact fun block hblock => absurd hblock List.not_mem_nil
  | succ position ih =>
    have hline : lines[position]? = some lines[position] := List.getElem?_eq_getElem hposition
    exact (h.advance hline).ordered (ih (Nat.le_of_succ_le hposition))

end Validation

end BatchScript
