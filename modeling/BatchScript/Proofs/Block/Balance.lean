import BatchScript.Proofs.Block.Segments
import Mathlib.Order.Bounds.Basic

/-!
# Blocks told from prefix counts

Whatever the lines are, balanced or not, the block of an opener ends at the first line up to which one
block more of the kind is closed than is opened since the opener (`endings`). The depth counter of
`cutBlock` is what is left of this count: a line changes it as it changes the count of the lines from it
on (`Shifts`). The markers of the block are those of its kind before which as many blocks of the kind
are closed as are opened.
-/

namespace BatchScript

/-! ## Counts -/

/-- The number of lines that play a part. -/
def countRole (role : Role) (lines : List Line) : Nat :=
  lines.countP (·.role = role)

/-- The lines close `count` blocks of a kind more than they open. -/
def Lowers (kind : BlockKind) (count : Nat) (lines : List Line) : Prop :=
  countRole (.closes kind) lines = countRole (.opens kind) lines + count

/-- With the line in front, lines lower a depth as they lower another one without it. -/
def Shifts (kind : BlockKind) (line : Line) (depth depth' : Nat) : Prop :=
  ∀ extra lines, Lowers kind (depth + extra) (line :: lines) ↔ Lowers kind (depth' + extra) lines

section Shifts

variable {kind : BlockKind} {line : Line} {lines : List Line} {depth : Nat}

theorem countRole_cons (role : Role) (line : Line) (lines : List Line) :
    countRole role (line :: lines) =
      countRole role lines + if line.role = role then 1 else 0 := by
  simp [countRole, List.countP_cons]

@[simp] theorem lowers_nil_iff {count : Nat} : Lowers kind count [] ↔ count = 0 := by
  simp [Lowers, countRole, eq_comm]

theorem shifts_of_opens (h : line.role = .opens kind) : Shifts kind line depth (depth + 1) := by
  intro extra lines
  simp only [Lowers, countRole_cons, h]
  simp
  omega

theorem shifts_of_closes (h : line.role = .closes kind) : Shifts kind line (depth + 1) depth := by
  intro extra lines
  simp only [Lowers, countRole_cons, h]
  simp
  omega

theorem shifts_of_keep (hopens : line.role ≠ .opens kind) (hcloses : line.role ≠ .closes kind) :
    Shifts kind line depth depth := by
  intro extra lines
  simp [Lowers, countRole_cons, hopens, hcloses]

end Shifts

namespace Line

theorem divides_iff {line : Line} {kind : BlockKind} :
    line.divides kind = true ↔ ∃ branch : Branch, line.role = .divides branch ∧ branch.kind = kind := by
  unfold divides
  split
  next branch hrole => simp [hrole]
  next hrole => simpa using fun branch h => absurd h (hrole branch)

end Line

/-! ## One line of a scan -/

namespace Cut

/-- The cut with one more line in front: a marker divides the block, and any other line is kept. -/
def join (line : Line) (marks : Bool) : Cut → Cut :=
  if marks then divide line else keep line

@[simp] theorem join_true (line : Line) : join line true = divide line := rfl

@[simp] theorem join_false (line : Line) : join line false = keep line := rfl

theorem size_join (line : Line) (marks : Bool) (cut : Cut) :
    (cut.join line marks).size = cut.size + 1 := by
  have hkeep := size_keep line cut 0
  have hdivide := size_divide line cut 0
  cases marks
  · rw [join_false]
    omega
  · rw [join_true]
    omega

/-- Where the markers of a longer cut stand. -/
theorem mem_markers_join_iff {line : Line} {marks : Bool} {cut : Cut} {position marker : Nat} :
    marker ∈ Span.markers (position + (cut.join line marks).body.length) (cut.join line marks).parts ↔
      (marks = true ∧ marker = position) ∨
        marker ∈ Span.markers (position + 1 + cut.body.length) cut.parts := by
  cases marks
  · rw [join_false, markers_keep]
    simp
  · rw [join_true, markers_divide, List.mem_cons]
    simp

end Cut

/-- A line that does not end the block that is looked for shifts the depth counter. -/
theorem exists_shifts {kind : BlockKind} {depth : Nat} {line : Line}
    (h : ¬ (line.role = .closes kind ∧ depth = 0)) :
    ∃ depth', Shifts kind line depth depth' ∧ ∀ rest,
      cutBlock kind depth (line :: rest) =
        (cutBlock kind depth' rest).map (.join line (depth = 0 && line.divides kind)) := by
  by_cases hopens : line.role = .opens kind
  · have hdivides : line.divides kind = false := by simp [Line.divides, hopens]
    refine ⟨depth + 1, shifts_of_opens hopens, fun rest => ?_⟩
    rw [hdivides, Bool.and_false, Cut.join_false]
    exact cutBlock_cons_of_opens hopens
  by_cases hcloses : line.role = .closes kind
  · have hdivides : line.divides kind = false := by simp [Line.divides, hcloses]
    obtain ⟨outer, rfl⟩ : ∃ outer, depth = outer + 1 :=
      Nat.exists_eq_succ_of_ne_zero fun hzero => h ⟨hcloses, hzero⟩
    refine ⟨outer, shifts_of_closes hcloses, fun rest => ?_⟩
    rw [hdivides, Bool.and_false, Cut.join_false]
    exact cutBlock_cons_of_closes_succ hcloses
  · refine ⟨depth, shifts_of_keep hopens hcloses, fun rest => ?_⟩
    rw [cutBlock.eq_def]
    simp only [if_neg hopens, if_neg hcloses]
    cases hmarks : (depth = 0 && line.divides kind : Bool) <;> simp

/-! ## Cuts -/

section Scan

variable {kind : BlockKind} {line : Line} {lines : List Line} {depth depth' : Nat}

/-- How many lines stand before a line with which the lines have lowered the depth below zero. -/
def drops (kind : BlockKind) (depth : Nat) (lines : List Line) : Set Nat :=
  {count | count < lines.length ∧ Lowers kind (depth + 1) (lines.take (count + 1))}

theorem Shifts.zero_not_mem (h : Shifts kind line depth depth') : 0 ∉ drops kind depth (line :: lines) := by
  rintro ⟨-, hdrop⟩
  have hnil := (h 1 []).1 hdrop
  simp at hnil

theorem Shifts.succ_mem_iff (h : Shifts kind line depth depth') {count : Nat} :
    count + 1 ∈ drops kind depth (line :: lines) ↔ count ∈ drops kind depth' lines :=
  and_congr Nat.succ_lt_succ_iff (h 1 _)

/-- A block that is cut off ends where the lines first lower the depth below zero. -/
theorem isLeast_of_cutBlock {cut : Cut} (h : cutBlock kind depth lines = some cut) :
    IsLeast (drops kind depth lines) cut.size := by
  induction lines generalizing depth cut with
  | nil => cases h
  | cons line lines ih =>
    by_cases hend : line.role = .closes kind ∧ depth = 0
    · obtain ⟨hcloses, rfl⟩ := hend
      rw [cutBlock_cons_of_closes_zero hcloses] at h
      cases h
      refine ⟨⟨Nat.succ_pos _, ?_⟩, fun _ _ => Nat.zero_le _⟩
      exact (shifts_of_closes hcloses 0 []).2 (lowers_nil_iff.2 rfl)
    · obtain ⟨depth', hshifts, hcut⟩ := exists_shifts hend
      rw [hcut] at h
      obtain ⟨inner, hinner, rfl⟩ := Option.map_eq_some_iff.1 h
      obtain ⟨hmem, hleast⟩ := ih hinner
      rw [Cut.size_join]
      refine ⟨hshifts.succ_mem_iff.2 hmem, fun count hcount => ?_⟩
      cases count with
      | zero => exact absurd hcount hshifts.zero_not_mem
      | succ count => exact Nat.succ_le_succ (hleast (hshifts.succ_mem_iff.1 hcount))

/-- If no block is cut off, the lines never lower the depth below zero. -/
theorem drops_eq_empty (h : cutBlock kind depth lines = none) : drops kind depth lines = ∅ := by
  refine Set.eq_empty_of_forall_notMem fun count hcount => ?_
  induction lines generalizing depth count with
  | nil => exact Nat.not_lt_zero _ hcount.1
  | cons line lines ih =>
    by_cases hend : line.role = .closes kind ∧ depth = 0
    · obtain ⟨hcloses, rfl⟩ := hend
      rw [cutBlock_cons_of_closes_zero hcloses] at h
      cases h
    · obtain ⟨depth', hshifts, hcut⟩ := exists_shifts hend
      rw [hcut] at h
      cases count with
      | zero => exact hshifts.zero_not_mem hcount
      | succ count => exact ih (Option.map_eq_none_iff.1 h) count (hshifts.succ_mem_iff.1 hcount)

/-- The markers of a block are the lines that divide its kind where the lines before them have lowered
the depth to zero. -/
theorem mem_markers_iff {cut : Cut} (h : cutBlock kind depth lines = some cut) (position : Nat)
    {marker : Nat} :
    marker ∈ Span.markers (position + cut.body.length) cut.parts ↔
      ∃ count < cut.size, marker = position + count ∧
        (∃ line, lines[count]? = some line ∧ line.divides kind = true) ∧
        Lowers kind depth (lines.take count) := by
  induction lines generalizing depth cut position with
  | nil => cases h
  | cons line lines ih =>
    by_cases hend : line.role = .closes kind ∧ depth = 0
    · obtain ⟨hcloses, rfl⟩ := hend
      rw [cutBlock_cons_of_closes_zero hcloses] at h
      cases h
      simp [Span.markers, Cut.size]
    · obtain ⟨depth', hshifts, hcut⟩ := exists_shifts hend
      rw [hcut] at h
      obtain ⟨inner, hinner, rfl⟩ := Option.map_eq_some_iff.1 h
      rw [Cut.mem_markers_join_iff, ih hinner, Cut.size_join]
      constructor
      · rintro (⟨hmarks, rfl⟩ | ⟨count, hlt, rfl, hline, hlowers⟩)
        · obtain ⟨hdepth, hdivides⟩ := Bool.and_eq_true_iff.1 hmarks
          refine ⟨0, Nat.succ_pos _, rfl, ⟨line, rfl, hdivides⟩, ?_⟩
          exact lowers_nil_iff.2 (of_decide_eq_true hdepth)
        · exact ⟨count + 1, Nat.succ_lt_succ hlt, by omega, hline, (hshifts 0 _).2 hlowers⟩
      · rintro ⟨count, hlt, rfl, hline, hlowers⟩
        cases count with
        | zero =>
          obtain ⟨found, hfound, hdivides⟩ := hline
          cases hfound
          have hdepth := lowers_nil_iff.1 hlowers
          exact .inl ⟨by simp [hdepth, hdivides], rfl⟩
        | succ count =>
          exact .inr ⟨count, Nat.lt_of_succ_lt_succ hlt, by omega, hline, (hshifts 0 _).1 hlowers⟩

end Scan

/-! ## Spans -/

namespace Span

variable {lines : List Line} {kind : BlockKind} {line : Line} {opener stop : Nat} {span : Span}

/-- The positions after an opener and before a bound up to which one block more of a kind is closed than
is opened since the opener. -/
def endings (lines : List Line) (kind : BlockKind) (opener stop : Nat) : Set Nat :=
  {position | opener < position ∧ position < min stop lines.length ∧
    Lowers kind 1 (slice lines (opener + 1) (position + 1))}

theorem add_mem_endings_iff {count : Nat} :
    opener + 1 + count ∈ endings lines kind opener stop ↔
      count ∈ drops kind 0 (slice lines (opener + 1) stop) := by
  unfold endings drops
  constructor
  · rintro ⟨-, hbound, hlowers⟩
    refine ⟨by rw [length_slice]; omega, ?_⟩
    rwa [take_slice (by omega)]
  · rintro ⟨hbound, hlowers⟩
    rw [length_slice] at hbound
    refine ⟨by omega, by omega, ?_⟩
    rwa [take_slice (by omega)] at hlowers

theorem isLeast_endings {count : Nat} (h : IsLeast (drops kind 0 (slice lines (opener + 1) stop)) count) :
    IsLeast (endings lines kind opener stop) (opener + 1 + count) := by
  refine ⟨add_mem_endings_iff.2 h.1, fun position hposition => ?_⟩
  obtain ⟨offset, rfl⟩ := Nat.exists_eq_add_of_le (Nat.succ_le_of_lt hposition.1)
  exact Nat.add_le_add_left (h.2 (add_mem_endings_iff.1 hposition)) _

theorem endings_eq_empty (h : drops kind 0 (slice lines (opener + 1) stop) = ∅) :
    endings lines kind opener stop = ∅ := by
  refine Set.eq_empty_of_forall_notMem fun position hposition => ?_
  obtain ⟨offset, rfl⟩ := Nat.exists_eq_add_of_le (Nat.succ_le_of_lt hposition.1)
  exact Set.notMem_empty offset (h ▸ add_mem_endings_iff.1 hposition)

/-- What the markers and the segments of a block are, told from the lines. -/
structure Partitions (lines : List Line) (kind : BlockKind) (opener : Nat) (span : Span) : Prop where
  kind_eq : span.kind = kind
  opener_eq : span.opener = opener
  increasing : span.branches.Pairwise (· < ·)
  mem_branches_iff : ∀ marker, marker ∈ span.branches ↔
    opener < marker ∧ marker < span.terminator ∧
      (∃ branch : Branch, roleAt lines marker = some (.divides branch) ∧ branch.kind = kind) ∧
      Lowers kind 0 (slice lines (opener + 1) marker)
  apart : (opener :: span.branches).Pairwise fun first second =>
    Set.Ioo first (span.segmentEnd first) ∩ Set.Ioo second (span.segmentEnd second) = ∅
  covers : ∀ position, opener < position ∧ position < span.terminator ↔
    position ∈ span.branches ∨
      ∃ marker ∈ opener :: span.branches, position ∈ Set.Ioo marker (span.segmentEnd marker)

/-- A position inside a block that is no marker lies in the segment of the last marker before it. -/
theorem exists_segment {position : Nat} (hopener : opener < position)
    (hterminator : position < span.terminator) (hposition : position ∉ span.branches) :
    ∃ marker ∈ opener :: span.branches, position ∈ Set.Ioo marker (span.segmentEnd marker) := by
  obtain ⟨marker, hmem, hlt, hlast⟩ := Validation.exists_last_before span.branches hopener
  refine ⟨marker, hmem, hlt, ?_⟩
  unfold segmentEnd
  cases hfind : span.branches.find? (marker < ·) with
  | none => exact hterminator
  | some next =>
    have hnext : next ∈ span.branches := List.mem_of_find?_eq_some hfind
    have hfound := List.find?_some hfind
    have hafter : marker < next := of_decide_eq_true hfound
    refine Nat.lt_of_not_le fun hle => ?_
    have hne : next ≠ position := ne_of_mem_of_not_mem hnext hposition
    have hbefore := hlast next (List.mem_cons_of_mem _ hnext) (Nat.lt_of_le_of_ne hle hne)
    exact Nat.not_le_of_lt hafter hbefore

/-- The segment of a marker ends before those of the later markers begin. -/
theorem segments_inter_eq_empty (hsorted : span.branches.Pairwise (· < ·)) {first second : Nat}
    (hlt : first < second) (hsecond : second ∈ span.branches) :
    Set.Ioo first (span.segmentEnd first) ∩ Set.Ioo second (span.segmentEnd second) = ∅ := by
  have hend := segmentEnd_le hsorted hlt hsecond
  refine Set.eq_empty_of_forall_notMem fun position ⟨hfirst, hposition⟩ => ?_
  exact Nat.lt_asymm hposition.1 (Nat.lt_of_lt_of_le hfirst.2 hend)

theorem exists_divides_iff {position : Nat} :
    (∃ line, lines[position]? = some line ∧ line.divides kind = true) ↔
      ∃ branch : Branch, roleAt lines position = some (.divides branch) ∧ branch.kind = kind := by
  constructor
  · rintro ⟨line, hline, hdivides⟩
    obtain ⟨branch, hrole, hkind⟩ := Line.divides_iff.1 hdivides
    exact ⟨branch, (roleAt_eq hline).trans (congrArg some hrole), hkind⟩
  · rintro ⟨branch, hrole, hkind⟩
    obtain ⟨line, hline, hrole⟩ := exists_of_roleAt hrole
    exact ⟨line, hline, Line.divides_iff.2 ⟨branch, hrole, hkind⟩⟩

theorem mem_branches_ofCut_iff {cut : Cut} (h : cutBlock kind 0 (slice lines (opener + 1) stop) = some cut)
    (hstop : (ofCut kind opener cut).terminator < stop) (marker : Nat) :
    marker ∈ (ofCut kind opener cut).branches ↔
      opener < marker ∧ marker < (ofCut kind opener cut).terminator ∧
        (∃ branch : Branch, roleAt lines marker = some (.divides branch) ∧ branch.kind = kind) ∧
        Lowers kind 0 (slice lines (opener + 1) marker) := by
  have hend : (ofCut kind opener cut).terminator = opener + 1 + cut.size := rfl
  rw [hend] at hstop ⊢
  refine (mem_markers_iff h (opener + 1)).trans ⟨?_, ?_⟩
  · rintro ⟨count, hlt, rfl, hline, hlowers⟩
    rw [getElem?_slice (by omega), exists_divides_iff] at hline
    rw [take_slice (by omega)] at hlowers
    exact ⟨by omega, by omega, hline, hlowers⟩
  · rintro ⟨hopener, hlt, hbranch, hlowers⟩
    obtain ⟨count, rfl⟩ := Nat.exists_eq_add_of_le (Nat.succ_le_of_lt hopener)
    refine ⟨count, by omega, rfl, ?_, ?_⟩
    · rwa [getElem?_slice (by omega), exists_divides_iff]
    · rwa [take_slice (by omega)]

theorem partitions_of_find (hline : lines[opener]? = some line) (hrole : line.role = .opens kind)
    (h : find lines opener stop = .ok span) : Partitions lines kind opener span := by
  have hstop := terminator_lt h
  have hfind := h
  rw [find_of_opens hline hrole] at h
  split at h <;> cases h
  next cut hcut =>
    have hmem := mem_branches_ofCut_iff hcut hstop
    have hsorted : (ofCut kind opener cut).branches.Pairwise (· < ·) := pairwise_markers _ _
    refine ⟨rfl, rfl, hsorted, hmem, ?_, fun position => ⟨fun ⟨hopener, hterminator⟩ => ?_, ?_⟩⟩
    · refine .cons (fun second hsecond => ?_) (hsorted.imp_of_mem fun _ hsecond hlt => ?_)
      · exact segments_inter_eq_empty hsorted ((hmem second).1 hsecond).1 hsecond
      · exact segments_inter_eq_empty hsorted hlt hsecond
    · by_cases hposition : position ∈ (ofCut kind opener cut).branches
      · exact .inl hposition
      · exact .inr (exists_segment hopener hterminator hposition)
    · rintro (hposition | ⟨marker, hmarker, hafter, hbefore⟩)
      · obtain ⟨hopener, hterminator, -⟩ := (hmem position).1 hposition
        exact ⟨hopener, hterminator⟩
      · obtain ⟨hopener, -, hterminator⟩ := segment_bounds hfind (List.mem_cons.1 hmarker)
        exact ⟨by omega, by omega⟩

/-! ## Finding -/

theorem isLeast_of_find (hline : lines[opener]? = some line) (hrole : line.role = .opens kind)
    (h : find lines opener stop = .ok span) :
    IsLeast (endings lines kind opener stop) span.terminator := by
  rw [find_of_opens hline hrole] at h
  split at h <;> cases h
  next cut hcut => exact isLeast_endings (isLeast_of_cutBlock hcut)

/-- At an opener a block is found, or it is reported with the number of its line. -/
theorem exists_find_or (hline : lines[opener]? = some line) (hrole : line.role = .opens kind)
    (stop : Nat) :
    (∃ span, find lines opener stop = .ok span) ∨
      find lines opener stop = .error (.parse line.number (.unmatched kind line.number)) ∧
        endings lines kind opener stop = ∅ := by
  rw [find_of_opens hline hrole]
  cases hcut : cutBlock kind 0 (slice lines (opener + 1) stop) with
  | none => exact .inr ⟨rfl, endings_eq_empty (drops_eq_empty hcut)⟩
  | some cut => exact .inl ⟨_, rfl⟩

/-- Under two bounds the same block is found, if any. -/
theorem find_unique {bound : Nat} {other : Span} (h : find lines opener stop = .ok span)
    (hother : find lines opener bound = .ok other) : span = other := by
  have hlarge := find_of_le h (Nat.le_max_left stop bound)
  rw [find_of_le hother (Nat.le_max_right stop bound)] at hlarge
  exact (Except.ok.inj hlarge).symm

/-- Whatever the lines are, what is found at an opener is told from prefix counts. The block ends at the
first position before the bound up to which one block more of its kind is closed than is opened since the
opener. Its markers are those of its kind before which as many blocks of the kind are closed as are
opened, and with the segments between them they make up the inside of the block. Any bound after the
terminator finds the same block, and no bound up to it finds one; where none is found, the line of the
opener is reported. -/
theorem find_balance (hline : lines[opener]? = some line) (hrole : line.role = .opens kind)
    (stop : Nat) :
    (∀ terminator, (∃ span, find lines opener stop = .ok span ∧ span.terminator = terminator) ↔
        IsLeast (endings lines kind opener stop) terminator) ∧
      (∀ span, find lines opener stop = .ok span → Partitions lines kind opener span ∧
        (∀ bound, span.terminator < bound → find lines opener bound = .ok span) ∧
        ∀ bound ≤ span.terminator, find lines opener bound =
          .error (.parse line.number (.unmatched kind line.number))) ∧
      ((∀ terminator, ¬ IsLeast (endings lines kind opener stop) terminator) →
        find lines opener stop = .error (.parse line.number (.unmatched kind line.number))) := by
  refine ⟨fun terminator => ⟨?_, fun hleast => ?_⟩, fun span hfind => ⟨?_, ?_, ?_⟩, fun hnone => ?_⟩
  · rintro ⟨span, hfind, rfl⟩
    exact isLeast_of_find hline hrole hfind
  · rcases exists_find_or hline hrole stop with ⟨span, hfind⟩ | ⟨-, hempty⟩
    · exact ⟨span, hfind, (isLeast_of_find hline hrole hfind).unique hleast⟩
    · exact absurd (hempty ▸ hleast.1) (Set.notMem_empty _)
  · exact partitions_of_find hline hrole hfind
  · intro bound hbound
    rcases exists_find_or hline hrole bound with ⟨other, hother⟩ | ⟨-, hempty⟩
    · rw [hother, find_unique hfind hother]
    · obtain ⟨⟨hafter, hbefore, hlowers⟩, -⟩ := isLeast_of_find hline hrole hfind
      have hending : span.terminator ∈ endings lines kind opener bound := ⟨hafter, by omega, hlowers⟩
      exact absurd (hempty ▸ hending) (Set.notMem_empty _)
  · intro bound hbound
    rcases exists_find_or hline hrole bound with ⟨other, hother⟩ | ⟨herror, -⟩
    · have hterminator := terminator_lt hother
      rw [← find_unique hfind hother] at hterminator
      exact absurd hbound (Nat.not_le_of_lt hterminator)
    · exact herror
  · rcases exists_find_or hline hrole stop with ⟨span, hfind⟩ | ⟨herror, -⟩
    · exact absurd (isLeast_of_find hline hrole hfind) (hnone _)
    · exact herror

/-- Lines with a terminator too many before a block and one after it, and with a terminator and a marker
of other kinds inside. -/
def stray : List Line :=
  (Script.parse "@endif
@if a
@else
@endwhile
@if b
@elif c
@endif
@finally
@else
@endif
@endif").lines

theorem find_balance_sample :
    find stray 1 11 = .ok ⟨.conditional, 1, 9, [2, 8]⟩ ∧
      IsLeast (endings stray .conditional 1 11) 9 ∧
      Partitions stray .conditional 1 ⟨.conditional, 1, 9, [2, 8]⟩ ∧
      find stray 1 50 = .ok ⟨.conditional, 1, 9, [2, 8]⟩ ∧
      find stray 1 9 = .error (.parse 2 (.unmatched .conditional 2)) := by
  have hline : stray[1]? = some (Line.read 2 "@if a").1 := by decide +kernel
  have hrole : (Line.read 2 "@if a").1.role = .opens .conditional := by decide +kernel
  have hfind : find stray 1 11 = .ok ⟨.conditional, 1, 9, [2, 8]⟩ := by decide +kernel
  obtain ⟨hends, hfound, -⟩ := find_balance hline hrole 11
  obtain ⟨hpartitions, hafter, hbefore⟩ := hfound _ hfind
  exact ⟨hfind, (hends 9).1 ⟨_, hfind, rfl⟩, hpartitions, hafter 50 (by decide),
    hbefore 9 (Nat.le_refl 9)⟩

end Span

end BatchScript
