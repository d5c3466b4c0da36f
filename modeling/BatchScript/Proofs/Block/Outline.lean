import BatchScript.Explanation
import BatchScript.Proofs.Block.Closing
import Mathlib.Data.List.Nodup
import Mathlib.Logic.ExistsUnique

/-!
# Outlines of accepted lines

The matcher finds for every opener the block that the check opens there (`Delimits`), so that the
spans of an outline are nested in one another as the open blocks are: two spans are apart or one
lies in a segment of the other, every line that plays a part belongs to one span, and a span is as
deep as the number of blocks that are open at its opener. All of it is told from the number of open
blocks (`depthAt`), which inside a block is larger than at its opener and after it is the same as
there.
-/

namespace BatchScript

/-- The open block that the opener of a span makes. -/
def Span.entry (lines : List Line) (span : Span) : OpenBlock :=
  ⟨span.kind, Explanation.numberAt lines span.opener, []⟩

namespace Validation

variable {limits : Limits} {lines : List Line}

/-- A span is a block of the check: its opener opens it, and it stays open up to its terminator. -/
structure Delimits (limits : Limits) (lines : List Line) (span : Span) : Prop where
  opens : roleAt lines span.opener = some (.opens span.kind)
  pushed : openAt limits lines (span.opener + 1) =
    span.entry lines :: openAt limits lines span.opener
  closing : Closing limits lines (span.entry lines) (openAt limits lines span.opener)
    (span.opener + 1) span.terminator span.branches

/-- The matcher finds the block that the check opens. -/
theorem Accepts.exists_find (h : Accepts limits [] lines) {opener : Nat} {kind : BlockKind}
    (hrole : roleAt lines opener = some (.opens kind)) :
    ∃ span, Span.find lines opener lines.length = .ok span ∧ span.opener = opener ∧
      Delimits limits lines span := by
  obtain ⟨line, hline, hkind⟩ := exists_of_roleAt hrole
  obtain ⟨hlt, -⟩ := List.getElem?_eq_some_iff.1 hline
  have hpushed := (h.advance hline).eq_of_opens hkind
  rw [← List.nil_append (_ :: openAt limits lines opener)] at hpushed
  obtain ⟨cut, hcut, hclosing⟩ := h.cutBlock_drop (Nat.succ_le_of_lt hlt) hpushed
  have hentry : (Span.ofCut kind opener cut).entry lines = ⟨kind, line.number, []⟩ := by
    simp only [Span.entry, Span.ofCut, Explanation.numberAt, hline, Option.elim]
  refine ⟨Span.ofCut kind opener cut, ?_, rfl, hrole, ?_, ?_⟩
  · have hcut : cutBlock kind 0 (lines.drop (opener + 1)) = some cut := hcut
    simp only [Span.find, hline, hkind, List.take_length, hcut]
  · rw [hentry]
    exact hpushed
  · rw [hentry]
    exact hclosing

/-! ## Outlines -/

theorem mem_openers_iff {position : Nat} :
    position ∈ Span.openers lines ↔ ∃ kind, roleAt lines position = some (.opens kind) := by
  unfold Span.openers roleAt
  rw [List.mem_filter, List.mem_range]
  constructor
  · rintro ⟨hlt, hopener⟩
    rw [List.getElem?_eq_getElem hlt] at hopener ⊢
    cases hrole : lines[position].role with
    | opens kind => exact ⟨kind, congrArg some hrole⟩
    | plain | divides | closes => simp [Span.isOpener, hrole] at hopener
  · rintro ⟨kind, hrole⟩
    obtain ⟨line, hline, hkind⟩ := Option.map_eq_some_iff.1 hrole
    obtain ⟨hlt, -⟩ := List.getElem?_eq_some_iff.1 hline
    refine ⟨hlt, ?_⟩
    rw [hline]
    simp [Span.isOpener, hkind]

theorem nodup_openers (lines : List Line) : (Span.openers lines).Nodup :=
  List.Pairwise.filter _ List.nodup_range

/-- Openers of accepted lines have their spans. -/
theorem Accepts.exists_mapM_find (h : Accepts limits [] lines) {openers : List Nat}
    (hopeners : ∀ opener ∈ openers, ∃ kind, roleAt lines opener = some (.opens kind)) :
    ∃ spans, openers.mapM (Span.find lines · lines.length) = .ok spans ∧
      spans.map (·.opener) = openers ∧ ∀ span ∈ spans, Delimits limits lines span := by
  induction openers with
  | nil => exact ⟨[], rfl, rfl, fun span hspan => absurd hspan List.not_mem_nil⟩
  | cons opener openers ih =>
    obtain ⟨⟨kind, hrole⟩, hopeners⟩ := List.forall_mem_cons.1 hopeners
    obtain ⟨span, hfind, hopener, hspan⟩ := h.exists_find hrole
    obtain ⟨spans, hspans, hmap, hall⟩ := ih hopeners
    refine ⟨span :: spans, ?_, ?_, List.forall_mem_cons.2 ⟨hspan, hall⟩⟩
    · rw [List.mapM_cons, hfind, hspans]
      rfl
    · rw [List.map_cons, hopener, hmap]

theorem Accepts.exists_outline (h : Accepts limits [] lines) :
    ∃ spans, Span.outline lines = .ok spans ∧ spans.map (·.opener) = Span.openers lines ∧
      ∀ span ∈ spans, Delimits limits lines span :=
  h.exists_mapM_find fun _ hopener => mem_openers_iff.1 hopener

/-! ## Depths inside a span -/

namespace Delimits

variable {span first second : Span} {position : Nat}

theorem opener_lt (h : Delimits limits lines span) : span.opener < span.terminator :=
  h.closing.le

/-- Inside a block more blocks are open than at its opener. -/
theorem depthAt_lt (h : Delimits limits lines span) (hopener : span.opener < position)
    (hterminator : position ≤ span.terminator) :
    depthAt limits lines span.opener < depthAt limits lines position := by
  obtain ⟨inner, seen, hopen⟩ := h.closing.stays position hopener hterminator
  simp only [depthAt, hopen, List.length_append, List.length_cons]
  omega

theorem depthAt_terminator (h : Delimits limits lines span) :
    depthAt limits lines span.terminator = depthAt limits lines span.opener + 1 := by
  obtain ⟨added, -, hlast⟩ := h.closing.last
  rw [depthAt, hlast]
  rfl

/-- After a block as many blocks are open as at its opener. -/
theorem depthAt_succ (h : Delimits limits lines span) :
    depthAt limits lines (span.terminator + 1) = depthAt limits lines span.opener := by
  rw [depthAt, h.closing.popped]
  rfl

theorem mem_branches_iff (h : Delimits limits lines span) :
    position ∈ span.branches ↔ span.opener < position ∧ position < span.terminator ∧
      depthAt limits lines position = depthAt limits lines span.opener + 1 ∧
      ∃ branch, roleAt lines position = some (.divides branch) :=
  h.closing.marks position

/-- A block that is opened inside another one is closed before it. -/
theorem terminator_lt (hfirst : Delimits limits lines first)
    (hsecond : Delimits limits lines second) (hopener : first.opener < second.opener)
    (hinside : second.opener ≤ first.terminator) : second.terminator < first.terminator := by
  refine Nat.lt_of_not_le fun hnot => ?_
  have hdepth := hfirst.depthAt_lt hopener hinside
  rcases Nat.lt_or_ge first.terminator second.terminator with hlt | hge
  · have hnext := hsecond.depthAt_lt (Nat.lt_succ_of_le hinside) hlt
    rw [hfirst.depthAt_succ] at hnext
    omega
  · have hsame : first.terminator = second.terminator := by omega
    have hfirst' := hfirst.depthAt_terminator
    have hsecond' := hsecond.depthAt_terminator
    rw [hsame] at hfirst'
    omega

/-- Of the blocks around a position, no two are opened at the same depth. -/
theorem opener_eq (hfirst : Delimits limits lines first) (hsecond : Delimits limits lines second)
    (hbefore : first.opener < position) (hafter : position ≤ first.terminator)
    (hbefore' : second.opener < position) (hafter' : position ≤ second.terminator)
    (hdepth : depthAt limits lines first.opener = depthAt limits lines second.opener) :
    first.opener = second.opener := by
  rcases Nat.lt_trichotomy first.opener second.opener with hlt | heq | hgt
  · have := hfirst.depthAt_lt hlt (by omega)
    omega
  · exact heq
  · have := hsecond.depthAt_lt hgt (by omega)
    omega

end Delimits

/-- Every open block at a position was opened at a line before, and has been open since. -/
theorem Accepts.exists_opener (h : Accepts limits [] lines) {position level : Nat}
    (hposition : position ≤ lines.length) (hlevel : level < depthAt limits lines position) :
    ∃ opener < position, (∃ kind, roleAt lines opener = some (.opens kind)) ∧
      depthAt limits lines opener = level ∧
      ∀ other, opener < other → other ≤ position → level < depthAt limits lines other := by
  -- The opener is the last line at which at most `level` blocks are open.
  induction position with
  | zero => exact absurd hlevel (Nat.not_lt_zero level)
  | succ position ih =>
    rcases Nat.lt_or_ge level (depthAt limits lines position) with hlt | hge
    · obtain ⟨opener, hbefore, hrole, hdepth, hsince⟩ := ih (Nat.le_of_succ_le hposition) hlt
      refine ⟨opener, Nat.lt_succ_of_lt hbefore, hrole, hdepth, fun other hother hle => ?_⟩
      rcases Nat.lt_or_eq_of_le hle with hle | rfl
      · exact hsince other hother (Nat.le_of_lt_succ hle)
      · exact hlevel
    · have hline : lines[position]? = some lines[position] := List.getElem?_eq_getElem hposition
      obtain ⟨⟨kind, hkind⟩, hlength⟩ :=
        (h.advance hline).opens_of_length_lt (Nat.lt_of_le_of_lt hge hlevel)
      refine ⟨position, Nat.lt_succ_self _, ⟨kind, ?_⟩, ?_, fun other hother hle => ?_⟩
      · rw [roleAt_eq hline, hkind]
      · unfold depthAt at hlevel hge ⊢
        omega
      · obtain rfl : other = position + 1 := by omega
        exact hlevel

/-! ## All spans -/

/-- The spans of all openers, each a block of the check. -/
structure Outlines (limits : Limits) (lines : List Line) (spans : List Span) : Prop where
  accepts : Accepts limits [] lines
  openers : spans.map (·.opener) = Span.openers lines
  delimits : ∀ span ∈ spans, Delimits limits lines span

namespace Outlines

variable {spans : List Span} {span first second : Span} {position level : Nat}

theorem nodup (h : Outlines limits lines spans) : spans.Nodup := by
  refine List.Nodup.of_map (·.opener) ?_
  rw [h.openers]
  exact nodup_openers lines

theorem eq_of_opener (h : Outlines limits lines spans) (hfirst : first ∈ spans)
    (hsecond : second ∈ spans) (hopener : first.opener = second.opener) : first = second := by
  refine List.inj_on_of_nodup_map (f := Span.opener) ?_ hfirst hsecond hopener
  rw [h.openers]
  exact nodup_openers lines

/-- For every number of open blocks below that at a position, one span around the position is opened
at that depth. -/
theorem exists_around (h : Outlines limits lines spans) (hposition : position ≤ lines.length)
    (hlevel : level < depthAt limits lines position) :
    ∃ span ∈ spans, span.opener < position ∧ position ≤ span.terminator ∧
      depthAt limits lines span.opener = level := by
  obtain ⟨opener, hbefore, hrole, hdepth, hsince⟩ := h.accepts.exists_opener hposition hlevel
  have hmem : opener ∈ spans.map (·.opener) := h.openers ▸ mem_openers_iff.2 hrole
  obtain ⟨span, hspan, rfl⟩ := List.mem_map.1 hmem
  refine ⟨span, hspan, hbefore, Nat.le_of_not_lt fun hlt => ?_, hdepth⟩
  have hdelimits := h.delimits span hspan
  have hafter := hsince (span.terminator + 1) (by have := hdelimits.opener_lt; omega) hlt
  rw [hdelimits.depthAt_succ] at hafter
  omega

/-- It is the only one. -/
theorem eq_of_around (h : Outlines limits lines spans) (hfirst : first ∈ spans)
    (hsecond : second ∈ spans) (hbefore : first.opener < position)
    (hafter : position ≤ first.terminator) (hbefore' : second.opener < position)
    (hafter' : position ≤ second.terminator)
    (hdepth : depthAt limits lines first.opener = depthAt limits lines second.opener) :
    first = second :=
  h.eq_of_opener hfirst hsecond
    ((h.delimits first hfirst).opener_eq (h.delimits second hsecond) hbefore hafter hbefore'
      hafter' hdepth)

end Outlines

end Validation

end BatchScript
