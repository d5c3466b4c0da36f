import BatchScript.Proofs.Block.Bodies

/-!
# Segments stand by themselves

The lines between a marker of a block and the next one close every block that they open and nothing
else. The check of a script goes through them without a look at the blocks that are open around them
(`Advance.inside`), so they are accepted as a script of their own, and a block that is opened among
them is found without the lines after them (`exists_segment_valid`).
-/

namespace BatchScript

variable {lines : List Line}

/-! ## Finding with a further bound -/

/-- A slice that ends later goes on after the lines of the shorter one. -/
theorem exists_slice_append (lines : List Line) (start : Nat) {stop bound : Nat} (h : stop ≤ bound) :
    ∃ more, slice lines start bound = slice lines start stop ++ more := by
  have htake : lines.take bound = lines.take stop ++ (lines.take bound).drop stop := by
    have hfront : lines.take stop = (lines.take bound).take stop := by
      rw [List.take_take, Nat.min_eq_left h]
    rw [hfront, List.take_append_drop]
  refine ⟨((lines.take bound).drop stop).drop (start - (lines.take stop).length), ?_⟩
  rw [slice, slice, ← List.drop_append, ← htake]

/-- What is found without the lines after a bound is found with more of them. -/
theorem Span.find_of_le {opener stop bound : Nat} {span : Span}
    (h : find lines opener stop = .ok span) (hbound : stop ≤ bound) :
    find lines opener bound = .ok span := by
  obtain ⟨line, kind, cut, hline, hrole, hcut, rfl⟩ := exists_cut_of_find h
  obtain ⟨more, hmore⟩ := exists_slice_append lines (opener + 1) hbound
  have hlines : slice lines (opener + 1) bound = (cut.withRest (cut.rest ++ more)).lines := by
    rw [hmore, ← Cut.lines_cut hcut]
    simp [Cut.lines, Cut.withRest]
  rw [find_of_opens hline hrole, hlines, cutBlock_withRest hcut]
  rfl

namespace Validation

variable {limits : Limits}

/-! ## Blocks that are open around a line -/

/-- A line that touches no block around it advances the blocks inside as if the others were not
there. -/
theorem Advance.inside {line : Line} {inner base next : List OpenBlock}
    (h : Advance limits line (inner ++ base) next) (habove : base.length ≤ next.length)
    (hdivides : ∀ branch, line.role = .divides branch → base.length < (inner ++ base).length) :
    ∃ inner', next = inner' ++ base ∧ Advance limits line inner inner' := by
  generalize hblocks : inner ++ base = blocks at h hdivides
  cases h with
  | text plain => exact ⟨inner, hblocks.symm, .text plain⟩
  | simple reads plain => exact ⟨inner, hblocks.symm, .simple reads plain⟩
  | opens reads room =>
    subst hblocks
    rw [List.length_append] at room
    exact ⟨_ :: inner, rfl, .opens reads (by omega)⟩
  | divides reads same free =>
    have hinner := hdivides _ (Directive.role_of_ofLine reads)
    cases inner with
    | nil =>
      rw [← hblocks] at hinner
      exact absurd hinner (Nat.lt_irrefl _)
    | cons top inner =>
      obtain ⟨rfl, rfl⟩ := List.cons.inj hblocks
      exact ⟨_ :: inner, rfl, .divides reads same free⟩
  | closes reads =>
    cases inner with
    | nil =>
      rw [List.nil_append] at hblocks
      subst hblocks
      exact absurd habove (Nat.not_succ_le_self _)
    | cons top inner =>
      obtain ⟨rfl, rfl⟩ := List.cons.inj hblocks
      exact ⟨inner, rfl, .closes reads⟩

/-- The lines of a level range at whose own level no marker stands are accepted by themselves. -/
theorem Accepts.slice_inside (h : Accepts limits [] lines) {start stop : Nat}
    (hlevel : Level limits lines start stop)
    (hdivides : ∀ position, start ≤ position → position < stop →
      depthAt limits lines position = depthAt limits lines start →
      ∀ branch, roleAt lines position ≠ some (.divides branch))
    {position : Nat} {inner : List OpenBlock} (hstart : start ≤ position) (hstop : position ≤ stop)
    (hopen : openAt limits lines position = inner ++ openAt limits lines start) :
    Accepts limits inner (slice lines position stop) := by
  -- from the end of the range backwards
  induction hsize : stop - position generalizing position inner with
  | zero =>
    obtain rfl : position = stop := by omega
    have hsame := hlevel.same
    rw [depthAt, hopen, List.length_append] at hsame
    rw [slice_of_le (Nat.le_refl _)]
    exact accepts_nil_iff.2 (List.length_eq_zero_iff.1 (by rw [depthAt] at hsame; omega))
  | succ size ih =>
    have hlt : position < stop := by omega
    have hlength := Nat.lt_of_lt_of_le hlt hlevel.stop_le
    have hline : lines[position]? = some lines[position] := List.getElem?_eq_getElem hlength
    have hadvance := h.advance hline
    have habove : (openAt limits lines start).length ≤ (openAt limits lines (position + 1)).length :=
      hlevel.above (position + 1) (by omega) hlt
    rw [hopen] at hadvance
    obtain ⟨inner', hnext, hinner⟩ := hadvance.inside habove fun branch hrole => by
      have hdepth := hlevel.above position hstart hstop
      have hne : depthAt limits lines position ≠ depthAt limits lines start := fun heq =>
        hdivides position hstart hlt heq branch ((roleAt_eq hline).trans (congrArg some hrole))
      rw [← hopen]
      exact Nat.lt_of_le_of_ne hdepth hne.symm
    rw [slice_cons hline hlt]
    exact accepts_cons_iff.2 ⟨inner', hinner, ih (by omega) hlt hnext (by omega)⟩

/-! ## Lines with other numbers -/

/-- What the check takes from a block that is open: all but the number of the line that opened it. -/
def shapes (blocks : List OpenBlock) : List (BlockKind × List Branch) :=
  blocks.map fun block => (block.kind, block.seen)

/-- A line advances open blocks by what it says, whatever its number and theirs. -/
theorem Advance.renumber {line other : Line} {blocks next blocks' : List OpenBlock}
    (h : Advance limits line blocks next) (hcontent : other.content = line.content)
    (hshapes : shapes blocks' = shapes blocks) :
    ∃ next', Advance limits other blocks' next' ∧ shapes next' = shapes next := by
  have hkeyword : other.keyword? = line.keyword? := by rw [Line.keyword?, hcontent]; rfl
  have hreads : Directive.ofLine other = Directive.ofLine line := by
    rw [Directive.ofLine, hcontent]
    rfl
  cases h with
  | text plain => exact ⟨blocks', .text (hkeyword.trans plain), hshapes⟩
  | simple reads plain => exact ⟨blocks', .simple (hreads.trans reads) plain, hshapes⟩
  | opens reads room =>
    have hlength := congrArg List.length hshapes
    rw [shapes, shapes, List.length_map, List.length_map] at hlength
    exact ⟨_, .opens (hreads.trans reads) (hlength ▸ room), congrArg (_ :: ·) hshapes⟩
  | @divides top outer marker reads same free =>
    obtain ⟨top', outer', rfl, htop, houter⟩ := List.map_eq_cons_iff.1 hshapes
    obtain ⟨hkind, hseen⟩ := Prod.mk.inj htop
    refine ⟨_, .divides (hreads.trans reads) (hkind.trans same) (hseen ▸ free), ?_⟩
    rw [shapes, shapes, List.map_cons, List.map_cons, houter, hkind, hseen]
  | @closes top outer reads =>
    obtain ⟨top', outer', rfl, htop, houter⟩ := List.map_eq_cons_iff.1 hshapes
    obtain ⟨hkind, -⟩ := Prod.mk.inj htop
    exact ⟨outer', .closes (hkind ▸ hreads.trans reads), houter⟩

/-- Whether lines are accepted does not depend on their numbers. -/
theorem Accepts.renumber {lines others : List Line} {blocks blocks' : List OpenBlock}
    (h : Accepts limits blocks lines) (hcontent : others.map (·.content) = lines.map (·.content))
    (hshapes : shapes blocks' = shapes blocks) : Accepts limits blocks' others := by
  induction lines generalizing others blocks blocks' with
  | nil =>
    obtain rfl := List.map_eq_nil_iff.1 hcontent
    obtain rfl := accepts_nil_iff.1 h
    exact accepts_nil_iff.2 (List.map_eq_nil_iff.1 hshapes)
  | cons line rest ih =>
    obtain ⟨other, others, rfl, hline, hrest⟩ := List.map_eq_cons_iff.1 hcontent
    obtain ⟨next, hadvance, haccepts⟩ := accepts_cons_iff.1 h
    obtain ⟨next', hadvance', hnext⟩ := hadvance.renumber hline hshapes
    exact accepts_cons_iff.2 ⟨next', hadvance', ih haccepts hrest hnext⟩

/-! ## Segments of a block -/

section Segment

variable {span : Span} {marker : Nat}

/-- The lines of a segment are accepted by themselves. -/
theorem Accepts.segment (h : Accepts limits [] lines) (hspan : Delimits limits lines span)
    (hmarker : marker = span.opener ∨ marker ∈ span.branches) :
    Accepts limits [] (slice lines (marker + 1) (span.segmentEnd marker)) := by
  have hlevel := h.level_segment hspan hmarker
  exact h.slice_inside hlevel
    (fun position hbefore hafter => hspan.not_divides_segment hlevel hmarker hbefore hafter)
    (Nat.le_refl _) hlevel.start_le (List.nil_append _).symm

/-- What is found in accepted lines, under whatever bound, is a block of the check. -/
theorem Accepts.delimits_of_find (h : Accepts limits [] lines) {opener stop : Nat}
    (hfind : Span.find lines opener stop = .ok span) :
    span.opener = opener ∧ Delimits limits lines span := by
  obtain ⟨kind, hrole⟩ := Span.exists_roleAt_of_find hfind
  obtain ⟨found, hfound, hopener, hspan⟩ := h.exists_find hrole
  have hlarge := Span.find_of_le hfind (Nat.le_max_left stop lines.length)
  rw [Span.find_of_le hfound (Nat.le_max_right stop lines.length)] at hlarge
  obtain rfl := Except.ok.inj hlarge
  exact ⟨hopener, hspan⟩

end Segment

end Validation

/-! ## Scripts of their own -/

namespace Script

open Validation

/-- A script is accepted if no reading of it reported an error and its lines are accepted. -/
theorem ensureValid_eq_ok {script : Script} {limits : Limits} (hread : Clean script.diagnostics)
    (h : Accepts limits [] script.lines) :
    script.ensureValid limits = .ok (script.validate limits) ∧ Clean (script.validate limits) := by
  have hclean : Clean (script.validate limits) := fun diagnostic hmem =>
    clean_append.2 ⟨hread, h⟩ diagnostic (List.mem_mergeSort.1 hmem)
  have hnone : (script.validate limits).find? (·.severity = .error) = none :=
    List.find?_eq_none.2 fun diagnostic hmem => by simpa using hclean diagnostic hmem
  refine ⟨?_, hclean⟩
  rw [ensureValid, hnone]

/-- In an accepted script, the lines between the opener or a marker of a block and its next marker or
terminator stand by themselves. A script that says the same, with numbers of its own, is accepted
under the same limits. And where one of these lines opens a block, the block is found before the
end of the segment, and the same with any later bound. -/
theorem exists_segment_valid {script : Script} {limits : Limits} {warnings : List Diagnostic}
    (h : script.ensureValid limits = .ok warnings) {opener stop : Nat} {span : Span}
    (hfind : Span.find script.lines opener stop = .ok span) {marker : Nat}
    (hmarker : marker = opener ∨ marker ∈ span.branches) :
    let segment := slice script.lines (marker + 1) (span.segmentEnd marker)
    (∀ own : Script, own.lines.map (·.content) = segment.map (·.content) →
      Clean own.diagnostics →
        own.ensureValid limits = .ok (own.validate limits) ∧ Clean (own.validate limits)) ∧
    ∀ inner, marker < inner → inner < span.segmentEnd marker → ∀ kind,
      roleAt script.lines inner = some (.opens kind) →
        ∃ found, found.terminator < span.segmentEnd marker ∧ ∀ bound,
          span.segmentEnd marker ≤ bound → Span.find script.lines inner bound = .ok found := by
  intro segment
  have haccepts := accepts_of_ensureValid h
  obtain ⟨rfl, hspan⟩ := haccepts.delimits_of_find hfind
  refine ⟨fun own hcontent hread => ?_, fun inner hbefore hafter kind hrole => ?_⟩
  · exact ensureValid_eq_ok hread ((haccepts.segment hspan hmarker).renumber hcontent rfl)
  · obtain ⟨found, -, hterminator, -, hfound⟩ :=
      (haccepts.level_segment hspan hmarker).exists_find haccepts hbefore hafter hrole
    exact ⟨found, hterminator, hfound⟩

/-- The part of the sample after its `@else`, as a script of its own. -/
def sampleOtherwise : Script :=
  ⟨slice sample.lines 8 11, []⟩

theorem exists_segment_valid_sample :
    Span.find sample.lines 1 13 = .ok ⟨.conditional, 1, 11, [7]⟩ ∧
      sampleOtherwise.ensureValid {} = .ok (sampleOtherwise.validate {}) ∧
      Clean (sampleOtherwise.validate {}) ∧
      ∃ found, found.terminator < 11 ∧
        ∀ bound, 11 ≤ bound → Span.find sample.lines 8 bound = .ok found := by
  have hfind : Span.find sample.lines 1 13 = .ok ⟨.conditional, 1, 11, [7]⟩ := by
    decide +kernel
  have hrole : roleAt sample.lines 8 = some (.opens .loop) := by decide +kernel
  obtain ⟨hown, hinner⟩ := exists_segment_valid ensureValid_sample hfind
    (.inr (List.mem_singleton.2 rfl) : 7 = 1 ∨ 7 ∈ [7])
  have hend : Span.segmentEnd ⟨.conditional, 1, 11, [7]⟩ 7 = 11 := by decide
  rw [hend] at hown hinner
  obtain ⟨hvalid, hclean⟩ := hown sampleOtherwise (by rw [sampleOtherwise]) clean_nil
  exact ⟨hfind, hvalid, hclean, hinner 8 (by decide) (by decide) .loop hrole⟩

end Script

end BatchScript
