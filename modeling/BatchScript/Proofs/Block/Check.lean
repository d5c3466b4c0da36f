import BatchScript.Proofs.Block.Reading

/-!
# Accepted lines

What the validator does to the open blocks on a line in which it finds no error, as a relation with
one rule for each part a line may play (`Advance`). Lines are accepted when each of them advances
the open blocks and none is left open (`accepts_cons_iff`, `accepts_nil_iff`).
-/

namespace BatchScript

namespace Validation

/-- A line without an error changes the open blocks. -/
inductive Advance (limits : Limits) (line : Line) : List OpenBlock → List OpenBlock → Prop where
  | text {blocks : List OpenBlock} (plain : line.keyword? = none) :
      Advance limits line blocks blocks
  | simple {blocks : List OpenBlock} {directive : Directive}
      (reads : Directive.ofLine line = .ok directive) (plain : directive.role = .plain) :
      Advance limits line blocks blocks
  | opens {blocks : List OpenBlock} {opening : Opening}
      (reads : Directive.ofLine line = .ok (.opens opening))
      (room : blocks.length < limits.maxNestingDepth) :
      Advance limits line blocks (⟨opening.kind, line.number, []⟩ :: blocks)
  | divides {top : OpenBlock} {outer : List OpenBlock} {marker : Marker}
      (reads : Directive.ofLine line = .ok (.divides marker))
      (same : top.kind = marker.branch.kind)
      (free : markerFault? top.seen marker.branch = none) :
      Advance limits line (top :: outer) ({ top with seen := marker.branch :: top.seen } :: outer)
  | closes {top : OpenBlock} {outer : List OpenBlock}
      (reads : Directive.ofLine line = .ok (.closes top.kind)) :
      Advance limits line (top :: outer) outer

/-- No diagnostic is an error. -/
def Clean (diagnostics : List Diagnostic) : Prop :=
  ∀ diagnostic ∈ diagnostics, diagnostic.severity ≠ .error

@[simp] theorem clean_nil : Clean [] := by
  intro diagnostic h
  cases h

@[simp] theorem not_clean_error (line : Nat) (fault : Fault) : ¬ Clean [.error line fault] :=
  fun h => h _ List.mem_cons_self rfl

theorem clean_append {first last : List Diagnostic} :
    Clean (first ++ last) ↔ Clean first ∧ Clean last :=
  List.forall_mem_append

/-! ## One line -/

/-- The check of a line that is no directive. -/
theorem checkLine_of_keyword?_eq_none {limits : Limits} {line : Line} {blocks : List OpenBlock}
    (h : line.keyword? = none) : checkLine limits line blocks = ⟨blocks, []⟩ := by
  obtain ⟨number, raw, content⟩ := line
  cases content with
  | directive => cases h
  | blank | comment | command => rfl

/-- The check of a line that reads as a directive. -/
theorem checkLine_of_ofLine {limits : Limits} {line : Line} {directive : Directive}
    {blocks : List OpenBlock} (h : Directive.ofLine line = .ok directive) :
    checkLine limits line blocks = step limits directive.role line.number blocks := by
  obtain ⟨number, raw, content⟩ := line
  cases content with
  | directive keyword body =>
    have hread : Directive.read keyword body = .ok directive := h
    simp only [checkLine, hread]
  | blank | comment | command => cases h

/-- A directive line without an error reads as a directive. -/
theorem exists_ofLine_of_clean {limits : Limits} {line : Line} {blocks : List OpenBlock}
    (hkeyword : line.keyword? ≠ none) (h : Clean (checkLine limits line blocks).found) :
    ∃ directive, Directive.ofLine line = .ok directive := by
  obtain ⟨number, raw, content⟩ := line
  cases content with
  | directive keyword body =>
    cases hread : Directive.read keyword body with
    | ok directive => exact ⟨directive, hread⟩
    | error fault =>
      simp only [checkLine, hread] at h
      exact absurd h (not_clean_error _ _)
  | blank | comment | command => exact absurd rfl hkeyword

theorem clean_openBlock_iff {limits : Limits} {kind : BlockKind} {line : Nat}
    {blocks : List OpenBlock} :
    Clean (openBlock limits kind line blocks).found ↔ blocks.length < limits.maxNestingDepth := by
  unfold openBlock
  split
  next h => simp [Nat.not_lt.2 h]
  next h => simp [Nat.not_le.1 h]

/-- An error-free check of a line advances the open blocks. -/
theorem advance_of_clean {limits : Limits} {line : Line} {blocks : List OpenBlock}
    (h : Clean (checkLine limits line blocks).found) :
    Advance limits line blocks (checkLine limits line blocks).blocks := by
  by_cases hkeyword : line.keyword? = none
  · rw [checkLine_of_keyword?_eq_none hkeyword]
    exact .text hkeyword
  obtain ⟨directive, reads⟩ := exists_ofLine_of_clean hkeyword h
  rw [checkLine_of_ofLine reads] at h ⊢
  cases directive with
  | opens opening => exact .opens reads (clean_openBlock_iff.1 h)
  | divides marker =>
    cases blocks with
    | nil => exact absurd h (not_clean_error _ _)
    | cons top outer =>
      simp only [Directive.role, step, divideBlock] at h ⊢
      split at h
      next same =>
        rw [if_pos same]
        split at h
        next => exact absurd h (not_clean_error _ _)
        next free => exact .divides reads same free
      next => exact absurd h (not_clean_error _ _)
  | closes kind =>
    cases blocks with
    | nil => exact absurd h (not_clean_error _ _)
    | cons top outer =>
      simp only [Directive.role, step, closeBlock] at h ⊢
      split at h
      next same =>
        subst same
        rw [if_pos rfl]
        exact .closes reads
      next => exact absurd h (not_clean_error _ _)
  | set | exported | unset | echo | onError => exact .simple reads rfl

/-- A line advances the open blocks as its check says, and the check finds no error. -/
theorem Advance.checkLine_eq {limits : Limits} {line : Line} {blocks next : List OpenBlock}
    (h : Advance limits line blocks next) :
    (checkLine limits line blocks).blocks = next ∧ Clean (checkLine limits line blocks).found := by
  cases h with
  | text plain =>
    rw [checkLine_of_keyword?_eq_none plain]
    exact ⟨rfl, clean_nil⟩
  | simple reads plain =>
    rw [checkLine_of_ofLine reads, plain]
    exact ⟨rfl, clean_nil⟩
  | opens reads room =>
    rw [checkLine_of_ofLine reads]
    exact ⟨rfl, clean_openBlock_iff.2 room⟩
  | divides reads same free =>
    rw [checkLine_of_ofLine reads]
    simp only [Directive.role, step, divideBlock, if_pos same, free]
    exact ⟨trivial, clean_nil⟩
  | closes reads =>
    rw [checkLine_of_ofLine reads]
    simp only [Directive.role, step, closeBlock, if_true]
    refine ⟨trivial, ?_⟩
    split
    · intro diagnostic hmem
      rw [List.mem_singleton.1 hmem]
      exact Severity.noConfusion
    · exact clean_nil

/-! ### Lines by their keywords -/

section Keywords

variable {limits : Limits} {line : Line} {keyword : String} {outer : List OpenBlock}
  (hkeyword : line.keyword? = some keyword)
  (readable : line.keyword?.isSome → ∃ directive, Directive.ofLine line = .ok directive)

include hkeyword readable

theorem exists_ofLine_of_keyword? :
    ∃ directive, Directive.ofLine line = .ok directive ∧
      directive.role = .ofKeyword keyword := by
  obtain ⟨directive, reads⟩ := readable (by rw [hkeyword]; rfl)
  refine ⟨directive, reads, ?_⟩
  rw [← Directive.role_of_ofLine reads, Line.role_of_keyword? hkeyword]

theorem advance_simple (h : keyword ∈ Directive.simpleKeywords) {blocks : List OpenBlock} :
    Advance limits line blocks blocks := by
  obtain ⟨directive, reads, hrole⟩ := exists_ofLine_of_keyword? hkeyword readable
  exact .simple reads (hrole.trans (Directive.role_of_mem_simpleKeywords h))

theorem advance_opens (kind : BlockKind) (h : keyword = kind.opener) {blocks : List OpenBlock}
    (room : blocks.length < limits.maxNestingDepth) :
    Advance limits line blocks (⟨kind, line.number, []⟩ :: blocks) := by
  obtain ⟨directive, reads, hrole⟩ := exists_ofLine_of_keyword? hkeyword readable
  obtain ⟨opening, rfl, rfl⟩ :=
    Directive.eq_opens_of_role (hrole.trans (Role.ofKeyword_eq_opens_iff.2 h))
  exact .opens reads room

theorem advance_divides (branch : Branch) (h : keyword = branch.keyword) {number : Nat}
    {seen : List Branch} (free : markerFault? seen branch = none) :
    Advance limits line (⟨branch.kind, number, seen⟩ :: outer)
      (⟨branch.kind, number, branch :: seen⟩ :: outer) := by
  obtain ⟨directive, reads, hrole⟩ := exists_ofLine_of_keyword? hkeyword readable
  obtain ⟨marker, rfl, rfl⟩ :=
    Directive.eq_divides_of_role (hrole.trans (Role.ofKeyword_eq_divides_iff.2 h))
  exact .divides reads rfl free

theorem advance_closes (kind : BlockKind) (h : keyword = kind.terminator) {number : Nat}
    {seen : List Branch} : Advance limits line (⟨kind, number, seen⟩ :: outer) outer := by
  obtain ⟨directive, reads, hrole⟩ := exists_ofLine_of_keyword? hkeyword readable
  obtain rfl := Directive.eq_closes_of_role (hrole.trans (Role.ofKeyword_eq_closes_iff.2 h))
  exact .closes reads

end Keywords

/-! ## All lines -/

/-- The check of lines finds no error when it starts with some blocks open. -/
def Accepts (limits : Limits) (blocks : List OpenBlock) (lines : List Line) : Prop :=
  Clean (checkLines limits blocks lines)

theorem accepts_nil_iff {limits : Limits} {blocks : List OpenBlock} :
    Accepts limits blocks [] ↔ blocks = [] := by
  constructor
  · intro h
    cases blocks with
    | nil => rfl
    | cons top outer =>
      refine absurd rfl (h (.error top.line (.unmatched top.kind top.line)) ?_)
      exact List.mem_map_of_mem (List.mem_reverse.2 List.mem_cons_self)
  · rintro rfl
    exact clean_nil

theorem accepts_cons_iff {limits : Limits} {blocks : List OpenBlock} {line : Line}
    {rest : List Line} :
    Accepts limits blocks (line :: rest) ↔
      ∃ next, Advance limits line blocks next ∧ Accepts limits next rest := by
  constructor
  · intro h
    obtain ⟨hline, hrest⟩ := clean_append.1 h
    exact ⟨_, advance_of_clean hline, hrest⟩
  · rintro ⟨next, hline, hrest⟩
    obtain ⟨rfl, hfound⟩ := hline.checkLine_eq
    exact clean_append.2 ⟨hfound, hrest⟩

theorem readable_of_accepts {limits : Limits} {blocks : List OpenBlock} {lines : List Line}
    (h : Accepts limits blocks lines) : Readable lines := by
  induction lines generalizing blocks with
  | nil => exact fun line hline => absurd hline List.not_mem_nil
  | cons first rest ih =>
    obtain ⟨next, hfirst, hrest⟩ := accepts_cons_iff.1 h
    intro line hline hkeyword
    rcases List.mem_cons.1 hline with rfl | hline
    · cases hfirst with
      | text plain => simp [plain] at hkeyword
      | simple reads | opens reads | divides reads | closes reads => exact ⟨_, reads⟩
    · exact ih hrest line hline hkeyword

end Validation

namespace Script

/-- A script without diagnostics is accepted. -/
theorem ensureValid_of_nil {script : Script} {limits : Limits}
    (h : script.diagnostics ++ Validation.checkLines limits [] script.lines = []) :
    script.ensureValid limits = .ok [] := by
  unfold ensureValid validate
  rw [h, List.mergeSort_nil]
  rfl

/-- A script that is accepted has no error, neither from reading nor from the check. -/
theorem accepts_of_ensureValid {script : Script} {limits : Limits}
    {warnings : List Diagnostic} (h : script.ensureValid limits = .ok warnings) :
    Validation.Accepts limits [] script.lines := by
  unfold Script.ensureValid at h
  dsimp only at h
  split at h
  · cases h
  · next hnone =>
    intro diagnostic hmem herror
    have hmem : diagnostic ∈ script.validate limits :=
      List.mem_mergeSort.2 (List.mem_append_right _ hmem)
    exact absurd (decide_eq_true herror) (List.find?_eq_none.1 hnone diagnostic hmem)

/-- A script with blocks of all kinds, nested in one another. -/
def sample : Script :=
  .parse "@foreach item in a b
@if $item == a
@try
run $item
@catch
repair
@endtry
@else
@while $n < 3
count
@endwhile
@endif
@endforeach"

theorem ensureValid_sample : sample.ensureValid {} = .ok [] :=
  ensureValid_of_nil (by decide +kernel)

end Script

end BatchScript
