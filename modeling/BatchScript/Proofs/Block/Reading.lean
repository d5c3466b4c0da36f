import BatchScript.Validation
import BatchScript.Block.Cut

/-!
# Reading directive lines

The block matcher goes by the keyword of a line alone, the validator and the run by the directive
that the line reads as. On a line that reads as a directive the two agree (`role_of_ofLine`), and
the keyword can be told from the role (`ofKeyword_eq_opens_iff` and its companions).

What a run does with lines, accepted or not, follows how they are read (`lines_induction`): a line that
opens no block, an opener whose block is not closed, or a block and what is left after it.
-/

namespace BatchScript

/-! ## Keywords and roles -/

namespace Role

theorem ofKeyword_eq_opens_iff {keyword : String} {kind : BlockKind} :
    ofKeyword keyword = .opens kind ↔ keyword = kind.opener := by
  constructor
  · intro h
    unfold ofKeyword at h
    split at h <;> cases h
    next hopener =>
      have hfound := List.find?_some hopener
      exact (beq_iff_eq.1 hfound).symm
  · rintro rfl
    cases kind <;> rfl

theorem ofKeyword_eq_divides_iff {keyword : String} {branch : Branch} :
    ofKeyword keyword = .divides branch ↔ keyword = branch.keyword := by
  constructor
  · intro h
    unfold ofKeyword at h
    split at h <;> cases h
    next hbranch =>
      have hfound := List.find?_some hbranch
      exact (beq_iff_eq.1 hfound).symm
  · rintro rfl
    cases branch <;> rfl

theorem ofKeyword_eq_closes_iff {keyword : String} {kind : BlockKind} :
    ofKeyword keyword = .closes kind ↔ keyword = kind.terminator := by
  constructor
  · intro h
    unfold ofKeyword at h
    split at h <;> cases h
    next hterminator =>
      have hfound := List.find?_some hterminator
      exact (beq_iff_eq.1 hfound).symm
  · rintro rfl
    cases kind <;> rfl

end Role

/-! ## Directives and roles -/

namespace Directive

theorem readCondition_eq_ok {keyword body : String} {directive : String → Directive}
    {result : Directive} (h : readCondition keyword body directive = .ok result) :
    result = directive body := by
  unfold readCondition at h
  split at h <;> cases h
  rfl

theorem readNothing_eq_ok {keyword body : String} {directive result : Directive}
    (h : readNothing keyword body directive = .ok result) : result = directive := by
  unfold readNothing at h
  split at h <;> cases h
  rfl

theorem readForeach_eq_ok {body : List Char} {result : Directive}
    (h : readForeach body = .ok result) : ∃ var list, result = .opens (.foreach var list) := by
  unfold readForeach at h
  dsimp only at h
  split at h
  · cases h
  · split at h <;> cases h
    exact ⟨_, _, rfl⟩
  · cases h

theorem map_eq_ok {α : Type} {read : Except Fault α} {directive : α → Directive}
    {result : Directive} (h : read.map directive = .ok result) :
    ∃ value, result = directive value := by
  cases read <;> cases h
  exact ⟨_, rfl⟩

/-- A directive plays the part that its keyword announces. -/
theorem role_of_read {keyword body : String} {directive : Directive}
    (h : read keyword body = .ok directive) : Role.ofKeyword keyword = directive.role := by
  unfold read at h
  split at h
  case h_1 | h_2 | h_5 =>
    obtain ⟨value, rfl⟩ := map_eq_ok h
    rfl
  case h_3 =>
    split at h <;> cases h
    rfl
  case h_4 =>
    cases h
    rfl
  case h_6 | h_7 | h_8 =>
    obtain rfl := readCondition_eq_ok h
    rfl
  case h_9 =>
    obtain ⟨var, list, rfl⟩ := readForeach_eq_ok h
    rfl
  case h_18 | h_19 => cases h
  all_goals
    obtain rfl := readNothing_eq_ok h
    rfl

/-- The keywords of the directives that play no part in the block structure. -/
def simpleKeywords : List String :=
  ["set", "unset", "echo", "export", "onerror"]

theorem mem_simpleKeywords_of_read {keyword body : String} {directive : Directive}
    (h : read keyword body = .ok directive) (plain : directive.role = .plain) :
    keyword ∈ simpleKeywords := by
  have hrole := (role_of_read h).trans plain
  unfold read at h
  split at h
  case h_1 | h_2 | h_3 | h_4 | h_5 => simp [simpleKeywords]
  case h_18 | h_19 => cases h
  all_goals exact absurd hrole (by decide)

theorem role_of_mem_simpleKeywords {keyword : String} (h : keyword ∈ simpleKeywords) :
    Role.ofKeyword keyword = .plain := by
  simp only [simpleKeywords, List.mem_cons, List.not_mem_nil, or_false] at h
  rcases h with rfl | rfl | rfl | rfl | rfl <;> rfl

theorem eq_opens_of_role {directive : Directive} {kind : BlockKind}
    (h : directive.role = .opens kind) :
    ∃ opening : Opening, directive = .opens opening ∧ opening.kind = kind := by
  cases directive <;> cases h
  exact ⟨_, rfl, rfl⟩

theorem eq_divides_of_role {directive : Directive} {branch : Branch}
    (h : directive.role = .divides branch) :
    ∃ marker : Marker, directive = .divides marker ∧ marker.branch = branch := by
  cases directive <;> cases h
  exact ⟨_, rfl, rfl⟩

theorem eq_closes_of_role {directive : Directive} {kind : BlockKind}
    (h : directive.role = .closes kind) : directive = .closes kind := by
  cases directive <;> cases h
  rfl

/-! ## Lines -/

/-- Only a directive line reads as a directive. -/
theorem keyword?_of_ofLine {line : Line} {directive : Directive}
    (h : ofLine line = .ok directive) : ∃ keyword, line.keyword? = some keyword := by
  obtain ⟨number, raw, content⟩ := line
  cases content with
  | directive keyword body => exact ⟨keyword, rfl⟩
  | blank | comment | command => cases h

/-- A directive that plays no part in the block structure has one of a few keywords. -/
theorem exists_mem_simpleKeywords {line : Line} {directive : Directive}
    (h : ofLine line = .ok directive) (plain : directive.role = .plain) :
    ∃ keyword ∈ simpleKeywords, line.keyword? = some keyword := by
  obtain ⟨number, raw, content⟩ := line
  cases content with
  | directive keyword body => exact ⟨keyword, mem_simpleKeywords_of_read h plain, rfl⟩
  | blank | comment | command => cases h

/-- A line that reads as a directive plays the part of the directive. -/
theorem role_of_ofLine {line : Line} {directive : Directive}
    (h : ofLine line = .ok directive) : line.role = directive.role := by
  obtain ⟨number, raw, content⟩ := line
  cases content with
  | directive keyword body => exact role_of_read h
  | blank | comment | command => cases h

end Directive

theorem Line.role_of_keyword? {line : Line} {keyword : String}
    (h : line.keyword? = some keyword) : line.role = .ofKeyword keyword := by
  obtain ⟨number, raw, content⟩ := line
  cases content <;> cases h
  rfl

/-- A line without a keyword plays no part in the block structure. -/
theorem Line.role_of_keyword?_eq_none {line : Line} (h : line.keyword? = none) :
    line.role = .plain := by
  obtain ⟨number, raw, content⟩ := line
  cases content with
  | directive => cases h
  | blank | comment | command => rfl

/-- A line that plays a part in the block structure has a keyword. -/
theorem Line.isSome_keyword? {line : Line} (h : line.role ≠ .plain) : line.keyword?.isSome := by
  rw [Option.isSome_iff_ne_none]
  exact fun hnone => h (Line.role_of_keyword?_eq_none hnone)

namespace Directive

theorem opening?_of_ofLine {line : Line} {opening : Opening}
    (h : ofLine line = .ok (.opens opening)) : opening? line = some opening := by
  unfold opening?
  rw [h]

theorem role_of_opening? {line : Line} {opening : Opening} (h : opening? line = some opening) :
    line.role = .opens opening.kind := by
  unfold opening? at h
  split at h
  next reads =>
    cases h
    exact role_of_ofLine reads
  next => cases h

end Directive

/-! ## Readable lines -/

/-- Every directive line reads as a directive. -/
def Readable (lines : List Line) : Prop :=
  ∀ line ∈ lines, line.keyword?.isSome → ∃ directive, Directive.ofLine line = .ok directive

theorem readable_append {first last : List Line} :
    Readable (first ++ last) ↔ Readable first ∧ Readable last :=
  List.forall_mem_append

theorem readable_cons {line : Line} {rest : List Line} :
    Readable (line :: rest) ↔
      (line.keyword?.isSome → ∃ directive, Directive.ofLine line = .ok directive) ∧
        Readable rest :=
  List.forall_mem_cons

/-- A line that plays a part in the block structure reads as a directive for that part. -/
theorem Readable.exists_ofLine {lines : List Line} (h : Readable lines) {line : Line}
    (hline : line ∈ lines) (hrole : line.role ≠ .plain) :
    ∃ directive, Directive.ofLine line = .ok directive ∧ directive.role = line.role := by
  obtain ⟨directive, reads⟩ := h line hline (Line.isSome_keyword? hrole)
  exact ⟨directive, reads, (Directive.role_of_ofLine reads).symm⟩

/-- A line with an opening keyword opens a block. -/
theorem Readable.exists_opening? {lines : List Line} (h : Readable lines) {line : Line}
    (hline : line ∈ lines) {kind : BlockKind} (hrole : line.role = .opens kind) :
    ∃ opening : Opening, Directive.opening? line = some opening ∧ opening.kind = kind := by
  obtain ⟨directive, reads, hdirective⟩ := h.exists_ofLine hline (by simp [hrole])
  obtain ⟨opening, rfl, hkind⟩ := Directive.eq_opens_of_role (hdirective.trans hrole)
  exact ⟨opening, Directive.opening?_of_ofLine reads, hkind⟩

/-! ## Induction on lines -/

/-- What holds of no lines, and of lines if it holds of those after the first one, or of the parts of
the block that the first one opens and of the lines after the block, holds of all lines. -/
theorem lines_induction {motive : List Line → Prop} (nil : motive [])
    (line : ∀ line rest, Directive.opening? line = none → motive rest → motive (line :: rest))
    (unmatched : ∀ line opening rest, Directive.opening? line = some opening →
      cutBlock opening.kind 0 rest = none → motive (line :: rest))
    (block : ∀ line opening rest cut, Directive.opening? line = some opening →
      cutBlock opening.kind 0 rest = some cut → motive cut.body →
      (∀ part ∈ cut.parts, motive part.2) → motive cut.rest → motive (line :: rest))
    (lines : List Line) : motive lines := by
  -- The parts of a block and the lines after it are fewer.
  induction hsize : lines.length using Nat.strongRecOn generalizing lines with
  | ind size ih =>
  subst hsize
  cases lines with
  | nil => exact nil
  | cons first rest =>
    cases hopening : Directive.opening? first with
    | none => exact line first rest hopening (ih _ (Nat.lt_succ_self _) rest rfl)
    | some opening =>
      cases hcut : cutBlock opening.kind 0 rest with
      | none => exact unmatched first opening rest hopening hcut
      | some cut =>
        refine block first opening rest cut hopening hcut ?_ (fun part hpart => ?_) ?_
        · exact ih _ (Nat.lt_succ_of_lt (Cut.length_body_lt hcut)) cut.body rfl
        · exact ih _ (Nat.lt_succ_of_lt (Cut.length_of_mem_parts hcut hpart)) part.2 rfl
        · exact ih _ (Nat.lt_succ_of_lt (Cut.length_rest_lt hcut)) cut.rest rfl

end BatchScript
