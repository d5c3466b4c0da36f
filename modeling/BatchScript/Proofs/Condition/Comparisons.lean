import BatchScript.Proofs.Condition.Reading

/-!
# Comparisons are read as they are written

The marks of the operators are parts of one another, so a text is searched for the operators in a fixed
order. An operator that is searched for earlier than the one between two operands without marks has a mark
that the text lacks, or it is `==` and the text has a single `=` (`Comparison.all_eq_append`), so
the comparison is cut where it is written (`Comparison.find?_append`). Nothing that is searched for
before the operators takes the text away (`Condition.read_comparison`), and values are put in only when
it has been read (`Condition.holds_comparison`).
-/

namespace BatchScript

open Text

/-! ## The search for operators -/

namespace Comparison

/-- The characters of which operators are written. -/
def marks : List Char := ['=', '!', '<', '>']

/-- Outside quotes no mark stands in the text. -/
def Unmarked (text : List Char) : Prop :=
  ∀ c ∈ marks, c ∉ exposed none text

instance (text : List Char) : Decidable (Unmarked text) :=
  List.decidableBAll (fun c => c ∉ exposed none text) marks

theorem Unmarked.append {front back : List Char} (hfront : Unmarked front) (hback : Unmarked back)
    (hbalanced : Balanced front) : Unmarked (front ++ back) := by
  intro c hc h
  rw [exposed_append, hbalanced] at h
  exact (List.mem_append.1 h).elim (hfront c hc) (hback c hc)

theorem Unmarked.trimStart {text : List Char} (h : Unmarked text) : Unmarked (trimStart text) :=
  fun c hc hmem => h c hc (mem_exposed_of_trimStart hmem)

theorem Unmarked.trimEnd {text : List Char} (h : Unmarked text) : Unmarked (trimEnd text) :=
  fun c hc hmem => h c hc (mem_exposed_of_trimEnd hmem)

theorem plain_marks : Plain marks := by
  decide

theorem symbol_subset (operator : Comparison) : operator.symbol.toList ⊆ marks := by
  cases operator <;> decide

theorem plain_symbol (operator : Comparison) : Plain operator.symbol.toList :=
  fun c hc => plain_marks c (operator.symbol_subset hc)

/-- An operator begins with a mark. -/
theorem symbol_eq_cons (operator : Comparison) :
    ∃ c ∈ marks, ∃ rest, operator.symbol.toList = c :: rest := by
  cases operator <;> exact ⟨_, by decide, _, rfl⟩

/-- An operator that is searched for earlier has a mark of its own, or it is `==` before an operator of
another mark and a single `=`. -/
theorem all_eq_append (operator : Comparison) :
    ∃ earlier later, all = earlier ++ operator :: later ∧ ∀ other ∈ earlier,
      ¬ other.symbol.toList ⊆ operator.symbol.toList ∨
        other = .equal ∧ operator.symbol.toList ∈ [['!', '='], ['>', '='], ['<', '=']] := by
  cases operator with
  | equal => exact ⟨[], _, rfl, by decide⟩
  | unequal => exact ⟨[.equal], _, rfl, by decide⟩
  | atLeast => exact ⟨[.equal, .unequal], _, rfl, by decide⟩
  | atMost => exact ⟨[.equal, .unequal, .atLeast], _, rfl, by decide⟩
  | greater => exact ⟨[.equal, .unequal, .atLeast, .atMost], _, rfl, by decide⟩
  | less => exact ⟨[.equal, .unequal, .atLeast, .atMost, .greater], _, rfl, by decide⟩

section Search

variable {left right : List Char} (hbalanced : Balanced left) (hleft : Unmarked left)
  (hright : Unmarked right)

include hbalanced hleft

/-- The text is cut at the operator that stands between the operands. -/
theorem cutOutside_symbol (operator : Comparison) (right : List Char) :
    cutOutside operator.symbol.toList none (left ++ (operator.symbol.toList ++ right)) =
      some (left, right) := by
  obtain ⟨c, hc, rest, hsymbol⟩ := operator.symbol_eq_cons
  have hafter := after?_append_self (c :: rest) right
  have hout : ((none : Option Char).isNone && !isQuote c) = true := by
    rw [plain_marks c hc]
    rfl
  rw [hsymbol, cutOutside_append_of_not_exposed (hleft c hc), hbalanced]
  rw [List.cons_append] at hafter ⊢
  rw [cutOutside, if_pos hout, hafter]
  simp

include hright

/-- An operator with a mark of its own does not start in the text. -/
theorem cutOutside_eq_none_of_mark {operator other : Comparison}
    (h : ¬ other.symbol.toList ⊆ operator.symbol.toList) :
    cutOutside other.symbol.toList none (left ++ (operator.symbol.toList ++ right)) = none := by
  obtain ⟨c, hother, hown⟩ : ∃ c ∈ other.symbol.toList, c ∉ operator.symbol.toList := by
    simpa [List.subset_def] using h
  have hc := other.symbol_subset hother
  refine cutOutside_eq_none_of_not_exposed other.plain_symbol hother ?_
  rw [exposed_append, hbalanced, exposed_append, operator.plain_symbol.exposed_eq,
    operator.plain_symbol.balanced]
  simp only [List.mem_append, not_or]
  exact ⟨hleft c hc, hown, hright c hc⟩

/-- A mark and a single `=` after it are not taken for `==`. -/
theorem cutOutside_equal_eq_none {c : Char} (hc : c ∈ marks) (hne : c ≠ '=') :
    cutOutside ['=', '='] none (left ++ ([c, '='] ++ right)) = none := by
  have hmark : '=' ∈ marks := by decide
  have hplain : Plain [c] := List.forall_mem_singleton.2 (plain_marks c hc)
  have hquote : quoteEnd none (left ++ [c]) = none := hbalanced.append hplain.balanced
  have hfront : '=' ∉ exposed none (left ++ [c]) := by
    rw [exposed_append, hbalanced, hplain.exposed_eq, List.mem_append, not_or]
    exact ⟨hleft _ hmark, fun hmem => hne (List.mem_singleton.1 hmem).symm⟩
  have hsecond : after? ['=', '='] ('=' :: right) = none := by
    cases hcases : right with
    | nil => rfl
    | cons d rest =>
      have hd : d ≠ '=' := by
        rintro rfl
        exact hright _ hmark (hcases ▸ List.mem_cons_self)
      simp [after?, hd.symm]
  have hback : cutOutside ['=', '='] none right = none :=
    cutOutside_eq_none_of_not_exposed (c := '=') (by decide) (by decide) (hright _ hmark)
  have hsplit : left ++ ([c, '='] ++ right) = (left ++ [c]) ++ '=' :: right := by simp
  rw [hsplit, cutOutside_append_of_not_exposed hfront, hquote, cutOutside, if_pos (by decide), hsecond]
  simp [quoteAfter, isQuote, hback]

/-- Between operands without marks an operator is found as it is written. -/
theorem find?_append (operator : Comparison) :
    find? (left ++ (operator.symbol.toList ++ right)) = some (operator, left, right) := by
  obtain ⟨earlier, later, hall, hearlier⟩ := operator.all_eq_append
  refine List.findSome?_eq_some_iff.2 ⟨earlier, operator, later, hall, ?_, fun other hother => ?_⟩
  · rw [cutOutside_symbol hbalanced hleft, Option.map_some]
  · rw [Option.map_eq_none_iff]
    rcases hearlier other hother with hmark | ⟨rfl, hsymbol⟩
    · exact cutOutside_eq_none_of_mark hbalanced hleft hright hmark
    · simp only [List.mem_cons, List.not_mem_nil, or_false] at hsymbol
      rcases hsymbol with hsymbol | hsymbol | hsymbol <;> rw [hsymbol]
      all_goals exact cutOutside_equal_eq_none hbalanced hleft hright (by decide) (by decide)

end Search

/-! ## Comparing -/

/-- Equality is always decided, and inequality is decided the other way. -/
theorem apply_equal (left right : List Char) :
    ∃ value, equal.apply left right = .ok value ∧ unequal.apply left right = .ok !value := by
  unfold apply
  split
  next l r _ _ => exact ⟨_, rfl, rfl⟩
  next => exact ⟨_, rfl, rfl⟩

/-- An order is asked for of numbers only. -/
theorem apply_eq_error_iff {operator : Comparison} (hequal : operator ≠ .equal)
    (hunequal : operator ≠ .unequal) {left right : List Char} {fault : EvaluationFault} :
    operator.apply left right = .error fault ↔
      fault = .nonNumeric operator.symbol (.ofList left) (.ofList right) ∧
        (Decimal.parse? (trim left) = none ∨ Decimal.parse? (trim right) = none) := by
  unfold apply
  split
  next hl hr => simp [hl, hr]
  next hnone =>
    have hor : Decimal.parse? (trim left) = none ∨ Decimal.parse? (trim right) = none := by
      cases hl : Decimal.parse? (trim left) with
      | none => exact .inl rfl
      | some l => exact .inr (Option.eq_none_iff_forall_ne_some.2 fun r hr => hnone l r hl hr)
    have hfault : (Except.error (.nonNumeric operator.symbol (.ofList left) (.ofList right)) :
        Except EvaluationFault Bool) = .error fault ↔
          fault = .nonNumeric operator.symbol (.ofList left) (.ofList right) := by
      rw [Except.error.injEq, eq_comm]
    rw [and_iff_left hor, ← hfault]
    cases operator with
    | equal => exact absurd rfl hequal
    | unequal => exact absurd rfl hunequal
    | atLeast | atMost | greater | less => rfl

end Comparison

/-! ## Comparisons in conditions -/

namespace Condition

/-- The text of a left operand: its quotes are closed, outside them stand no marks and no logical operator,
where the end of the text counts as a space, and it starts neither a negation nor a test for a file. -/
structure IsLeftOperand (text : List Char) : Prop where
  balanced : Balanced text
  unmarked : Comparison.Unmarked text
  lacksAnd : cutOutside andWord none (text ++ [' ']) = none
  lacksOr : cutOutside orWord none (text ++ [' ']) = none
  ne_not : trim text ≠ ['n', 'o', 't']
  not_negation : ¬ notWord <+: trim text
  not_exists : ¬ existsWord <+: trim text

/-- The text of a right operand: outside quotes stand no marks and no logical operator, where the start of
the text counts as a space. -/
structure IsRightOperand (text : List Char) : Prop where
  unmarked : Comparison.Unmarked text
  lacksAnd : cutOutside andWord none (' ' :: text) = none
  lacksOr : cutOutside orWord none (' ' :: text) = none

/-- A text cannot start with what reaches over a character that it lacks. -/
theorem isPrefix_of_append_cons {start front back : List Char} {c : Char} (hc : c ∉ start)
    (h : start <+: front ++ c :: back) : start <+: front := by
  have hlong : front ++ [c] <+: front ++ c :: back := ⟨back, by simp⟩
  rcases List.prefix_or_prefix_of_prefix h hlong with h | h
  · rcases List.prefix_concat_iff.1 h with rfl | h
    · simp at hc
    · exact h
  · exact absurd (h.subset (by simp)) hc

section Operands

variable {left right : List Char}

/-- A left operand does not start like a test for a file in front of a space either. -/
theorem IsLeftOperand.not_exists_trimStart (h : IsLeftOperand left) :
    ¬ existsWord <+: trimStart (left ++ [' ']) := by
  rintro ⟨rest, hrest⟩
  refine h.not_exists ⟨trimEnd rest, ?_⟩
  have htrim := trim_append_append (show trim existsWord = existsWord by decide) (by decide) [] rest
  rw [List.nil_append, hrest, trim_trimStart, trim_concat_of_isBlank (by decide)] at htrim
  exact htrim.symm

/-- A left operand does not start like a negation in front of a space either. -/
theorem IsLeftOperand.not_negation_trimStart (h : IsLeftOperand left) :
    ¬ notWord <+: trimStart (left ++ [' ']) := by
  rintro ⟨rest, hrest⟩
  have htrim := trim_append_append (show trim ['n', 'o', 't'] = ['n', 'o', 't'] by decide) (by decide)
    [] (' ' :: rest)
  have hnot : [] ++ ['n', 'o', 't'] ++ ' ' :: rest = notWord ++ rest := rfl
  rw [hnot, hrest, trim_trimStart, trim_concat_of_isBlank (by decide), trimEnd_cons] at htrim
  split at htrim
  next => exact h.ne_not htrim
  next => exact h.not_negation ⟨trimEnd rest, htrim.symm⟩

/-- A word that is found neither with the space behind the left operand nor with the one before the right
operand is not found in the comparison. -/
theorem cutOutside_comparison_eq_none (word : List Char) (hword : ' ' ∉ word)
    (hoperator : ∀ operator : Comparison, Lacks word operator.symbol.toList)
    (hbalanced : Balanced left) (hleft : cutOutside (spaced word) none (left ++ [' ']) = none)
    (hright : cutOutside (spaced word) none (' ' :: right) = none) (operator : Comparison) :
    cutOutside (spaced word) none (left ++ [' '] ++ operator.symbol.toList ++ ' ' :: right) = none := by
  have hquote : quoteEnd none (' ' :: operator.symbol.toList) = none := operator.plain_symbol.balanced
  have hmiddle : cutOutside (spaced word) none ((' ' :: operator.symbol.toList) ++ [' ']) = none :=
    hoperator operator
  have hback := cutOutside_append_space hword hmiddle right
  rw [hquote, hright, Option.map_none, List.cons_append] at hback
  have hwhole := cutOutside_append_space hword hleft (operator.symbol.toList ++ ' ' :: right)
  rw [hbalanced, hback, Option.map_none] at hwhole
  simpa using hwhole

/-- A comparison is read as it is written, and only the blanks around its operands are lost. -/
theorem read_comparison (hleft : IsLeftOperand left) (hright : IsRightOperand right)
    (operator : Comparison) :
    read (left ++ [' '] ++ operator.symbol.toList ++ ' ' :: right) =
      .compare operator (trimStart (left ++ [' '])) (trimEnd (' ' :: right)) := by
  have hne : operator.symbol.toList ≠ [] := by cases operator <;> decide
  have htrim : trim (left ++ [' '] ++ operator.symbol.toList ++ ' ' :: right) =
      trimStart (left ++ [' ']) ++ (operator.symbol.toList ++ trimEnd (' ' :: right)) := by
    rw [trim_append_append (by cases operator <;> decide) hne, List.append_assoc]
  have hand := cutOutside_comparison_eq_none ['a', 'n', 'd'] (by decide)
    (fun operator => by cases operator <;> decide) hleft.balanced hleft.lacksAnd hright.lacksAnd operator
  have hor := cutOutside_comparison_eq_none ['o', 'r'] (by decide)
    (fun operator => by cases operator <;> decide) hleft.balanced hleft.lacksOr hright.lacksOr operator
  have hspace : Comparison.Unmarked [' '] := by decide
  have hbalanced : Balanced (trimStart (left ++ [' '])) :=
    (hleft.balanced.append (by decide)).trimStart
  have hunmarked : Comparison.Unmarked (trimStart (left ++ [' '])) :=
    (hleft.unmarked.append hspace hleft.balanced).trimStart
  have hunmarked' : Comparison.Unmarked (trimEnd (' ' :: right)) :=
    (hspace.append hright.unmarked (by decide)).trimEnd
  obtain ⟨c, hc, rest, hsymbol⟩ := operator.symbol_eq_cons
  obtain ⟨hexists, hnot⟩ : c ∉ existsWord ∧ c ∉ notWord := by
    simp only [Comparison.marks, List.mem_cons, List.not_mem_nil, or_false] at hc
    rcases hc with rfl | rfl | rfl | rfl <;> decide
  -- A start without the operator's first mark lies in the left operand.
  have hstart : ∀ start, c ∉ start →
      start <+: trimStart (left ++ [' ']) ++ (operator.symbol.toList ++ trimEnd (' ' :: right)) →
      start <+: trimStart (left ++ [' ']) := fun start hfree h => by
    rw [hsymbol] at h
    exact isPrefix_of_append_cons hfree h
  rw [read_eq_readAtom htrim (literal?_eq_none_of_mem (List.mem_cons_of_mem ' ' hc) (by simp [hsymbol]))
    (fun h => hleft.not_exists_trimStart (hstart _ hexists h)) (htrim ▸ cutOutside_trim_eq_none hand)
    (htrim ▸ cutOutside_trim_eq_none hor) (fun h => hleft.not_negation_trimStart (hstart _ hnot h)),
    readAtom, Comparison.find?_append hbalanced hunmarked hunmarked']

end Operands

/-! ## Evaluation -/

/-- An operand is trimmed before it is looked at. -/
theorem operand_congr {vars : Variables} {raw raw' : List Char} (h : trim raw = trim raw') :
    operand vars raw = operand vars raw' := by
  rw [operand, operand, h]

/-- Whatever the values of the variables are, a comparison compares exactly the operands between which its
operator is written. So `==` and `!=` are always decided, with opposite answers, and an order fails
exactly if one of the operands is not a number. -/
theorem holds_comparison (pathExists : String → Bool) (vars : Variables) {left right : String}
    (hleft : IsLeftOperand left.toList) (hright : IsRightOperand right.toList) :
    (∀ operator : Comparison,
      holds pathExists vars (left ++ " " ++ operator.symbol ++ " " ++ right) =
        operator.apply (operand vars left.toList) (operand vars right.toList)) ∧
      (∃ value, holds pathExists vars (left ++ " == " ++ right) = .ok value ∧
        holds pathExists vars (left ++ " != " ++ right) = .ok !value) ∧
      ∀ operator : Comparison, operator ≠ .equal → operator ≠ .unequal → ∀ fault,
        holds pathExists vars (left ++ " " ++ operator.symbol ++ " " ++ right) = .error fault ↔
          fault = .nonNumeric operator.symbol (.ofList (operand vars left.toList))
              (.ofList (operand vars right.toList)) ∧
            (Decimal.parse? (trim (operand vars left.toList)) = none ∨
              Decimal.parse? (trim (operand vars right.toList)) = none) := by
  have hholds : ∀ operator : Comparison,
      holds pathExists vars (left ++ " " ++ operator.symbol ++ " " ++ right) =
        operator.apply (operand vars left.toList) (operand vars right.toList) := fun operator => by
    have htext : (left ++ " " ++ operator.symbol ++ " " ++ right).toList =
        left.toList ++ [' '] ++ operator.symbol.toList ++ ' ' :: right.toList := by
      simp
    have hleftTrim : trim (trimStart (left.toList ++ [' '])) = trim left.toList := by
      rw [trim_trimStart, trim_concat_of_isBlank (by decide)]
    have hrightTrim : trim (trimEnd (' ' :: right.toList)) = trim right.toList := by
      rw [trim_trimEnd, trim_cons_of_isBlank (by decide)]
    rw [holds, htext, read_comparison hleft hright, evaluate, operand_congr hleftTrim,
      operand_congr hrightTrim]
  have hequal : left ++ " == " ++ right = left ++ " " ++ Comparison.equal.symbol ++ " " ++ right := by
    simp [Comparison.symbol, String.append_assoc]
  have hunequal : left ++ " != " ++ right =
      left ++ " " ++ Comparison.unequal.symbol ++ " " ++ right := by
    simp [Comparison.symbol, String.append_assoc]
  refine ⟨hholds, ?_, fun operator hequal hunequal fault => ?_⟩
  · rw [hequal, hunequal, hholds, hholds]
    exact Comparison.apply_equal _ _
  · rw [hholds]
    exact Comparison.apply_eq_error_iff hequal hunequal

/-- A value in which operators, a reference and ` and ` stand is compared as it is. -/
theorem holds_comparison_sample :
    let vars := { Variables.ofEnvironment (.ofProcess .isolated .empty) with
      script := Bindings.empty.insert "A" "1 >= $A and c" }
    holds (fun _ => false) vars "A != 'x or y'" = .ok true ∧
      holds (fun _ => false) vars "A < 'x or y'" =
        .error (.nonNumeric "<" "1 >= $A and c" "x or y") := by
  intro vars
  have hleft : IsLeftOperand "A".toList :=
    ⟨by decide, by decide, by decide, by decide, by decide, by decide, by decide⟩
  have hright : IsRightOperand "'x or y'".toList := ⟨by decide, by decide, by decide⟩
  have hvalue : operand vars "A".toList = "1 >= $A and c".toList := by decide +kernel
  have hquoted : operand vars "'x or y'".toList = "x or y".toList := by decide +kernel
  obtain ⟨hholds, -, hfails⟩ := holds_comparison (fun _ => false) vars hleft hright
  rw [hvalue, hquoted] at hholds hfails
  constructor
  · rw [show "A != 'x or y'" = "A" ++ " " ++ Comparison.unequal.symbol ++ " " ++ "'x or y'" from rfl,
      hholds]
    decide +kernel
  · exact (hfails .less (by decide) (by decide) _).2 ⟨rfl, .inl (by decide +kernel)⟩

end Condition

end BatchScript
