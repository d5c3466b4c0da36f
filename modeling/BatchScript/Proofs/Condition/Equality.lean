import BatchScript.Proofs.Condition.Comparisons
import BatchScript.Proofs.Number.Decimal
import BatchScript.Proofs.Variables.Substitution

/-!
# Comparing a text with itself

Two texts that are numbers are compared as numbers, and so are two equal texts. They are equal as numbers
too, but for the one value that is not equal to itself (`Comparison.apply_self`). An identifier is an
operand whatever its letters are, if it is not the word of a negation, so this is what the comparison of
a variable with itself comes to (`Condition.holds_self`).
-/

namespace BatchScript

open Text

/-! ## Equal operands -/

namespace Comparison

/-- Equal texts are equal unless they name what is not a number; then they are unequal. -/
theorem apply_self (text : List Char) :
    equal.apply text text = .ok (!Decimal.isNan (trim text)) ∧
      unequal.apply text text = .ok (Decimal.isNan (trim text)) := by
  have hnan := @Decimal.parse?_eq_nan_iff (trim text)
  unfold apply
  cases hparse : Decimal.parse? (trim text) with
  | none =>
    have hname : Decimal.isNan (trim text) = false := by simpa [hparse] using hnan
    simp [hname]
  | some value =>
    simp only [holds, Binary64.compare?_self]
    by_cases hvalue : value = .nan
    · have hname : Decimal.isNan (trim text) = true := hnan.1 (hvalue ▸ hparse)
      simp [hvalue, hname]
    · have hname : Decimal.isNan (trim text) = false := by simpa [hparse, hvalue] using hnan
      simp [hvalue, hname]

end Comparison

/-! ## Identifiers as operands -/

namespace Text

/-- The characters of identifiers lie between the code points of `0` and the end of ASCII. -/
theorem toNat_of_isNameChar {c : Char} (h : isNameChar c = true) : 0x30 ≤ c.toNat ∧ c.toNat < 0x80 := by
  simp only [isNameChar, isNameStart, Char.le_def, UInt32.le_iff_toNat_le, Char.ext_iff,
    ← UInt32.toNat_inj, Char.reduceVal, UInt32.reduceToNat, Char.toNat_val, Bool.or_eq_true,
    Bool.and_eq_true, decide_eq_true_eq, beq_iff_eq] at h
  omega

variable {text : List Char} (h : isIdentifier text = true)

include h

theorem not_mem_of_isIdentifier {c : Char} (hc : isNameChar c = false) : c ∉ text :=
  fun hmem => Bool.false_ne_true (hc.symm.trans (all_isNameChar_of_isIdentifier h c hmem))

theorem not_isBlank_of_isIdentifier : ∀ c ∈ text, isBlank c = false := by
  intro c hc
  have hcode := toNat_of_isNameChar (all_isNameChar_of_isIdentifier h c hc)
  simp [isBlank]
  omega

theorem trim_of_isIdentifier : trim text = text :=
  trim_eq_self_of_not_blank
    (fun c hc => not_isBlank_of_isIdentifier h c (List.mem_of_mem_head? hc))
    fun c hc => not_isBlank_of_isIdentifier h c (List.mem_of_getLast? hc)

theorem plain_of_isIdentifier : Plain text := by
  intro c hc
  have hcode := toNat_of_isNameChar (all_isNameChar_of_isIdentifier h c hc)
  rw [isQuote, Bool.or_eq_false_iff, decide_eq_false_iff_not, decide_eq_false_iff_not]
  constructor <;> rintro rfl <;> exact absurd hcode (by decide)

end Text

namespace Condition

section Identifier

variable {text : List Char} (h : isIdentifier text = true)

include h

theorem unmarked_of_isIdentifier : Comparison.Unmarked text := by
  intro c hc hmem
  have hname : isNameChar c = false := by
    simp only [Comparison.marks, List.mem_cons, List.not_mem_nil, or_false] at hc
    rcases hc with rfl | rfl | rfl | rfl <;> decide
  exact not_mem_of_isIdentifier h hname (mem_of_mem_exposed hmem)

/-- With a space behind it or before it, an identifier has one space. -/
theorem count_space_of_isIdentifier :
    (text ++ [' ']).count ' ' < 2 ∧ (' ' :: text).count ' ' < 2 := by
  have hspace : text.count ' ' = 0 := List.count_eq_zero.2 (not_mem_of_isIdentifier h (by decide))
  simp [hspace]

/-- An identifier that is not the word of a negation is read as a left operand. -/
theorem isLeftOperand_of_isIdentifier (hnot : text ≠ ['n', 'o', 't']) : IsLeftOperand text where
  balanced := (plain_of_isIdentifier h).balanced
  unmarked := unmarked_of_isIdentifier h
  lacksAnd := cutOutside_spaced_eq_none ['a', 'n', 'd'] (count_space_of_isIdentifier h).1
  lacksOr := cutOutside_spaced_eq_none ['o', 'r'] (count_space_of_isIdentifier h).1
  ne_not := by rwa [trim_of_isIdentifier h]
  not_negation := by
    rw [trim_of_isIdentifier h]
    exact fun hstart => not_mem_of_isIdentifier h (by decide : isNameChar ' ' = false)
      (hstart.subset (by decide))
  not_exists := by
    rw [trim_of_isIdentifier h]
    exact fun hstart => not_mem_of_isIdentifier h (by decide : isNameChar '(' = false)
      (hstart.subset (by decide))

theorem isRightOperand_of_isIdentifier : IsRightOperand text where
  unmarked := unmarked_of_isIdentifier h
  lacksAnd := cutOutside_spaced_eq_none ['a', 'n', 'd'] (count_space_of_isIdentifier h).2
  lacksOr := cutOutside_spaced_eq_none ['o', 'r'] (count_space_of_isIdentifier h).2

theorem operand_of_isIdentifier (vars : Variables) :
    operand vars text = (vars.get (.ofList text) "").toList := by
  rw [operand, trim_of_isIdentifier h, if_pos h]

end Identifier

/-! ## Evaluation -/

/-- A comparison of an identifier with itself, by either operator of equality, compares the value of the
variable with itself. -/
theorem holds_between_self (pathExists : String → Bool) (vars : Variables) {name : String}
    (hname : Variables.validName name = true) (hnot : name ≠ "not") (operator : Comparison) :
    holds pathExists vars (name ++ " " ++ operator.symbol ++ " " ++ name) =
      operator.apply (vars.get name "").toList (vars.get name "").toList := by
  have htext : (name ++ " " ++ operator.symbol ++ " " ++ name).toList =
      name.toList ++ [' '] ++ operator.symbol.toList ++ ' ' :: name.toList := by simp
  have hne : name.toList ≠ ['n', 'o', 't'] := fun h => hnot (String.toList_inj.1 h)
  have hleft : trim (trimStart (name.toList ++ [' '])) = trim name.toList := by
    rw [trim_trimStart, trim_concat_of_isBlank (by decide)]
  have hright : trim (trimEnd (' ' :: name.toList)) = trim name.toList := by
    rw [trim_trimEnd, trim_cons_of_isBlank (by decide)]
  rw [holds, htext, read_comparison (isLeftOperand_of_isIdentifier hname hne)
    (isRightOperand_of_isIdentifier hname), evaluate, operand_congr hleft, operand_congr hright,
    operand_of_isIdentifier hname, String.ofList_toList]

/-- Whatever the value of a variable is, it equals itself and does not differ from itself, unless the value
names what is not a number: then it differs from itself. The word of a negation is no operand. The same
holds of any two equal texts that are compared. -/
theorem holds_self (pathExists : String → Bool) (vars : Variables) :
    (∀ name : String, Variables.validName name = true → name ≠ "not" →
      holds pathExists vars (name ++ " == " ++ name) =
          .ok (!Decimal.isNan (trim (vars.get name "").toList)) ∧
        holds pathExists vars (name ++ " != " ++ name) =
          .ok (Decimal.isNan (trim (vars.get name "").toList))) ∧
      ∀ text : List Char,
        Comparison.equal.apply text text = .ok (!Decimal.isNan (trim text)) ∧
          Comparison.unequal.apply text text = .ok (Decimal.isNan (trim text)) := by
  refine ⟨fun name hname hnot => ?_, Comparison.apply_self⟩
  have hequal : name ++ " == " ++ name = name ++ " " ++ Comparison.equal.symbol ++ " " ++ name := by
    simp [Comparison.symbol, String.append_assoc]
  have hunequal : name ++ " != " ++ name =
      name ++ " " ++ Comparison.unequal.symbol ++ " " ++ name := by
    simp [Comparison.symbol, String.append_assoc]
  rw [hequal, hunequal, holds_between_self pathExists vars hname hnot,
    holds_between_self pathExists vars hname hnot]
  exact Comparison.apply_self _

/-! ### Samples -/

/-- A variable with a given value. -/
def Sample.valued (name value : String) : Variables where
  script := Bindings.empty.insert name value
  environment := .ofProcess .isolated .empty

/-- A variable whose name begins a test for a file, with a number that is too great. -/
theorem holds_self_sample :
    Variables.validName "exists" = true ∧ "exists" ≠ "not" ∧
      holds (fun _ => false) (Sample.valued "exists" " 1e400 ") "exists == exists" = .ok true := by
  have hname : Variables.validName "exists" = true := by decide
  have hnot : "exists" ≠ "not" := by decide
  have hvalue : Decimal.isNan (trim ((Sample.valued "exists" " 1e400 ").get "exists" "").toList) =
      false := by decide +kernel
  have hself := ((holds_self (fun _ => false) (Sample.valued "exists" " 1e400 ")).1 "exists" hname hnot).1
  rw [hvalue] at hself
  exact ⟨hname, hnot, hself⟩

/-- A variable is not always equal to itself. -/
theorem holds_self_nan :
    Variables.validName "X" = true ∧ "X" ≠ "not" ∧
      holds (fun _ => false) (Sample.valued "X" "nan") "X == X" = .ok false ∧
      holds (fun _ => false) (Sample.valued "X" "nan") "X != X" = .ok true := by
  have hname : Variables.validName "X" = true := by decide
  have hnot : "X" ≠ "not" := by decide
  have hbetween := holds_between_self (fun _ => false) (Sample.valued "X" "nan") hname hnot
  refine ⟨hname, hnot, (hbetween .equal).trans ?_, (hbetween .unequal).trans ?_⟩
  · decide +kernel
  · decide +kernel

end Condition

end BatchScript
