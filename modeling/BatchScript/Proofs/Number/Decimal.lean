import BatchScript.Number.Decimal
import Mathlib.Tactic.SplitIfs

/-!
# Texts that are no number and yet are read as one

Numbers compare with themselves as equal, and what is not a number compares with nothing
(`Binary64.compare?_self`). No digits denote what is not a number, however they are rounded, so it is
denoted by its name alone (`Decimal.parse?_eq_nan_iff`).
-/

namespace BatchScript

/-! ## Rounding -/

namespace Binary64

theorem compare?_self (x : Binary64) : compare? x x = if x = .nan then none else some .eq := by
  cases x <;> simp [compare?]

theorem ofQuotient_ne_nan (negative : Bool) (numerator denominator : Nat) :
    ofQuotient negative numerator denominator ≠ .nan := by
  unfold ofQuotient
  dsimp only
  split_ifs <;> simp

theorem ofDecimal_ne_nan (negative : Bool) (digits : Nat) (exponent : Int) :
    ofDecimal negative digits exponent ≠ .nan := by
  unfold ofDecimal
  dsimp only
  split_ifs
  · simp
  · simp
  · exact ofQuotient_ne_nan _ _ _
  · exact ofQuotient_ne_nan _ _ _

end Binary64

/-! ## Names -/

namespace Decimal

/-- Whether a text is `nan` in any letter case, with a sign before it or without. -/
def isNan (text : List Char) : Bool :=
  (takeSign text).2.map Char.toLower == ['n', 'a', 'n']

theorem unsigned?_ne_nan (negative : Bool) (text : List Char) :
    unsigned? negative text ≠ some .nan := by
  intro h
  unfold unsigned? at h
  obtain ⟨-, hsome⟩ := Option.ite_none_left_eq_some.1 h
  obtain ⟨exponent, -, hdecimal⟩ := Option.map_eq_some_iff.1 hsome
  exact Binary64.ofDecimal_ne_nan _ _ _ hdecimal

/-- The texts that are read as what is not a number are those that name it. -/
theorem parse?_eq_nan_iff {text : List Char} : parse? text = some .nan ↔ isNan text = true := by
  have hword : String.ofList ((takeSign text).2.map Char.toLower) = "nan" ↔ isNan text = true := by
    rw [isNan, beq_iff_eq, ← String.toList_inj, String.toList_ofList]
    rfl
  rw [← hword]
  unfold parse?
  dsimp only
  split_ifs with hinfinite hnan
  · have hne : String.ofList ((takeSign text).2.map Char.toLower) ≠ "nan" := by
      intro h
      simp [h] at hinfinite
    simp [hne]
  · simp [hnan]
  · simp [hnan, unsigned?_ne_nan]

end Decimal

end BatchScript
