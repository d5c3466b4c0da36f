/-!
# Binary floating point

The numbers of the binary floating-point format with 53 significant bits, as exact data: a sign, a
significand and a power of two. Rounding goes to the nearest number, a tie to the even significand.
All arithmetic here is arithmetic of natural numbers.
-/

namespace BatchScript

/-- A finite number: `significand * 2 ^ exponent`, negated if `negative`. -/
structure Finite64 where
  negative : Bool
  significand : Nat
  exponent : Int
deriving DecidableEq, Repr

/-- A number of the format. -/
inductive Binary64 where
  | nan
  | infinite (negative : Bool)
  | finite (value : Finite64)
deriving DecidableEq, Repr

namespace Binary64

/-- The least exponent of a number. -/
def minExponent : Int := -1074

/-- The greatest exponent of a number. -/
def maxExponent : Int := 971

/-! ## Rounding -/

/-- The integer nearest to a quotient, the even one of two. -/
def roundQuotient (numerator denominator : Nat) : Nat :=
  let quotient := numerator / denominator
  let twice := 2 * (numerator % denominator)
  if twice < denominator then quotient
  else if denominator < twice then quotient + 1
  else quotient + quotient % 2

/-- A natural number times a power of two, rounded down. -/
def shift (n : Nat) (power : Int) : Nat :=
  if 0 ≤ power then n <<< power.toNat else n >>> (-power).toNat

/-- The quotient of two positive numbers as a fraction of `2 ^ power`. -/
def scaledFraction (numerator denominator : Nat) (power : Int) : Nat × Nat :=
  if 0 ≤ power then (numerator, denominator <<< power.toNat)
  else (numerator <<< (-power).toNat, denominator)

/-- The greatest `power` with `2 ^ power ≤ numerator / denominator`. -/
def binaryExponent (numerator denominator : Nat) : Int :=
  let guess : Int := (numerator.log2 : Int) - denominator.log2
  let (n, d) := scaledFraction numerator denominator guess
  if d ≤ n then guess else guess - 1

/-- The number nearest to a quotient of natural numbers, where `denominator` is positive. -/
def ofQuotient (negative : Bool) (numerator denominator : Nat) : Binary64 :=
  if numerator = 0 then .finite ⟨negative, 0, minExponent⟩
  else
    let exponent := max minExponent (binaryExponent numerator denominator - 52)
    let (n, d) := scaledFraction numerator denominator exponent
    let significand := roundQuotient n d
    let (significand, exponent) :=
      if significand = Nat.pow 2 53 then (Nat.pow 2 52, exponent + 1) else (significand, exponent)
    if maxExponent < exponent then .infinite negative
    else .finite ⟨negative, significand, exponent⟩

/-- The number of decimal digits of a natural number. -/
def digitCount (n : Nat) : Nat :=
  (Nat.toDigits 10 n).length

/-- The number nearest to `digits * 10 ^ exponent`. Beyond the 310th and below the 330th place the
digits no longer matter. -/
def ofDecimal (negative : Bool) (digits : Nat) (exponent : Int) : Binary64 :=
  let places : Int := digitCount digits + exponent
  if digits = 0 ∨ places < -330 then .finite ⟨negative, 0, minExponent⟩
  else if 310 < places then .infinite negative
  else if 0 ≤ exponent then ofQuotient negative (digits * Nat.pow 10 exponent.toNat) 1
  else ofQuotient negative digits (Nat.pow 10 (-exponent).toNat)

/-! ## Arithmetic -/

/-- The rounded product of two finite numbers. -/
def mul (x y : Finite64) : Binary64 :=
  let (n, d) := scaledFraction (x.significand * y.significand) 1 (-(x.exponent + y.exponent))
  ofQuotient (x.negative != y.negative) n d

/-- The rounded quotient of two finite numbers, where the second is not zero. -/
def div (x y : Finite64) : Binary64 :=
  let (n, d) := scaledFraction x.significand y.significand (y.exponent - x.exponent)
  ofQuotient (x.negative != y.negative) n d

/-! ## Order -/

/-- A finite number as a multiple of the least positive one. -/
def units (x : Finite64) : Int :=
  let magnitude : Int := shift x.significand (x.exponent - minExponent)
  if x.negative then -magnitude else magnitude

/-- How two numbers compare; what is not a number compares with nothing, itself included. -/
def compare? : Binary64 → Binary64 → Option Ordering
  | .nan, _ => none
  | _, .nan => none
  | .infinite a, .infinite b =>
    some (if a = b then .eq else if a then .lt else .gt)
  | .infinite a, .finite _ => some (if a then .lt else .gt)
  | .finite _, .infinite b => some (if b then .gt else .lt)
  | .finite x, .finite y => some (compare (units x) (units y))

end Binary64

end BatchScript
