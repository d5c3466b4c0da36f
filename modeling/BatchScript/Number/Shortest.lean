import BatchScript.Number.Binary64

/-!
# Shortest decimal digits

The decimal text of a number with the fewest digits that still read back as the same number, and
among those the one nearest to it. The reals that round to a number form an interval, whose ends
belong to it exactly when the significand is even. On the grid of decimals with a given number of
digits, if any point lies in the interval then one of the number's two neighbours does.
-/

namespace BatchScript.Shortest

/-- The interval around a number, in quarters of a unit of its last place: the number itself, the
two ends, and whether the ends belong to it. -/
structure Window where
  value : Nat
  low : Nat
  high : Nat
  closed : Bool

/-- The interval of the reals that round to a positive number. Below a power of two the numbers lie
twice as close. -/
def window (x : Finite64) : Window :=
  let m := x.significand
  let gap := if m = Nat.pow 2 52 ∧ Binary64.minExponent < x.exponent then 1 else 2
  ⟨4 * m, 4 * m - gap, 4 * m + 2, m % 2 = 0⟩

/-- Two quantities on common scale: quarters of a unit times `quarters`, and grid points times
`grid`. -/
structure Scale where
  quarters : Nat
  grid : Nat

/-- The scale on which a quarter of a unit at `exponent` meets `10 ^ place`. -/
def scale (exponent place : Int) : Scale :=
  let power := exponent - 2
  let (q, g) := if 0 ≤ power then (Nat.pow 2 power.toNat, 1) else (1, Nat.pow 2 (-power).toNat)
  if 0 ≤ place then ⟨q, g * Nat.pow 10 place.toNat⟩ else ⟨q * Nat.pow 10 (-place).toNat, g⟩

/-- Whether a grid point lies in the interval. -/
def inside (w : Window) (s : Scale) (point : Nat) : Bool :=
  let p := point * s.grid
  let low := w.low * s.quarters
  let high := w.high * s.quarters
  (low < p && p < high) || (w.closed && (low == p || p == high))

/-- The neighbour of the number on a grid that reads back, the nearer of two, and of two equally
near ones the even one. -/
def neighbour? (w : Window) (s : Scale) : Option Nat :=
  let value := w.value * s.quarters
  let below := value / s.grid
  let rest := value % s.grid
  match inside w s below, inside w s (below + 1) with
  | false, false => none
  | true, false => some below
  | false, true => some (below + 1)
  | true, true =>
    some (if 2 * rest < s.grid then below
      else if s.grid < 2 * rest then below + 1
      else below + below % 2)

/-- The greatest `place` with `10 ^ place` at most the positive number. -/
def decimalExponent (x : Finite64) : Int :=
  let binary := Binary64.binaryExponent x.significand 1 + x.exponent
  let guess := binary * 30103 / 100000
  let atMost (place : Int) : Bool :=
    let s := scale x.exponent place
    s.grid ≤ 4 * x.significand * s.quarters
  if atMost (guess + 1) then guess + 1 else if atMost guess then guess else guess - 1

/-- Digits without a last zero: just below a power of ten the upper neighbour is that power, which
has a digit more than the grid. -/
def withoutLastZero (point : Nat) (place : Int) : Nat × Int :=
  if point % 10 = 0 then (point / 10, place + 1) else (point, place)

/-- The digits of a positive number and the place of the last one; the first grid with a neighbour
that reads back wins. Seventeen digits always read back. -/
def digits (x : Finite64) : Nat × Int :=
  let top := decimalExponent x
  let w := window x
  let found := (List.range 17).findSome? fun (n : Nat) =>
    let place := top - n
    (neighbour? w (scale x.exponent place)).map fun point => withoutLastZero point place
  found.getD (0, 0)

end BatchScript.Shortest
