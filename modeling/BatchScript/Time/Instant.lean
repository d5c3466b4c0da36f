/-!
# Instants

Points in time, as seconds since the start of 1970 in universal time, and how they are written: the
date of the Gregorian calendar and the time of day. A fraction has as few groups of three digits as
hold it, and a year that needs more than four digits, or is negative, has a sign.
-/

namespace BatchScript

/-- A point in time. Nanoseconds from a full second on stand for a leap second. -/
structure Instant where
  seconds : Int
  nanoseconds : Nat
deriving DecidableEq, Repr

namespace Instant

/-- The start of 1970. -/
def epoch : Instant :=
  ⟨0, 0⟩

/-! ## Calendar -/

/-- A day of the calendar. -/
structure Date where
  year : Int
  month : Nat
  day : Nat
deriving DecidableEq, Repr

/-- The months of a year that starts in March, with their lengths. The day that is added in a leap
year is the last one of such a year. -/
def monthsFromMarch : List (Nat × Nat) :=
  [(3, 31), (4, 30), (5, 31), (6, 30), (7, 31), (8, 31), (9, 30), (10, 31), (11, 30), (12, 31),
    (1, 31), (2, 29)]

/-- The month and the day of the month, for a number of days after the first of March. -/
def monthAndDay (days : Nat) : List (Nat × Nat) → Nat × Nat
  | [] => (0, 0)
  | (month, length) :: rest =>
    if days < length then (month, days + 1) else monthAndDay (days - length) rest

/-- The number of full years in a number of days of a cycle of 400 years. The second, fourth and
third terms take out the days that leap years add. -/
def yearOfCycle (days : Nat) : Nat :=
  (days - days / 1460 + days / 36524 - days / 146096) / 365

/-- The date a number of days after the start of 1970. Years are counted from March, in cycles of
400 years, which have 146097 days. -/
def dateOfDays (days : Int) : Date :=
  let sinceMarch := days + 719468
  let cycle := sinceMarch.fdiv 146097
  let dayOfCycle := (sinceMarch.fmod 146097).toNat
  let year := yearOfCycle dayOfCycle
  let dayOfYear := dayOfCycle - (365 * year + year / 4 - year / 100)
  let (month, day) := monthAndDay dayOfYear monthsFromMarch
  ⟨400 * cycle + year + (if month ≤ 2 then 1 else 0), month, day⟩

/-! ## Text -/

/-- A number with zeros before it, up to a width. -/
def padded (width n : Nat) : String :=
  let digits := toString n
  .ofList (List.replicate (width - digits.length) '0') ++ digits

/-- A year, with a sign if it does not have four digits. -/
def yearText (year : Int) : String :=
  if 0 ≤ year ∧ year ≤ 9999 then padded 4 year.toNat
  else (if year < 0 then "-" else "+") ++ padded 4 year.natAbs

/-- A fraction of a second. -/
def fractionText (nanoseconds : Nat) : String :=
  if nanoseconds = 0 then ""
  else if nanoseconds % 1000000 = 0 then "." ++ padded 3 (nanoseconds / 1000000)
  else if nanoseconds % 1000 = 0 then "." ++ padded 6 (nanoseconds / 1000)
  else "." ++ padded 9 nanoseconds

/-- Date and time of day, without an offset. -/
def dateTimeText (instant : Instant) : String :=
  let date := dateOfDays (instant.seconds.fdiv 86400)
  let second := (instant.seconds.fmod 86400).toNat
  let leap := instant.nanoseconds / 1000000000
  yearText date.year ++ "-" ++ padded 2 date.month ++ "-" ++ padded 2 date.day ++ "T" ++
    padded 2 (second / 3600) ++ ":" ++ padded 2 (second / 60 % 60) ++ ":" ++
    padded 2 (second % 60 + leap) ++ fractionText (instant.nanoseconds % 1000000000)

/-- An instant with a `Z` for universal time. -/
def zuluText (instant : Instant) : String :=
  instant.dateTimeText ++ "Z"

/-- An instant with a numeric offset. -/
def offsetText (instant : Instant) : String :=
  instant.dateTimeText ++ "+00:00"

end Instant

end BatchScript
