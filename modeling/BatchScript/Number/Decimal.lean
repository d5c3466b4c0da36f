import BatchScript.Number.Binary64

/-!
# Decimal notation of numbers

Which texts are numbers, and which number each one is. A number is an optional sign, then `inf`,
`infinity` or `nan` in any letter case, or decimal digits with at most one point among them and at
least one digit, and then possibly `e` or `E`, an optional sign and at least one digit.
-/

namespace BatchScript.Decimal

/-- Whether a character is a decimal digit. -/
def isDigit (c : Char) : Bool :=
  '0' ≤ c && c ≤ '9'

/-- The value of a decimal digit. -/
def digitValue (c : Char) : Nat :=
  c.toNat - '0'.toNat

/-- The number that a run of decimal digits denotes. -/
def ofDigits (digits : List Char) : Nat :=
  digits.foldl (fun n c => 10 * n + digitValue c) 0

/-- Cuts a text after its leading sign, if it has one: whether it was a minus, and the rest. -/
def takeSign : List Char → Bool × List Char
  | '-' :: rest => (true, rest)
  | '+' :: rest => (false, rest)
  | text => (false, text)

/-- The exponent that a text after the digits denotes; no text denotes zero. -/
def exponent? : List Char → Option Int
  | [] => some 0
  | c :: rest =>
    if c = 'e' || c = 'E' then
      let (negative, digits) := takeSign rest
      if digits ≠ [] && digits.all isDigit then
        some (if negative then -(ofDigits digits : Int) else ofDigits digits)
      else none
    else none

/-- The number that an unsigned decimal text denotes. -/
def unsigned? (negative : Bool) (text : List Char) : Option Binary64 :=
  let whole := text.takeWhile isDigit
  let (fraction, tail) := match text.dropWhile isDigit with
    | '.' :: rest => (rest.takeWhile isDigit, rest.dropWhile isDigit)
    | rest => ([], rest)
  if whole = [] && fraction = [] then none
  else (exponent? tail).map fun exponent =>
    .ofDecimal negative (ofDigits (whole ++ fraction)) (exponent - fraction.length)

/-- The number that a text denotes. -/
def parse? (text : List Char) : Option Binary64 :=
  let (negative, rest) := takeSign text
  let word := String.ofList (rest.map Char.toLower)
  if word = "inf" || word = "infinity" then some (.infinite negative)
  else if word = "nan" then some .nan
  else unsigned? negative rest

end BatchScript.Decimal
