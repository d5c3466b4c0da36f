import BatchScript.Json.Value
import BatchScript.Number.Decimal

/-!
# Reading JSON

A strict reader of JSON text. Containers may be nested 127 deep. Numbers are read as follows: an
integer of 64 bits is kept as it is, where `-0` is not one; any other number is the product or
quotient of its leading digits, as many as fit 64 bits, and a power of ten, both rounded to binary
floating point first. A number too large for that is refused.
-/

namespace BatchScript.Json

/-- What a reader of a part of a text yields: the part and the text after it. -/
abbrev Reading (α : Type) := Option (α × List Char)

/-- The text after the blanks of the format. -/
def skipBlanks (text : List Char) : List Char :=
  text.dropWhile fun c => c = ' ' || c = '\t' || c = '\n' || c = '\r'

/-! ## Numbers -/

/-- The greatest integer that digits may add up to. -/
def maxDigits : Nat := Nat.pow 2 64 - 1

/-- Reads digits onto a number as long as it fits 64 bits: the number, how many digits were read,
and the text after them. -/
def readDigits (n count : Nat) : List Char → Nat × Nat × List Char
  | [] => (n, count, [])
  | c :: rest =>
    let next := 10 * n + Decimal.digitValue c
    if Decimal.isDigit c && next ≤ maxDigits then readDigits next (count + 1) rest
    else (n, count, c :: rest)

/-- The greatest power of ten within range. -/
def maxPower : Nat := 308

/-- A power of ten, rounded. -/
def powerOfTen (n : Nat) : Finite64 :=
  match Binary64.ofDecimal false 1 n with
  | .finite x => x
  | _ => ⟨false, 0, Binary64.minExponent⟩

/-- A number divided by a power of ten, rounded. -/
def divideByPower (x : Finite64) (n : Nat) : Finite64 :=
  match Binary64.div x (powerOfTen n) with
  | .finite y => y
  | _ => x

/-- A number divided `steps` times by the greatest power of ten within range. -/
def divideRepeatedly : (steps : Nat) → Finite64 → Finite64
  | 0, x => x
  | steps + 1, x =>
    if x.significand = 0 then x else divideRepeatedly steps (divideByPower x maxPower)

/-- Scales a number by `10 ^ exponent`, in steps that a power of ten within range can make. -/
def scaleByTen (x : Finite64) (exponent : Int) : Option Finite64 :=
  if 0 ≤ exponent then
    if x.significand = 0 then some x
    else if exponent ≤ maxPower then
      match Binary64.mul x (powerOfTen exponent.toNat) with
      | .finite y => some y
      | _ => none
    else none
  else
    let steps := ((-exponent).toNat - 1) / maxPower
    some (divideByPower (divideRepeatedly steps x) ((-exponent).toNat - maxPower * steps))

/-- A natural number, rounded. -/
def ofNatural (n : Nat) : Finite64 :=
  match Binary64.ofQuotient false n 1 with
  | .finite x => x
  | _ => ⟨false, 0, Binary64.minExponent⟩

/-- The number with leading digits `significand` at `exponent`. -/
def inexact (negative : Bool) (significand : Nat) (exponent : Int) : Option Json :=
  (scaleByTen (ofNatural significand) exponent).map fun x => .number { x with negative }

/-- Reads what may follow the digits of a number: an exponent. Exponents of more than 31 bits make
a number zero or too large. -/
def readExponent (negative : Bool) (significand : Nat) (exponent : Int) (text : List Char) :
    Reading Json :=
  match text with
  | c :: rest =>
    if c = 'e' || c = 'E' then
      let (below, digits) := Decimal.takeSign rest
      let power := Decimal.ofDigits (digits.takeWhile Decimal.isDigit)
      let after := digits.dropWhile Decimal.isDigit
      if digits.takeWhile Decimal.isDigit = [] then none
      else if Nat.pow 2 31 ≤ power then
        if significand ≠ 0 && !below then none
        else some (.number ⟨negative, 0, Binary64.minExponent⟩, after)
      else
        (inexact negative significand (if below then exponent - power else exponent + power)).map
          (·, after)
    else (inexact negative significand exponent).map (·, text)
  | [] => (inexact negative significand exponent).map (·, [])

/-- Reads the digits after a point. Those that no longer fit are passed over. -/
def readFraction (negative : Bool) (significand : Nat) (exponent : Int) (text : List Char) :
    Reading Json :=
  if text.head?.all (!Decimal.isDigit ·) then none
  else
    let (n, count, rest) := readDigits significand 0 text
    readExponent negative n (exponent - count) (rest.dropWhile Decimal.isDigit)

/-- Reads what follows the digits before a point, of which `dropped` did not fit. -/
def readTail (negative : Bool) (significand dropped : Nat) (text : List Char) : Reading Json :=
  match text with
  | '.' :: rest => readFraction negative significand dropped rest
  | c :: _ =>
    if dropped ≠ 0 || c = 'e' || c = 'E' then readExponent negative significand dropped text
    else some (whole, text)
  | [] => if dropped ≠ 0 then readExponent negative significand dropped [] else some (whole, [])
where
  /-- The number without a point or an exponent. -/
  whole : Json :=
    if !negative then .integer significand
    else if 0 < significand ∧ significand ≤ Nat.pow 2 63 then .integer (-(significand : Int))
    else .number { ofNatural significand with negative := true }

/-- Reads a number without its sign. -/
def readUnsigned (negative : Bool) (text : List Char) : Reading Json :=
  match text with
  | '0' :: rest =>
    if rest.head?.any Decimal.isDigit then none else readTail negative 0 0 rest
  | _ =>
    let (n, count, rest) := readDigits 0 0 text
    if count = 0 then none
    else
      readTail negative n (rest.takeWhile Decimal.isDigit).length (rest.dropWhile Decimal.isDigit)

/-! ## Strings -/

/-- The value of a digit in base sixteen. -/
def hexValue? (c : Char) : Option Nat :=
  if Decimal.isDigit c then some (c.toNat - '0'.toNat)
  else if 'a' ≤ c && c ≤ 'f' then some (c.toNat - 'a'.toNat + 10)
  else if 'A' ≤ c && c ≤ 'F' then some (c.toNat - 'A'.toNat + 10)
  else none

/-- The number that four digits in base sixteen denote. -/
def hex4? (a b c d : Char) : Option Nat := do
  let w ← hexValue? a
  let x ← hexValue? b
  let y ← hexValue? c
  let z ← hexValue? d
  return ((w * 16 + x) * 16 + y) * 16 + z

/-- The character that a backslash and a letter stand for. -/
def simpleEscape? (c : Char) : Option Char :=
  if c = '"' || c = '\\' || c = '/' then some c
  else if c = 'b' then some '\x08'
  else if c = 'f' then some '\x0c'
  else if c = 'n' then some '\n'
  else if c = 'r' then some '\r'
  else if c = 't' then some '\t'
  else none

/-- Reads the rest of a string after its opening quote. The two halves of a character beyond 16 bits
must follow each other. -/
def readString : List Char → Reading (List Char)
  | [] => none
  | '"' :: rest => some ([], rest)
  | '\\' :: 'u' :: a :: b :: c :: d :: rest =>
    match hex4? a b c d with
    | none => none
    | some unit =>
      if unit < 0xD800 || 0xE000 ≤ unit then
        (readString rest).map fun (tail, after) => (Char.ofNat unit :: tail, after)
      else if 0xDC00 ≤ unit then none
      else
        match rest with
        | '\\' :: 'u' :: e :: f :: g :: h :: rest =>
          match hex4? e f g h with
          | none => none
          | some low =>
            if 0xDC00 ≤ low && low < 0xE000 then
              (readString rest).map fun (tail, after) =>
                (Char.ofNat (0x10000 + (unit - 0xD800) * 0x400 + (low - 0xDC00)) :: tail, after)
            else none
        | _ => none
  | '\\' :: c :: rest =>
    match simpleEscape? c with
    | some meant => (readString rest).map fun (tail, after) => (meant :: tail, after)
    | none => none
  | c :: rest =>
    if c = '\\' || c.toNat < 0x20 then none
    else (readString rest).map fun (tail, after) => (c :: tail, after)

/-! ## Values -/

/-- Reads elements separated by commas up to a closing bracket; `fuel` bounds their number. -/
def readElements (read : List Char → Reading Json) : (fuel : Nat) → List Char → Reading (List Json)
  | 0, _ => none
  | fuel + 1, text =>
    match read text with
    | none => none
    | some (value, rest) =>
      match skipBlanks rest with
      | ',' :: rest =>
        (readElements read fuel rest).map fun (later, after) => (value :: later, after)
      | ']' :: rest => some ([value], rest)
      | _ => none

/-- Reads fields separated by commas up to a closing brace; `fuel` bounds their number. -/
def readFields (read : List Char → Reading Json) :
    (fuel : Nat) → List Char → Reading (List (String × Json))
  | 0, _ => none
  | fuel + 1, text =>
    match skipBlanks text with
    | '"' :: rest =>
      match readString rest with
      | none => none
      | some (name, rest) =>
        match skipBlanks rest with
        | ':' :: rest =>
          match read rest with
          | none => none
          | some (value, rest) =>
            match skipBlanks rest with
            | ',' :: rest =>
              (readFields read fuel rest).map fun (later, after) =>
                ((.ofList name, value) :: later, after)
            | '\x7d' :: rest => some ([(.ofList name, value)], rest)
            | _ => none
        | _ => none
    | _ => none

/-- Reads the rest of an array after its opening bracket. -/
def readArray (read : List Char → Reading Json) (text : List Char) : Reading Json :=
  match skipBlanks text with
  | ']' :: rest => some (.array [], rest)
  | text => (readElements read text.length text).map fun (values, rest) => (.array values, rest)

/-- Reads the rest of an object after its opening brace. -/
def readObject (read : List Char → Reading Json) (text : List Char) : Reading Json :=
  match skipBlanks text with
  | '\x7d' :: rest => some (.object [], rest)
  | text => (readFields read text.length text).map fun (fields, rest) => (ofFields fields, rest)

/-- Reads a value in which containers are nested at most `depth` deep. -/
def readValue (depth : Nat) (text : List Char) : Reading Json :=
  match skipBlanks text with
  | 'n' :: 'u' :: 'l' :: 'l' :: rest => some (.null, rest)
  | 't' :: 'r' :: 'u' :: 'e' :: rest => some (.bool true, rest)
  | 'f' :: 'a' :: 'l' :: 's' :: 'e' :: rest => some (.bool false, rest)
  | '"' :: rest => (readString rest).map fun (value, rest) => (.string (.ofList value), rest)
  | '-' :: rest => readUnsigned true rest
  | '[' :: rest =>
    match depth with
    | 0 => none
    | depth + 1 => readArray (readValue depth) rest
  | '\x7b' :: rest =>
    match depth with
    | 0 => none
    | depth + 1 => readObject (readValue depth) rest
  | text => readUnsigned false text

/-- How deep containers may be nested. -/
def maxDepth : Nat := 127

/-- The elements of a text that is one JSON array. -/
def array? (text : List Char) : Option (List Json) :=
  match readValue maxDepth text with
  | some (.array elements, rest) => if skipBlanks rest = [] then some elements else none
  | _ => none

end BatchScript.Json
