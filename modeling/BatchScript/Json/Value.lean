import BatchScript.Number.Shortest

/-!
# JSON values and their text

JSON values, and how they are written: compactly, or on lines with two blanks of indentation. The
fields of an object are written in the order of their names. An integer is written in full. Other
numbers are written with the fewest digits that read back: positionally when the first digit stands
between the fifth place after the point and the sixteenth before it, and with an exponent elsewhere.
-/

namespace BatchScript

/-- A JSON value. -/
inductive Json where
  | null
  | bool (value : Bool)
  | integer (value : Int)
  | number (value : Finite64)
  | string (value : String)
  | array (elements : List Json)
  | object (fields : List (String × Json))

namespace Json

/-! ## Numbers -/

/-- The digits of a natural number. -/
def naturalText (n : Nat) : List Char :=
  Nat.toDigits 10 n

/-- Digits whose last one stands at `place`, written with a point or an exponent. -/
def digitsText (digits : List Char) (place : Int) : List Char :=
  let point : Int := digits.length + place
  if 0 ≤ place ∧ point ≤ 16 then digits ++ List.replicate place.toNat '0' ++ ['.', '0']
  else if 0 < point ∧ point ≤ 16 then
    digits.take point.toNat ++ '.' :: digits.drop point.toNat
  else if -5 < point ∧ point ≤ 0 then
    '0' :: '.' :: List.replicate (-point).toNat '0' ++ digits
  else
    let fraction := if digits.length = 1 then [] else '.' :: digits.drop 1
    let power := point - 1
    digits.take 1 ++ fraction ++ 'e' :: (if power < 0 then '-' else '+') ::
      naturalText power.natAbs

/-- A number that is not an integer value. -/
def numberText (x : Finite64) : List Char :=
  let magnitude := if x.significand = 0 then ['0', '.', '0'] else
    let (digits, place) := Shortest.digits x
    digitsText (naturalText digits) place
  if x.negative then '-' :: magnitude else magnitude

/-! ## Strings -/

/-- A digit of a number in base sixteen. -/
def hexDigit (n : Nat) : Char :=
  Nat.digitChar (n % 16)

/-- A character inside a string. -/
def escaped (c : Char) : List Char :=
  if c = '"' then ['\\', '"']
  else if c = '\\' then ['\\', '\\']
  else if c = '\x08' then ['\\', 'b']
  else if c = '\x0c' then ['\\', 'f']
  else if c = '\n' then ['\\', 'n']
  else if c = '\r' then ['\\', 'r']
  else if c = '\t' then ['\\', 't']
  else if c.toNat < 0x20 then ['\\', 'u', '0', '0', hexDigit (c.toNat / 16), hexDigit c.toNat]
  else [c]

/-- A string with its quotes. -/
def stringText (text : String) : List Char :=
  '"' :: text.toList.flatMap escaped ++ ['"']

/-! ## Objects -/

/-- Adds a field to fields that are ordered by name, over a field of the same name. -/
def insertField (name : String) (value : Json) : List (String × Json) → List (String × Json)
  | [] => [(name, value)]
  | (n, v) :: rest =>
    if name < n then (name, value) :: (n, v) :: rest
    else if name = n then (name, value) :: rest
    else (n, v) :: insertField name value rest

/-- The object with the fields, of which the last one of each name counts. -/
def ofFields (fields : List (String × Json)) : Json :=
  .object (fields.foldl (fun ordered (name, value) => insertField name value ordered) [])

/-! ## Compact text -/

mutual

/-- A value without blanks. -/
def compact : Json → List Char
  | .null => ['n', 'u', 'l', 'l']
  | .bool true => ['t', 'r', 'u', 'e']
  | .bool false => ['f', 'a', 'l', 's', 'e']
  | .integer value => (toString value).toList
  | .number value => numberText value
  | .string value => stringText value
  | .array [] => ['[', ']']
  | .array (first :: rest) => '[' :: compact first ++ compactElements rest
  | .object [] => ['\x7b', '\x7d']
  | .object ((name, value) :: rest) =>
    '\x7b' :: stringText name ++ ':' :: compact value ++ compactFields rest

/-- The elements after the first, and the end of the array. -/
def compactElements : List Json → List Char
  | [] => [']']
  | value :: rest => ',' :: compact value ++ compactElements rest

/-- The fields after the first, and the end of the object. -/
def compactFields : List (String × Json) → List Char
  | [] => ['\x7d']
  | (name, value) :: rest =>
    ',' :: stringText name ++ ':' :: compact value ++ compactFields rest

end

/-! ## Indented text -/

/-- A line break and the indentation of the line after it. -/
def lineBreak (depth : Nat) : List Char :=
  '\n' :: List.replicate (2 * depth) ' '

mutual

/-- A value on lines of its own, `depth` levels deep. -/
def indented (depth : Nat) : Json → List Char
  | .array (first :: rest) =>
    '[' :: lineBreak (depth + 1) ++ indented (depth + 1) first ++ indentedElements depth rest
  | .object ((name, value) :: rest) =>
    '\x7b' :: lineBreak (depth + 1) ++ stringText name ++ ':' :: ' ' ::
      indented (depth + 1) value ++ indentedFields depth rest
  | value => compact value

/-- The elements after the first, and the end of the array. -/
def indentedElements (depth : Nat) : List Json → List Char
  | [] => lineBreak depth ++ [']']
  | value :: rest =>
    ',' :: lineBreak (depth + 1) ++ indented (depth + 1) value ++ indentedElements depth rest

/-- The fields after the first, and the end of the object. -/
def indentedFields (depth : Nat) : List (String × Json) → List Char
  | [] => lineBreak depth ++ ['\x7d']
  | (name, value) :: rest =>
    ',' :: lineBreak (depth + 1) ++ stringText name ++ ':' :: ' ' ::
      indented (depth + 1) value ++ indentedFields depth rest

end

/-- The text of a value on lines. -/
def pretty (value : Json) : String :=
  .ofList (indented 0 value)

end Json

end BatchScript
