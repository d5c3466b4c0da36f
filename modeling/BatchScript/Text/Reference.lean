/-!
# References in text

A reference is `$NAME` or `${NAME}` with an identifier as its name. A text is scanned once, from the
left, into single characters and references; an unbraced name is as long as possible. Substituting
values for references copies them verbatim, so nothing that a value contains is scanned again.
-/

namespace BatchScript.Text

/-! ## Identifiers -/

/-- The characters an identifier may start with. -/
def isNameStart (c : Char) : Bool :=
  ('a' ≤ c && c ≤ 'z') || ('A' ≤ c && c ≤ 'Z') || c == '_'

/-- The characters of an identifier. -/
def isNameChar (c : Char) : Bool :=
  isNameStart c || ('0' ≤ c && c ≤ '9')

/-- Whether a text is an identifier. -/
def isIdentifier : List Char → Bool
  | [] => false
  | c :: rest => isNameStart c && rest.all isNameChar

/-! ## Scanning -/

/-- A part of a text: one character, or a reference and whether it was written with braces. -/
inductive Part where
  | char (c : Char)
  | reference (name : List Char) (braced : Bool)
deriving DecidableEq, Repr

/-- A part as it stands in the text. -/
def Part.written : Part → List Char
  | .char c => [c]
  | .reference name true => '$' :: '{' :: name ++ ['}']
  | .reference name false => '$' :: name

/-- The reference that a dollar sign before this text begins, and what follows the reference. -/
def reference? (text : List Char) : Option (Part × List Char) :=
  match text with
  | '{' :: inner =>
    let name := inner.takeWhile isNameChar
    match inner.dropWhile isNameChar with
    | '}' :: rest => if isIdentifier name then some (.reference name true, rest) else none
    | _ => none
  | _ =>
    let name := text.takeWhile isNameChar
    if isIdentifier name then some (.reference name false, text.dropWhile isNameChar) else none

theorem length_dropWhile_le (p : Char → Bool) (text : List Char) :
    (text.dropWhile p).length ≤ text.length :=
  (List.dropWhile_suffix p).length_le

theorem length_of_reference? {text rest : List Char} {part : Part}
    (h : reference? text = some (part, rest)) : rest.length ≤ text.length := by
  unfold reference? at h
  split at h
  next inner =>
    have hle := length_dropWhile_le isNameChar inner
    split at h
    next tail heq =>
      rw [heq, List.length_cons] at hle
      simp only [Option.ite_none_right_eq_some, Option.some.injEq, Prod.mk.injEq] at h
      rw [← h.2.2, List.length_cons]
      omega
    next => contradiction
  next =>
    simp only [Option.ite_none_right_eq_some, Option.some.injEq, Prod.mk.injEq] at h
    rw [← h.2.2]
    exact length_dropWhile_le isNameChar text

/-- The characters and references of a text, from the left. -/
def parts : List Char → List Part
  | [] => []
  | c :: rest =>
    match _h : if c = '$' then reference? rest else none with
    | some (part, tail) => part :: parts tail
    | none => .char c :: parts rest
termination_by text => text.length
decreasing_by
  · split at _h
    · have := length_of_reference? _h
      simp only [List.length_cons]
      omega
    · contradiction
  · simp

theorem parts_nil : parts [] = [] := by
  rw [parts]

theorem parts_cons (c : Char) (rest : List Char) :
    parts (c :: rest) =
      match if c = '$' then reference? rest else none with
      | some (part, tail) => part :: parts tail
      | none => .char c :: parts rest := by
  rw [parts]
  split <;> simp_all

/-! ## Substitution -/

/-- What a part becomes when references take the values that `value` gives; a name without one
stays as it is written. -/
def Part.expand (value : String → Option String) : Part → List Char
  | .char c => [c]
  | .reference name braced =>
    match value (.ofList name) with
    | some text => text.toList
    | none => (Part.reference name braced).written

/-- Replaces every reference of a text that has a value by that value. -/
def substitute (value : String → Option String) (text : List Char) : List Char :=
  (parts text).flatMap (Part.expand value)

/-- The names that a text refers to, in order. -/
def references (text : List Char) : List String :=
  (parts text).filterMap fun
    | .char _ => none
    | .reference name _ => some (.ofList name)

end BatchScript.Text
