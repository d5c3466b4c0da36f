import BatchScript.Number.Decimal
import BatchScript.Text.Lowercase
import BatchScript.Text.Quote
import BatchScript.Variables

/-!
# Conditions

A condition is read into a tree before anything is evaluated, and values are only put in when the
tree is evaluated, so nothing in a value is ever read as part of a condition. Reading tries, in
this order: a boolean literal, a lone `exists("path")`, operands between ` and `, operands between
` or `, a leading `not `, a comparison, and the truth of the text itself. Operators count only
outside quotes, and ` and ` binds more loosely than ` or ` because it is tried first.
-/

namespace BatchScript

/-! ## Comparisons -/

/-- A comparison operator. -/
inductive Comparison where
  | equal
  | unequal
  | atLeast
  | atMost
  | greater
  | less
deriving DecidableEq, Repr

namespace Comparison

/-- The operators in the order in which a text is searched for them. -/
def all : List Comparison :=
  [.equal, .unequal, .atLeast, .atMost, .greater, .less]

/-- An operator as it is written. -/
def symbol : Comparison → String
  | .equal => "=="
  | .unequal => "!="
  | .atLeast => ">="
  | .atMost => "<="
  | .greater => ">"
  | .less => "<"

/-- Whether the operator holds of numbers that compare in this way; without an order only
`unequal` holds. -/
def holds (operator : Comparison) (order : Option Ordering) : Bool :=
  match operator with
  | .equal => order == some .eq
  | .unequal => order != some .eq
  | .atLeast => order == some .gt || order == some .eq
  | .atMost => order == some .lt || order == some .eq
  | .greater => order == some .gt
  | .less => order == some .lt

/-- Compares two operands: as numbers if both are numbers, else as texts, which have no order. -/
def apply (operator : Comparison) (left right : List Char) : Except EvaluationFault Bool :=
  match Decimal.parse? (Text.trim left), Decimal.parse? (Text.trim right) with
  | some l, some r => .ok (operator.holds (Binary64.compare? l r))
  | _, _ =>
    match operator with
    | .equal => .ok (left == right)
    | .unequal => .ok (left != right)
    | _ => .error (.nonNumeric operator.symbol (.ofList left) (.ofList right))

/-- Cuts a text at the first place outside quotes where the first operator that occurs is
written. -/
def find? (text : List Char) : Option (Comparison × List Char × List Char) :=
  all.findSome? fun operator =>
    (Text.cutOutside operator.symbol.toList none text).map (operator, ·)

end Comparison

/-! ## Trees -/

/-- A condition, with the texts of its leaves as they are written. -/
inductive Condition where
  | literal (value : Bool)
  | exists (path : List Char)
  | malformedExists (text : List Char)
  | and (left right : Condition)
  | or (left right : Condition)
  | not (operand : Condition)
  | compare (operator : Comparison) (left right : List Char)
  | truth (text : List Char)
deriving DecidableEq, Repr

namespace Condition

/-- The truth value that a text spells, if it spells one. -/
def literal? (text : List Char) : Option Bool :=
  let word := String.ofList (Text.lower text)
  if word = "true" || word = "1" || word = "yes" then some true
  else if word = "false" || word = "0" || word = "no" || word = "" || word = "\"\"" || word = "''"
  then some false
  else none

/-- The separator of conjuncts. -/
def andWord : List Char := [' ', 'a', 'n', 'd', ' ']

/-- The separator of disjuncts. -/
def orWord : List Char := [' ', 'o', 'r', ' ']

/-- What a negation starts with. -/
def notWord : List Char := ['n', 'o', 't', ' ']

/-- What a test for a file starts with. -/
def existsWord : List Char := ['e', 'x', 'i', 's', 't', 's', '(']

/-- A text that starts like a test for a file: the test if the text is a lone one, nothing if it may
be an operand of a chain, and else a malformed test. -/
def readExists? (text : List Char) : Option Condition :=
  match Text.after? existsWord text with
  | none => none
  | some inner =>
    let argument := if inner.getLast? = some ')' then
      Text.quotedLiteral? (Text.trim inner.dropLast) else none
    match argument with
    | some path => some (.exists path)
    | none =>
      if Text.occursOutside andWord text || Text.occursOutside orWord text then none
      else some (.malformedExists text)

/-- Joins operands from the right. -/
def chain (join : Condition → Condition → Condition) : List Condition → Condition
  | [] => .literal true
  | [last] => last
  | first :: rest => join first (chain join rest)

/-- A text without logical operators: a comparison, or the truth of the text itself. -/
def readAtom (text : List Char) : Condition :=
  match Comparison.find? text with
  | some (operator, left, right) => .compare operator left right
  | none => .truth text

/-- Reads a condition. -/
def read (raw : List Char) : Condition :=
  let text := Text.trim raw
  match literal? text with
  | some value => .literal value
  | none =>
    match readExists? text with
    | some test => test
    | none =>
      if _hand : Text.occursOutside andWord text = true then
        chain .and ((Text.splitOutside andWord text).attach.map fun ⟨piece, _⟩ => read piece)
      else if _hor : Text.occursOutside orWord text = true then
        chain .or ((Text.splitOutside orWord text).attach.map fun ⟨piece, _⟩ => read piece)
      else
        match _hnot : Text.after? notWord text with
        | some operand => .not (read operand)
        | none => readAtom text
termination_by raw.length
decreasing_by
  · have : text.length ≤ raw.length := Text.length_trim_le raw
    have := Text.length_lt_of_mem_splitOutside _hand (by decide) (by assumption)
    omega
  · have : text.length ≤ raw.length := Text.length_trim_le raw
    have := Text.length_lt_of_mem_splitOutside _hor (by decide) (by assumption)
    omega
  · have : text.length ≤ raw.length := Text.length_trim_le raw
    have := Text.length_of_after? _hnot
    have : notWord.length = 4 := rfl
    omega

/-- A condition is read in a fixed order. -/
theorem read_eq (raw : List Char) :
    read raw =
      match literal? (Text.trim raw), readExists? (Text.trim raw) with
      | some value, _ => .literal value
      | none, some test => test
      | none, none =>
        if Text.occursOutside andWord (Text.trim raw) then
          chain .and ((Text.splitOutside andWord (Text.trim raw)).map read)
        else if Text.occursOutside orWord (Text.trim raw) then
          chain .or ((Text.splitOutside orWord (Text.trim raw)).map read)
        else
          match Text.after? notWord (Text.trim raw) with
          | some operand => .not (read operand)
          | none => readAtom (Text.trim raw) := by
  have hand := (Text.splitOutside andWord (Text.trim raw)).attach_map_val (f := read)
  have hor := (Text.splitOutside orWord (Text.trim raw)).attach_map_val (f := read)
  rw [read, ← hand, ← hor]
  grind

/-! ## Evaluation -/

/-- The value of an operand: a bare identifier names a variable, and anything else is resolved and
loses one pair of quotes around it. -/
def operand (vars : Variables) (raw : List Char) : List Char :=
  let text := Text.trim raw
  if Text.isIdentifier text then (vars.get (.ofList text) "").toList
  else Text.stripQuotes (Text.trim (vars.resolve text))

/-- Whether a resolved text counts as true: by what it spells, else by not being empty. -/
def isTrue (resolved : List Char) : Bool :=
  let text := Text.trim resolved
  (literal? text).getD (text != [])

/-- Evaluates a condition; operands are evaluated from the left, and only until the result is
settled. -/
def evaluate (pathExists : String → Bool) (vars : Variables) :
    Condition → Except EvaluationFault Bool
  | .literal value => .ok value
  | .exists path => .ok (pathExists (.ofList (vars.resolve path)))
  | .malformedExists text => .error (.malformedExists (.ofList text))
  | .and left right =>
    match evaluate pathExists vars left with
    | .ok true => evaluate pathExists vars right
    | settled => settled
  | .or left right =>
    match evaluate pathExists vars left with
    | .ok false => evaluate pathExists vars right
    | settled => settled
  | .not operand =>
    match evaluate pathExists vars operand with
    | .ok value => .ok !value
    | .error fault => .error fault
  | .compare operator left right =>
    operator.apply (operand vars left) (operand vars right)
  | .truth text => .ok (isTrue (vars.resolve text))

/-- Reads and evaluates a condition. -/
def holds (pathExists : String → Bool) (vars : Variables) (text : String) :
    Except EvaluationFault Bool :=
  (read text.toList).evaluate pathExists vars

end Condition

end BatchScript
