import BatchScript.Text.Align

/-!
# Results of lines

What is recorded each time a line has run.
-/

namespace BatchScript

/-- The record of one line that has run. -/
structure LineResult where
  line : Nat
  text : String
  success : Bool
  output : String
  error : Option String
  milliseconds : Nat
deriving DecidableEq, Repr

/-- The word for a success or a failure. -/
def successWord (success : Bool) : String :=
  if success then "SUCCESS" else "FAILED"

/-- A result in one line, as it is printed while a script runs. -/
def LineResult.status (result : LineResult) : String :=
  "[line " ++ Text.alignRight 4 (toString result.line) ++ "] " ++
    Text.alignLeft 7 (successWord result.success) ++ " " ++ result.text ++
    s!" ({result.milliseconds} ms)" ++ result.error.elim "" (": " ++ ·)

end BatchScript
