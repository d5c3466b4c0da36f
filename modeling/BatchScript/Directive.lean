import BatchScript.Line
import BatchScript.Text.Quote

/-!
# Directives

The typed form of directive lines. A line is read into a `Directive` on demand, by its keyword and
its body; a body that does not fit the keyword is a fault.
-/

namespace BatchScript

/-- What happens after a line has failed. -/
inductive Policy where
  | continue
  | abort
deriving DecidableEq, Repr

namespace Policy

/-- The policy that a flag asks for. -/
def ofFlag (continueOnError : Bool) : Policy :=
  if continueOnError then .continue else .abort

/-- Whether the lines after a failed one still run. -/
def continues : Policy → Bool
  | .continue => true
  | .abort => false

/-- The word for a policy. -/
def word : Policy → String
  | .continue => "continue"
  | .abort => "abort"

end Policy

/-- What opens a block. -/
inductive Opening where
  | conditional (condition : String)
  | foreach (var list : String)
  | loop (condition : String)
  | attempt
deriving DecidableEq, Repr

/-- The kind of the block that is opened. -/
def Opening.kind : Opening → BlockKind
  | .conditional _ => .conditional
  | .foreach .. => .foreach
  | .loop _ => .loop
  | .attempt => .attempt

/-- What divides the body of a block. -/
inductive Marker where
  | elif (condition : String)
  | otherwise
  | catch
  | finally
deriving DecidableEq, Repr

/-- The branch that a marker begins. -/
def Marker.branch : Marker → Branch
  | .elif _ => .elif
  | .otherwise => .otherwise
  | .catch => .catch
  | .finally => .finally

/-- A directive. -/
inductive Directive where
  | set (name value : String)
  | exported (name value : String)
  | unset (name : String)
  | echo (text : String)
  | onError (policy : Policy)
  | opens (opening : Opening)
  | divides (marker : Marker)
  | closes (kind : BlockKind)
deriving DecidableEq, Repr

namespace Directive

/-! ## Bodies -/

/-- A text cut at its first equals sign. -/
def cutAtEquals : List Char → Option (List Char × List Char)
  | [] => none
  | c :: rest =>
    if c = '=' then some ([], rest)
    else (cutAtEquals rest).map fun (front, tail) => (c :: front, tail)

/-- Reads the body `NAME = value`; the value loses one pair of quotes around it. -/
def readAssignment (keyword : String) (body : List Char) : Except Fault (String × String) :=
  match cutAtEquals body with
  | none => .error (.missingValue keyword)
  | some (name, value) =>
    match Text.trim name with
    | [] => .error (.missingName keyword)
    | name => .ok (.ofList name, .ofList (Text.stripQuotes (Text.trim value)))

/-- Reads the body `VAR in list`. -/
def readForeach (body : List Char) : Except Fault Directive :=
  let var := body.takeWhile (!Text.isBlank ·)
  match var, Text.trimStart (body.dropWhile (!Text.isBlank ·)) with
  | [], _ => .error .malformedForeach
  | _, 'i' :: 'n' :: list =>
    if list.head?.all Text.isBlank then
      .ok (.opens (.foreach (.ofList var) (.ofList (Text.trim list))))
    else .error .malformedForeach
  | _, _ => .error .malformedForeach

/-- Reads a body that must be a condition. -/
def readCondition (keyword body : String) (directive : String → Directive) :
    Except Fault Directive :=
  if body = "" then .error (.missingCondition keyword) else .ok (directive body)

/-- Reads a body that must be empty. -/
def readNothing (keyword body : String) (directive : Directive) : Except Fault Directive :=
  if body = "" then .ok directive else .error (.unexpectedArguments keyword)

/-- Reads the body of `@onerror`. -/
def readPolicy (body : String) : Except Fault Policy :=
  match Text.lowered body with
  | "continue" => .ok .continue
  | "abort" => .ok .abort
  | other => .error (.unknownPolicy other)

/-! ## Directives -/

/-- The directive with a keyword and a body. -/
def read (keyword body : String) : Except Fault Directive :=
  match keyword with
  | "set" => (readAssignment keyword body.toList).map fun (name, value) => .set name value
  | "export" => (readAssignment keyword body.toList).map fun (name, value) => .exported name value
  | "unset" =>
    if (Text.words body.toList).length = 1 then .ok (.unset body) else .error .unsetArity
  | "echo" => .ok (.echo (Text.unquoted body))
  | "onerror" => (readPolicy body).map .onError
  | "if" => readCondition keyword body fun condition => .opens (.conditional condition)
  | "elif" => readCondition keyword body fun condition => .divides (.elif condition)
  | "while" => readCondition keyword body fun condition => .opens (.loop condition)
  | "foreach" => readForeach body.toList
  | "else" => readNothing keyword body (.divides .otherwise)
  | "endif" => readNothing keyword body (.closes .conditional)
  | "endforeach" => readNothing keyword body (.closes .foreach)
  | "endwhile" => readNothing keyword body (.closes .loop)
  | "try" => readNothing keyword body (.opens .attempt)
  | "catch" => readNothing keyword body (.divides .catch)
  | "finally" => readNothing keyword body (.divides .finally)
  | "endtry" => readNothing keyword body (.closes .attempt)
  | "" => .error .missingKeyword
  | other => .error (.unknownDirective other)

/-- The directive on a line. -/
def ofLine (line : Line) : Except Fault Directive :=
  match line.content with
  | .directive keyword body => read keyword body
  | _ => .error .notADirective

/-- The block that a line opens, if it is a well-formed directive that opens one. -/
def opening? (line : Line) : Option Opening :=
  match ofLine line with
  | .ok (.opens opening) => some opening
  | _ => none

/-- The part a directive plays in the block structure. -/
def role : Directive → Role
  | .opens opening => .opens opening.kind
  | .divides marker => .divides marker.branch
  | .closes kind => .closes kind
  | .set .. | .exported .. | .unset _ | .echo _ | .onError _ => .plain

/-- The policy for the lines after a directive. -/
def policyAfter (policy : Policy) : Directive → Policy
  | .onError next => next
  | _ => policy

end Directive

end BatchScript
