/-!
# Arguments

What a command line can ask for, and why one is refused.
-/

namespace BatchScript

/-- What a command line asks for. -/
inductive Request where
  /-- Runs the script in a file. -/
  | run (file : String) (vars : List String) (continueOnError : Bool)
      (logFile program : Option String) (maxLoopIterations : Nat)
  /-- Checks the script in a file. -/
  | check (file : String)
deriving DecidableEq, Repr

/-- The file that a request is about. -/
def Request.file : Request → String
  | .run file .. => file
  | .check file => file

/-- The flags that every request understands, and the request. -/
structure Arguments where
  dryRun : Bool
  json : Bool
  verbose : Bool
  request : Request
deriving DecidableEq, Repr

/-- Why a command line starts nothing. -/
inductive Refusal where
  | showHelp
  | showVersion
  | showHelpForNothing
  | missingRequest
  | unknownRequest
  | unknownArgument
  | missingFile
  | repeated
  | needlessValue
  | missingValue
  | malformedNumber
deriving DecidableEq, Repr

end BatchScript
