/-!
# Settings

How a script is run, and how the run is reported.
-/

namespace BatchScript

/-- How a run is reported: in words, or as JSON. In JSON mode the texts that a script echoes go to
the error stream. -/
inductive Format where
  | human
  | json
deriving DecidableEq, Repr

/-- How a script is run. -/
structure Settings where
  dryRun : Bool := false
  verbose : Bool := false
  continueOnError : Bool := false
  maxLoopIterations : Nat := 10000
  format : Format := .human
deriving DecidableEq, Repr

end BatchScript
