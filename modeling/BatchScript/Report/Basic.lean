import BatchScript.LineResult
import BatchScript.Time.Instant

/-!
# Reports

What a run of a script came to.
-/

namespace BatchScript

/-- The report of one run. -/
structure Report where
  script : String
  success : Bool
  executed : Nat
  skipped : Nat
  failed : Nat
  milliseconds : Nat
  startedAt : Instant
  finishedAt : Instant
  dryRun : Bool
  error : Option String
  log : List LineResult
deriving DecidableEq, Repr

end BatchScript
