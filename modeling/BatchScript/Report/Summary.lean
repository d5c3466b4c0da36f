import BatchScript.Report.Basic

/-!
# Summaries

A report in words: what was run, how it ended, and the lines that failed. A command that is too long
for its column is cut.
-/

namespace BatchScript.Report

/-- How a run ended, in words. -/
def statusText (report : Report) : String :=
  if report.dryRun then "DRY RUN" else successWord report.success

/-- A text of at most 52 characters; of a longer one the start, with dots after it. -/
def shortened (text : String) : String :=
  if text.length ≤ 52 then text else .ofList (text.toList.take 49) ++ "..."

/-- The entry of a failed line. -/
def failureText (result : LineResult) : String :=
  "\n" ++ Text.alignRight 5 (toString result.line) ++ "  " ++ shortened result.text ++
    "\n       " ++ result.error.getD "(no error message)"

/-- The list of failed lines, if there are any. -/
def failuresText (report : Report) : String :=
  match report.log.filter (!·.success) with
  | [] => ""
  | failed =>
    "\n\nFailed lines\n" ++ .ofList (List.replicate 60 '-') ++ String.join (failed.map failureText)

/-- The summary of a run. -/
def summary (report : Report) : String :=
  "Batch Summary\n-------------\n" ++
    s!"Script:    {report.script}\n" ++
    s!"Status:    {report.statusText}\n" ++
    s!"Executed:  {report.executed}\n" ++
    s!"Skipped:   {report.skipped}\n" ++
    s!"Failed:    {report.failed}\n" ++
    s!"Duration:  {report.milliseconds} ms" ++
    report.error.elim "" ("\nError:     " ++ ·) ++
    report.failuresText

end BatchScript.Report
