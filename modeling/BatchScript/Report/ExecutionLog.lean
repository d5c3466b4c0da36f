import BatchScript.FileSystem
import BatchScript.Report.Basic

/-!
# Execution logs

A report as a plain text with one entry for each result. The lines that a command has printed are
indented under its entry.
-/

namespace BatchScript.Report

/-- The first line of an entry. -/
def entryHeader (result : LineResult) : String :=
  s!"[line {result.line}] {successWord result.success} ({result.milliseconds} ms)\n"

/-- The lines of an output, indented. -/
def outputText (output : String) : String :=
  if output = "" then ""
  else
    "  Output:\n" ++
      String.join ((Text.lines output.toList).map fun line => "    " ++ .ofList line ++ "\n")

/-- The entry of a result. -/
def entryText (result : LineResult) : String :=
  entryHeader result ++
    s!"  Command: {result.text}\n" ++
    outputText result.output ++
    result.error.elim "" (fun error => s!"  Error:   {error}\n") ++
    "\n"

/-- The part of a log before its entries. -/
def logHeader (report : Report) : String :=
  "officebatch execution log\n=========================\n" ++
    s!"Script:   {report.script}\n" ++
    s!"Started:  {report.startedAt.offsetText}\n" ++
    s!"Finished: {report.finishedAt.offsetText}\n" ++
    s!"Duration: {report.milliseconds} ms\n" ++
    s!"Result:   {successWord report.success}\n" ++
    report.error.elim "" (fun error => s!"Error:    {error}\n") ++
    "\n"

/-- The last line of a log. -/
def logFooter (report : Report) : String :=
  s!"Summary: executed={report.executed} skipped={report.skipped} failed={report.failed}\n"

/-- The execution log of a run. -/
def executionLog (report : Report) : String :=
  report.logHeader ++ String.join (report.log.map entryText) ++ report.logFooter

/-- Writes the execution log to a file. -/
def writeLog (report : Report) (path : String) (files : FileSystem) :
    Except IoFault Unit × FileSystem :=
  files.writeTextAt path report.executionLog

end BatchScript.Report
