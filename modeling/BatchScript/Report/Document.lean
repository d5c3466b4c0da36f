import BatchScript.Json.Value
import BatchScript.Report.Basic

/-!
# Report documents

A report as a JSON document.
-/

namespace BatchScript

/-- A result as a JSON value. -/
def LineResult.toJson (result : LineResult) : Json :=
  .ofFields [("line_number", .integer result.line), ("command_text", .string result.text),
    ("success", .bool result.success), ("output", .string result.output),
    ("error", result.error.elim .null .string), ("duration_ms", .integer result.milliseconds)]

namespace Report

/-- A report as a JSON value. -/
def toJson (report : Report) : Json :=
  .ofFields [("script", .string report.script), ("success", .bool report.success),
    ("executed_count", .integer report.executed), ("skipped_count", .integer report.skipped),
    ("failed_count", .integer report.failed), ("total_duration_ms", .integer report.milliseconds),
    ("started_at", .string report.startedAt.zuluText),
    ("finished_at", .string report.finishedAt.zuluText), ("dry_run", .bool report.dryRun),
    ("error", report.error.elim .null .string), ("log", .array (report.log.map (·.toJson)))]

/-- The JSON document of a run. -/
def document (report : Report) : String :=
  report.toJson.pretty

end Report

end BatchScript
