import BatchScript.Proofs.Text.Lines
import BatchScript.Report.ExecutionLog

/-!
# Entries of execution logs

A log is made of rows (`executionLog_eq_unlines`): its header, the rows of each entry and the summary. What a
command has printed is cut into lines that stand in rows of their own behind an indentation, so none of
them looks like the first line of an entry or like the summary. The message of an error stands in one row
whatever it holds, and behind its first line feed nothing is indented: the lines of a log that start like an
entry or like the summary are the ones that are meant to, and such lines of messages (`marked_executionLog`).
-/

namespace BatchScript

namespace Text

@[simp] theorem toList_unlines (texts : List String) :
    (unlines texts).toList = texts.flatMap fun text => text.toList ++ ['\n'] := by
  have hfold : ∀ out : String, (texts.foldl (fun out text => out ++ text ++ "\n") out).toList =
      out.toList ++ texts.flatMap fun text => text.toList ++ ['\n'] := by
    induction texts with
    | nil => simp
    | cons text texts ih => intro out; simp [ih]
  exact hfold ""

theorem unlines_append (front back : List String) :
    unlines (front ++ back) = unlines front ++ unlines back :=
  String.toList_injective (by simp)

theorem unlines_flatMap {α : Type} (rows : α → List String) (entries : List α) :
    unlines (entries.flatMap rows) = String.join (entries.map fun entry => unlines (rows entry)) := by
  induction entries with
  | nil => rfl
  | cons entry entries ih =>
    rw [List.flatMap_cons, unlines_append, ih, List.map_cons, String.join_cons]

theorem lines_unlines (texts : List String) :
    lines (unlines texts).toList = texts.flatMap fun text => lines (text.toList ++ ['\n']) := by
  have hrows := lines_flatMap_newline (texts.map String.toList)
  rwa [List.flatMap_map, List.flatMap_map, ← toList_unlines] at hrows

end Text

/-! ## Characters of numbers and times -/

@[simp] theorem not_mem_toDigits {c : Char} (hc : c.isDigit = false) (n : Nat) : c ∉ Nat.toDigits 10 n :=
  fun h => by simp [Nat.isDigit_of_mem_toDigits (by decide) (by decide) h] at hc

namespace Instant

@[simp] theorem newline_not_mem_padded (width n : Nat) : '\n' ∉ (padded width n).toList := by
  simp [padded]

@[simp] theorem newline_not_mem_yearText (year : Int) : '\n' ∉ (yearText year).toList := by
  unfold yearText
  split
  · simp
  · split <;> simp

@[simp] theorem newline_not_mem_fractionText (nanoseconds : Nat) :
    '\n' ∉ (fractionText nanoseconds).toList := by
  unfold fractionText
  split_ifs <;> simp

@[simp] theorem newline_not_mem_offsetText (instant : Instant) : '\n' ∉ instant.offsetText.toList := by
  simp [offsetText, dateTimeText]

end Instant

@[simp] theorem not_mem_successWord {c : Char} (hc : c.isUpper = false) (success : Bool) :
    c ∉ (successWord success).toList := by
  have hupper : (successWord success).toList.all Char.isUpper := by cases success <;> decide
  exact fun h => by simp [List.all_eq_true.1 hupper c h] at hc

namespace Report

/-! ## Rows -/

/-- The first row of an entry. -/
def entryTitle (result : LineResult) : String :=
  "[line " ++ (toString result.line ++ "] " ++ successWord result.success ++ " (" ++
    toString result.milliseconds ++ " ms)")

/-- The rows of an output. -/
def outputRows (output : String) : List String :=
  if output = "" then []
  else "  Output:" :: (Text.lines output.toList).map fun line => "    " ++ .ofList line

/-- The row of an error, behind a label. -/
def errorRows (label : String) (error : Option String) : List String :=
  error.elim [] fun error => [label ++ error]

/-- The rows of an entry. -/
def entryRows (result : LineResult) : List String :=
  entryTitle result :: ("  Command: " ++ result.text) ::
    (outputRows result.output ++ errorRows "  Error:   " result.error ++ [""])

/-- The rows of a log before its entries. -/
def headerRows (report : Report) : List String :=
  ["officebatch execution log", "=========================", "Script:   " ++ report.script,
    "Started:  " ++ report.startedAt.offsetText, "Finished: " ++ report.finishedAt.offsetText,
    "Duration: " ++ (toString report.milliseconds ++ " ms"),
    "Result:   " ++ successWord report.success] ++ errorRows "Error:    " report.error ++ [""]

/-- The last row of a log. -/
def footerRow (report : Report) : String :=
  "Summary: " ++ ("executed=" ++ toString report.executed ++ " skipped=" ++ toString report.skipped ++
    " failed=" ++ toString report.failed)

theorem logHeader_eq_unlines (report : Report) :
    report.logHeader = Text.unlines report.headerRows := by
  refine String.toList_injective ?_
  unfold logHeader
  cases herror : report.error <;> simp [headerRows, errorRows, herror, toString]

theorem outputText_eq_unlines (output : String) : outputText output = Text.unlines (outputRows output) := by
  rw [outputText, outputRows]
  split
  · rfl
  · exact String.toList_injective (by simp [List.flatMap_map])

theorem entryHeader_eq (result : LineResult) : entryHeader result = entryTitle result ++ "\n" := by
  refine String.toList_injective ?_
  simp [entryHeader, entryTitle, toString]

theorem entryText_eq_unlines (result : LineResult) :
    entryText result = Text.unlines (entryRows result) := by
  refine String.toList_injective ?_
  cases herror : result.error <;>
    simp [entryText, entryHeader_eq, entryRows, errorRows, outputText_eq_unlines, herror, toString]

theorem logFooter_eq_unlines (report : Report) :
    report.logFooter = Text.unlines [report.footerRow] := by
  refine String.toList_injective ?_
  unfold logFooter footerRow
  simp [toString]

/-- A log is made of the rows of its parts. -/
theorem executionLog_eq_unlines (report : Report) :
    report.executionLog =
      Text.unlines (report.headerRows ++ report.log.flatMap entryRows ++ [report.footerRow]) := by
  have hentries : report.log.map entryText = report.log.map fun result => Text.unlines (entryRows result) :=
    List.map_congr_left fun result _ => entryText_eq_unlines result
  rw [Text.unlines_append, Text.unlines_append, Text.unlines_flatMap, ← logHeader_eq_unlines, ← hentries,
    ← logFooter_eq_unlines, executionLog]

/-! ## Marks -/

/-- What the first line of an entry starts with. -/
def entryMark : List Char :=
  "[line ".toList

/-- What the summary starts with. -/
def summaryMark : List Char :=
  "Summary: ".toList

/-- The lines of a text that start with a mark. -/
def marked (mark text : List Char) : List (List Char) :=
  (Text.lines text).filter (mark.isPrefixOf ·)

/-- The lines of an error that start with a mark. The first line stands behind a label and is left out. -/
def looseLines (mark : List Char) (error : Option String) : List (List Char) :=
  error.elim [] fun error => (Text.lines (error.toList ++ ['\n'])).tail.filter (mark.isPrefixOf ·)

/-- The lines of a row that start with a mark. -/
def markedInRow (mark : List Char) (row : String) : List (List Char) :=
  marked mark (row.toList ++ ['\n'])

theorem marked_unlines (mark : List Char) (rows : List String) :
    marked mark (Text.unlines rows).toList = rows.flatMap (markedInRow mark) := by
  rw [marked, Text.lines_unlines, List.filter_flatMap]
  rfl

theorem looseLines_eq_nil {error : Option String} (h : ∀ text ∈ error, '\n' ∉ text.toList)
    (mark : List Char) : looseLines mark error = [] := by
  cases error with
  | none => rfl
  | some text =>
    rw [looseLines, Option.elim_some, Text.lines_newline (h text rfl)]
    rfl

variable {mark : List Char}

theorem markedInRow_eq_singleton {label text : String}
    (hlabel : '\n' ∉ label.toList ∧ '\r' ∉ label.toList) (htext : '\n' ∉ text.toList ∧ '\r' ∉ text.toList) :
    markedInRow label.toList (label ++ text) = [(label ++ text).toList] := by
  have hline : '\n' ∉ (label ++ text).toList := by simp [hlabel.1, htext.1]
  have hreturn : '\r' ∉ (label ++ text).toList := by simp [hlabel.2, htext.2]
  have hend : (label ++ text).toList.getLast? ≠ some '\r' := fun h => hreturn (List.mem_of_getLast? h)
  rw [markedInRow, marked, Text.lines_newline hline, Text.dropReturn_eq_self hend,
    List.filter_cons_of_pos (by simp), List.filter_nil]

/-- A line that begins with the label does not start with the mark, whatever follows. -/
def Hides (label : String) (mark : List Char) : Prop :=
  '\n' ∉ label.toList ∧ ¬ mark <+: label.toList ∧ ¬ label.toList <+: mark

instance (label : String) (mark : List Char) : Decidable (Hides label mark) :=
  inferInstanceAs (Decidable (_ ∧ _))

/-- A label stands before the first line of a text only. -/
theorem Hides.markedInRow_append {label : String} (h : Hides label mark) (text : String) :
    markedInRow mark (label ++ text) =
      (Text.lines (text.toList ++ ['\n'])).tail.filter (mark.isPrefixOf ·) := by
  obtain ⟨hline, hmark, hlabel⟩ := h
  obtain ⟨back, hlines⟩ := Text.exists_lines_append hline text.toList
  have hfirst : ¬ mark <+: Text.dropReturn (label.toList ++ back) := fun hstart =>
    (List.prefix_or_prefix_of_prefix (hstart.trans (Text.dropReturn_prefix _))
      (List.prefix_append label.toList back)).elim hmark hlabel
  rw [markedInRow, String.toList_append, marked, hlines,
    List.filter_cons_of_neg (by simpa using hfirst)]

theorem Hides.markedInRow_eq_nil {label text : String} (h : Hides label mark)
    (htext : '\n' ∉ text.toList) : markedInRow mark (label ++ text) = [] := by
  rw [h.markedInRow_append, Text.lines_newline htext]
  rfl

/-! ## Rows behind labels -/

/-- The labels of the rows that are neither the first of an entry nor the last of a log. -/
def labels : List String :=
  ["officebatch execution log", "=========================", "Script:   ", "Started:  ", "Finished: ",
    "Duration: ", "Result:   ", "Error:    ", "  Command: ", "  Output:", "    ", "  Error:   "]

theorem hides_of_mem_labels : ∀ label ∈ labels, Hides label entryMark ∧ Hides label summaryMark := by
  decide

section Mark

variable (hmark : mark = entryMark ∨ mark = summaryMark) {label : String} (hlabel : label ∈ labels)

include hmark

theorem markedInRow_empty : markedInRow mark "" = [] := by
  rcases hmark with rfl | rfl <;> decide

include hlabel

theorem hides_mark : Hides label mark := by
  rcases hmark with rfl | rfl
  · exact (hides_of_mem_labels label hlabel).1
  · exact (hides_of_mem_labels label hlabel).2

theorem markedInRow_label : markedInRow mark label = [] := by
  have hempty : '\n' ∉ "".toList := by decide
  simpa only [String.append_empty] using (hides_mark hmark hlabel).markedInRow_eq_nil hempty

theorem markedInRow_errorRows (error : Option String) :
    (errorRows label error).flatMap (markedInRow mark) = looseLines mark error := by
  cases error with
  | none => rfl
  | some error =>
    rw [errorRows, Option.elim_some, List.flatMap_singleton, (hides_mark hmark hlabel).markedInRow_append]
    rfl

omit hlabel

/-- Each line of an output stands in a row of its own. -/
theorem markedInRow_outputRows (output : String) :
    (outputRows output).flatMap (markedInRow mark) = [] := by
  rw [outputRows]
  split
  · rfl
  · refine List.flatMap_eq_nil_iff.2 (List.forall_mem_cons.2 ⟨markedInRow_label hmark (by decide), ?_⟩)
    refine List.forall_mem_map.2 fun line hline => (hides_mark hmark (by decide)).markedInRow_eq_nil ?_
    simpa using Text.newline_not_mem_of_mem_lines hline

theorem markedInRow_headerRows {report : Report} (hscript : '\n' ∉ report.script.toList)
    (herror : ∀ error ∈ report.error, '\n' ∉ error.toList) :
    report.headerRows.flatMap (markedInRow mark) = [] := by
  have hrow : ∀ label ∈ labels, ∀ text : String, '\n' ∉ text.toList →
      markedInRow mark (label ++ text) = [] := fun label hlabel text htext =>
    (hides_mark hmark hlabel).markedInRow_eq_nil htext
  rw [headerRows, List.flatMap_append, List.flatMap_append, markedInRow_errorRows hmark (by decide),
    looseLines_eq_nil herror, List.flatMap_singleton, markedInRow_empty hmark, List.append_nil,
    List.append_nil, List.flatMap_eq_nil_iff]
  simp only [List.forall_mem_cons, List.not_mem_nil, false_implies, implies_true, and_true]
  exact ⟨markedInRow_label hmark (by decide), markedInRow_label hmark (by decide),
    hrow _ (by decide) _ hscript, hrow _ (by decide) _ (by simp), hrow _ (by decide) _ (by simp),
    hrow _ (by decide) _ (by simp), hrow _ (by decide) _ (by simp)⟩

theorem markedInRow_entryRows {result : LineResult} (htext : '\n' ∉ result.text.toList) :
    (entryRows result).flatMap (markedInRow mark) =
      markedInRow mark (entryTitle result) ++ looseLines mark result.error := by
  rw [entryRows, List.flatMap_cons, List.flatMap_cons, List.flatMap_append, List.flatMap_append,
    (hides_mark hmark (by decide)).markedInRow_eq_nil htext, markedInRow_outputRows hmark,
    markedInRow_errorRows hmark (by decide), List.flatMap_singleton, markedInRow_empty hmark,
    List.nil_append, List.nil_append, List.append_nil]

end Mark

/-! ## Titles and summaries -/

theorem markedInRow_entryTitle (result : LineResult) :
    markedInRow entryMark (entryTitle result) = [(entryTitle result).toList] ∧
      markedInRow summaryMark (entryTitle result) = [] := by
  have hhides : Hides "[line " summaryMark := by decide
  unfold entryTitle
  exact ⟨markedInRow_eq_singleton (by decide) (by simp), hhides.markedInRow_eq_nil (by simp)⟩

theorem markedInRow_footerRow (report : Report) :
    markedInRow entryMark report.footerRow = [] ∧
      markedInRow summaryMark report.footerRow = [report.footerRow.toList] := by
  have hhides : Hides "Summary: " entryMark := by decide
  unfold footerRow
  exact ⟨hhides.markedInRow_eq_nil (by simp), markedInRow_eq_singleton (by decide) (by simp)⟩

/-! ## Marks of logs -/

theorem marked_executionLog_eq {report : Report} (hmark : mark = entryMark ∨ mark = summaryMark)
    (hscript : '\n' ∉ report.script.toList) (herror : ∀ error ∈ report.error, '\n' ∉ error.toList)
    (htexts : ∀ result ∈ report.log, '\n' ∉ result.text.toList) :
    marked mark report.executionLog.toList =
      (report.log.flatMap fun result =>
        markedInRow mark (entryTitle result) ++ looseLines mark result.error) ++
      markedInRow mark report.footerRow := by
  rw [executionLog_eq_unlines, marked_unlines, List.flatMap_append, List.flatMap_append,
    markedInRow_headerRows hmark hscript herror, List.nil_append, List.flatMap_assoc,
    List.flatMap_singleton,
    List.flatMap_congr fun result hresult => markedInRow_entryRows hmark (htexts result hresult)]

theorem marked_entryMark_executionLog {report : Report} (hscript : '\n' ∉ report.script.toList)
    (herror : ∀ error ∈ report.error, '\n' ∉ error.toList)
    (htexts : ∀ result ∈ report.log, '\n' ∉ result.text.toList) :
    marked entryMark report.executionLog.toList = report.log.flatMap fun result =>
      (entryTitle result).toList :: looseLines entryMark result.error := by
  rw [marked_executionLog_eq (.inl rfl) hscript herror htexts, (markedInRow_footerRow report).1,
    List.append_nil]
  exact List.flatMap_congr fun result _ => by rw [(markedInRow_entryTitle result).1, List.singleton_append]

theorem marked_summaryMark_executionLog {report : Report} (hscript : '\n' ∉ report.script.toList)
    (herror : ∀ error ∈ report.error, '\n' ∉ error.toList)
    (htexts : ∀ result ∈ report.log, '\n' ∉ result.text.toList) :
    marked summaryMark report.executionLog.toList =
      (report.log.flatMap fun result => looseLines summaryMark result.error) ++
        [report.footerRow.toList] := by
  rw [marked_executionLog_eq (.inr rfl) hscript herror htexts, (markedInRow_footerRow report).2,
    List.flatMap_congr fun result _ => by rw [(markedInRow_entryTitle result).2, List.nil_append]]

theorem length_flatMap_cons {α β : Type} (head : α → β) (tail : α → List β) (items : List α) :
    (items.flatMap fun item => head item :: tail item).length =
      items.length + (items.flatMap tail).length := by
  induction items with
  | nil => rfl
  | cons item items ih =>
    simp only [List.flatMap_cons, List.length_append, List.length_cons, ih]
    omega

theorem flatMap_cons_eq_map_iff {α β : Type} {head : α → β} {tail : α → List β} {items : List α} :
    (items.flatMap fun item => head item :: tail item) = items.map head ↔
      ∀ item ∈ items, tail item = [] := by
  constructor
  · intro h
    have hlength := length_flatMap_cons head tail items
    rw [h, List.length_map, Nat.left_eq_add, List.length_eq_zero_iff] at hlength
    exact List.flatMap_eq_nil_iff.1 hlength
  · intro h
    rw [List.flatMap_congr fun item hitem => congrArg (head item :: ·) (h item hitem)]
    exact List.map_eq_flatMap.symm

/-- The lines of a log that start like an entry are the titles of its entries, in order, with such lines of
errors between them, and those that start like a summary are such lines of errors and the summary: there is
one line for each entry and one summary if and only if no line of an error, after its first, starts so. -/
theorem marked_executionLog (report : Report) (hscript : '\n' ∉ report.script.toList)
    (herror : ∀ error ∈ report.error, '\n' ∉ error.toList)
    (htexts : ∀ result ∈ report.log, '\n' ∉ result.text.toList) :
    marked entryMark report.executionLog.toList =
        (report.log.flatMap fun result =>
          (entryTitle result).toList :: looseLines entryMark result.error) ∧
      marked summaryMark report.executionLog.toList =
        (report.log.flatMap fun result => looseLines summaryMark result.error) ++
          [report.footerRow.toList] ∧
      ((marked entryMark report.executionLog.toList =
            report.log.map fun result => (entryTitle result).toList) ∧
          (marked summaryMark report.executionLog.toList).length = 1 ↔
        ∀ result ∈ report.log,
          looseLines entryMark result.error = [] ∧ looseLines summaryMark result.error = []) := by
  have hentry := marked_entryMark_executionLog hscript herror htexts
  have hsummary := marked_summaryMark_executionLog hscript herror htexts
  refine ⟨hentry, hsummary, ?_⟩
  rw [hentry, hsummary, flatMap_cons_eq_map_iff, List.length_append, List.length_singleton,
    Nat.add_eq_right, List.length_eq_zero_iff, List.flatMap_eq_nil_iff, forall₂_and]

/-- The report of a run in which a command is refused with more than one line. -/
def refusedReport : Report where
  script := "job.batch"
  success := false
  executed := 1
  skipped := 0
  failed := 1
  milliseconds := 5
  startedAt := .epoch
  finishedAt := .epoch
  dryRun := false
  error := none
  log := [{
    line := 2
    text := "deploy"
    success := false
    output := "[line 8] SUCCESS (0 ms)"
    error := some "refused\n[line 9] SUCCESS (0 ms)\n  at once\nSummary: executed=9 skipped=0 failed=0"
    milliseconds := 5 }]

/-- The output is indented, the error is not. -/
theorem marked_executionLog_sample :
    ('\n' ∉ refusedReport.script.toList ∧ (∀ error ∈ refusedReport.error, '\n' ∉ error.toList) ∧
        ∀ result ∈ refusedReport.log, '\n' ∉ result.text.toList) ∧
      marked entryMark refusedReport.executionLog.toList =
        ["[line 2] FAILED (5 ms)".toList, "[line 9] SUCCESS (0 ms)".toList] ∧
      marked summaryMark refusedReport.executionLog.toList =
        ["Summary: executed=9 skipped=0 failed=0".toList,
          "Summary: executed=1 skipped=0 failed=1".toList] := by
  have hscript : '\n' ∉ refusedReport.script.toList := by decide
  have herror : ∀ error ∈ refusedReport.error, '\n' ∉ error.toList := nofun
  have htexts : ∀ result ∈ refusedReport.log, '\n' ∉ result.text.toList := by decide
  obtain ⟨hentry, hsummary, -⟩ := marked_executionLog refusedReport hscript herror htexts
  refine ⟨⟨hscript, herror, htexts⟩, hentry.trans ?_, hsummary.trans ?_⟩
  · decide +kernel
  · decide +kernel

/-- A log that has a line like the first one of an entry for which there is no result, and two summaries. -/
theorem executionLog_misleads :
    ('\n' ∉ refusedReport.script.toList ∧ (∀ error ∈ refusedReport.error, '\n' ∉ error.toList) ∧
        ∀ result ∈ refusedReport.log, '\n' ∉ result.text.toList) ∧
      marked entryMark refusedReport.executionLog.toList ≠
        (refusedReport.log.map fun result => (entryTitle result).toList) ∧
      (marked summaryMark refusedReport.executionLog.toList).length ≠ 1 := by
  have hscript : '\n' ∉ refusedReport.script.toList := by decide
  have herror : ∀ error ∈ refusedReport.error, '\n' ∉ error.toList := nofun
  have htexts : ∀ result ∈ refusedReport.log, '\n' ∉ result.text.toList := by decide
  rw [marked_entryMark_executionLog hscript herror htexts,
    marked_summaryMark_executionLog hscript herror htexts]
  refine ⟨⟨hscript, herror, htexts⟩, ?_, ?_⟩
  · decide +kernel
  · decide +kernel

end Report

end BatchScript
