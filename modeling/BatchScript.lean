import BatchScript.Bindings
import BatchScript.Block.Cut
import BatchScript.Block.Kind
import BatchScript.Block.Span
import BatchScript.Command
import BatchScript.CommandLine.Arguments
import BatchScript.CommandLine.Execution
import BatchScript.CommandLine.Reader
import BatchScript.Condition
import BatchScript.Directive
import BatchScript.Environment
import BatchScript.Execution.Block
import BatchScript.Execution.Run
import BatchScript.Execution.Segment
import BatchScript.Execution.Step
import BatchScript.Explanation
import BatchScript.Fault
import BatchScript.FileSystem
import BatchScript.ItemList
import BatchScript.Json.Reader
import BatchScript.Json.Value
import BatchScript.Line
import BatchScript.LineResult
import BatchScript.Main
import BatchScript.Number.Binary64
import BatchScript.Number.Decimal
import BatchScript.Number.Shortest
import BatchScript.Preview
import BatchScript.Process.Basic
import BatchScript.Process.Escape
import BatchScript.Process.Launch
import BatchScript.Process.Printf
import BatchScript.Process.Programs
import BatchScript.Process.Search
import BatchScript.Proofs.Block.Balance
import BatchScript.Proofs.Block.Bodies
import BatchScript.Proofs.Block.Check
import BatchScript.Proofs.Block.Closing
import BatchScript.Proofs.Block.Coherence
import BatchScript.Proofs.Block.Enclosing
import BatchScript.Proofs.Block.Grammar
import BatchScript.Proofs.Block.Matching
import BatchScript.Proofs.Block.Outline
import BatchScript.Proofs.Block.Reading
import BatchScript.Proofs.Block.Segments
import BatchScript.Proofs.Block.Slice
import BatchScript.Proofs.Block.Tree
import BatchScript.Proofs.Condition.Comparisons
import BatchScript.Proofs.Condition.Dependence
import BatchScript.Proofs.Condition.Equality
import BatchScript.Proofs.Condition.Logic
import BatchScript.Proofs.Condition.Operands
import BatchScript.Proofs.Condition.Reading
import BatchScript.Proofs.Execution.Aborts
import BatchScript.Proofs.Execution.Accounts
import BatchScript.Proofs.Execution.Activations
import BatchScript.Proofs.Execution.Agreement
import BatchScript.Proofs.Execution.Attempts
import BatchScript.Proofs.Execution.Bookkeeping
import BatchScript.Proofs.Execution.Completion
import BatchScript.Proofs.Execution.Composition
import BatchScript.Proofs.Execution.Crashes
import BatchScript.Proofs.Execution.Descent
import BatchScript.Proofs.Execution.Exits
import BatchScript.Proofs.Execution.Iterations
import BatchScript.Proofs.Execution.Journal
import BatchScript.Proofs.Execution.Laws
import BatchScript.Proofs.Execution.Listing
import BatchScript.Proofs.Execution.LoopLimit
import BatchScript.Proofs.Execution.Order
import BatchScript.Proofs.Execution.Previews
import BatchScript.Proofs.Execution.Printing
import BatchScript.Proofs.Execution.Promise
import BatchScript.Proofs.Execution.Ranges
import BatchScript.Proofs.Execution.Recording
import BatchScript.Proofs.Execution.Refusals
import BatchScript.Proofs.Execution.Reporting
import BatchScript.Proofs.Execution.Rounds
import BatchScript.Proofs.Execution.Simulation
import BatchScript.Proofs.Execution.Stops
import BatchScript.Proofs.Execution.Structured
import BatchScript.Proofs.Execution.Turns
import BatchScript.Proofs.ItemList.Encodings
import BatchScript.Proofs.Json.Arrays
import BatchScript.Proofs.Line.Commands
import BatchScript.Proofs.Line.Directives
import BatchScript.Proofs.Line.Endings
import BatchScript.Proofs.Report.Entries
import BatchScript.Proofs.Text.Blanks
import BatchScript.Proofs.Text.Lines
import BatchScript.Proofs.Text.Quotes
import BatchScript.Proofs.Text.ShellWords
import BatchScript.Proofs.Variables.References
import BatchScript.Proofs.Variables.Substitution
import BatchScript.Report.Basic
import BatchScript.Report.Document
import BatchScript.Report.ExecutionLog
import BatchScript.Report.Summary
import BatchScript.Runner
import BatchScript.Script
import BatchScript.Settings
import BatchScript.Shell.Arithmetic
import BatchScript.Shell.Builtin
import BatchScript.Shell.Command
import BatchScript.Shell.Evaluation
import BatchScript.Shell.Expansion
import BatchScript.Shell.State
import BatchScript.Shell.Word
import BatchScript.Text.Align
import BatchScript.Text.Blank
import BatchScript.Text.Lowercase
import BatchScript.Text.Quote
import BatchScript.Text.Reference
import BatchScript.Text.ShellWords
import BatchScript.Time.Instant
import BatchScript.Validation
import BatchScript.Variables
