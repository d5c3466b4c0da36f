import BatchScript.Block.Kind

/-!
# Faults

Everything that can go wrong with a script, by cause, and the wording of each cause. A malformed or
misplaced line is a `Fault`; a diagnostic reports one for a line, and a `Failure` is what a run or a
single line ends with. A `Crash` is not reported to a caller: it ends the program.
-/

namespace BatchScript

/-! ## Faults of lines -/

/-- What is wrong with a line, or suspicious about it. -/
inductive Fault where
  | untokenizable (text : String)
  | notADirective
  | missingKeyword
  | unknownDirective (keyword : String)
  | missingValue (keyword : String)
  | missingName (keyword : String)
  | unsetArity
  | unknownPolicy (text : String)
  | malformedForeach
  | missingCondition (keyword : String)
  | unexpectedArguments (keyword : String)
  | noSuchLine (index : Nat)
  | opensNothing (text : String)
  | unmatched (kind : BlockKind) (line : Nat)
  | unopened (kind : BlockKind)
  | misnested (closed : BlockKind) (still : BlockKind) (line : Nat)
  | outside (branch : Branch)
  | duplicate (branch : Branch)
  | wrongOrder (branch after : Branch)
  | nestedTooDeep (limit : Nat)
  | uncaught
deriving DecidableEq, Repr

/-- The article before the name of a kind. -/
def BlockKind.withArticle : BlockKind → String
  | .conditional => "an @if"
  | kind => "a " ++ kind.display

/-- The wording of a fault. -/
def Fault.message : Fault → String
  | .untokenizable text =>
    "could not tokenize command (unbalanced quotes?), line skipped: " ++ text
  | .notADirective => "not a directive line"
  | .missingKeyword => "missing directive name after '@'"
  | .unknownDirective keyword => s!"unknown directive '@{keyword}'"
  | .missingValue keyword => s!"@{keyword} expects NAME = value"
  | .missingName keyword => s!"@{keyword} is missing a variable name"
  | .unsetArity => "@unset expects exactly one variable name"
  | .unknownPolicy text => s!"@onerror expects 'continue' or 'abort', got '{text}'"
  | .malformedForeach => "@foreach expects VAR in <list>"
  | .missingCondition keyword => s!"@{keyword} requires a condition"
  | .unexpectedArguments keyword => s!"@{keyword} takes no arguments"
  | .noSuchLine index => s!"no line at index {index}"
  | .opensNothing text => s!"'{text}' does not open a block"
  | .unmatched kind line =>
    s!"unmatched {kind.display} on line {line}: no @{kind.terminator} found"
  | .unopened kind => s!"@{kind.terminator} without a matching {kind.display}"
  | .misnested closed still line =>
    s!"@{closed.terminator} found while {still.display} from line {line} is still open"
  | .outside branch => s!"@{branch.keyword} outside of {branch.kind.withArticle} block"
  | .duplicate branch => s!"duplicate @{branch.keyword}"
  | .wrongOrder branch earlier => s!"@{branch.keyword} after @{earlier.keyword}"
  | .nestedTooDeep limit => s!"Maximum nesting depth ({limit}) exceeded"
  | .uncaught => "@try without @catch: failures inside are not recovered"

/-! ## Diagnostics -/

/-- How serious a diagnostic is. -/
inductive Severity where
  | error
  | warning
deriving DecidableEq, Repr

/-- A fault that was found on a line. -/
structure Diagnostic where
  line : Nat
  severity : Severity
  fault : Fault
deriving DecidableEq, Repr

namespace Diagnostic

/-- The diagnostic of a fault that refuses the script. -/
def error (line : Nat) (fault : Fault) : Diagnostic :=
  ⟨line, .error, fault⟩

/-- The diagnostic of a fault that a script may have. -/
def warning (line : Nat) (fault : Fault) : Diagnostic :=
  ⟨line, .warning, fault⟩

/-- A diagnostic as it is printed. -/
def display (diagnostic : Diagnostic) : String :=
  let severity := match diagnostic.severity with
    | .error => "ERROR"
    | .warning => "WARNING"
  s!"{severity} (line {diagnostic.line}): {diagnostic.fault.message}"

end Diagnostic

/-! ## Failures -/

/-- Why a variable was refused. -/
inductive VariableFault where
  | invalidName (name : String)
  | invalidLoopName (name : String)
  | invalidUnset (name : String)
deriving DecidableEq, Repr

/-- The wording of a refused variable. -/
def VariableFault.message : VariableFault → String
  | .invalidName name =>
    s!"invalid variable name '{name}': must match [A-Za-z_][A-Za-z0-9_]*"
  | .invalidLoopName name => s!"invalid loop variable name '{name}'"
  | .invalidUnset name => s!"invalid variable name '{name}'"

/-- Why a condition or a loop could not be evaluated. -/
inductive EvaluationFault where
  | malformedExists (text : String)
  | nonNumeric (operator left right : String)
  | loopLimit (limit : Nat)
deriving DecidableEq, Repr

/-- The wording of a failed evaluation. -/
def EvaluationFault.message : EvaluationFault → String
  | .malformedExists text => s!"exists() expects a single quoted path, got: {text}"
  | .nonNumeric operator left right =>
    s!"operator '{operator}' needs numeric operands, got '{left}' and '{right}'"
  | .loopLimit limit => s!"@while loop exceeded {limit} iterations"

/-- Why a file or a program could not be used. -/
inductive IoFault where
  | notFound
  | permissionDenied
  | alreadyExists
  | notADirectory
  | isADirectory
  | nameTooLong
  | invalidUtf8
  | nulInPath
  | nulInCommand
  | noScript (path : String)
deriving DecidableEq, Repr

/-- The reason for a file fault, and its number if the system has one for it. -/
def IoFault.reason : IoFault → String × Option Nat
  | .notFound => ("No such file or directory", some 2)
  | .permissionDenied => ("Permission denied", some 13)
  | .alreadyExists => ("File exists", some 17)
  | .notADirectory => ("Not a directory", some 20)
  | .isADirectory => ("Is a directory", some 21)
  | .nameTooLong => ("File name too long", some 36)
  | .invalidUtf8 => ("stream did not contain valid UTF-8", none)
  | .nulInPath => ("file name contained an unexpected NUL byte", none)
  | .nulInCommand => ("nul byte found in provided data", none)
  | .noScript path => ("script not found: " ++ path, none)

/-- The wording of a file fault. -/
def IoFault.message (fault : IoFault) : String :=
  match fault.reason with
  | (text, some number) => s!"{text} (os error {number})"
  | (text, none) => text

/-- A variable that the process was to be given and did not take, which ends the program. -/
structure Crash where
  name : String
  value : String
deriving DecidableEq, Repr

/-- The wording of a crash, without the value and the reason. -/
def Crash.message (crash : Crash) : String :=
  s!"failed to set environment variable {crash.name}"

/-- What a run, or a line of it, can end with. A crash stands where a failure would, but there is
nobody left to handle it. -/
inductive Failure where
  | parse (line : Nat) (fault : Fault)
  | evaluation (fault : EvaluationFault)
  | variable (fault : VariableFault)
  | blankCommand (text : String)
  | io (fault : IoFault)
  | crash (crash : Crash)
deriving DecidableEq, Repr

/-- A failure as it is reported. -/
def Failure.message : Failure → String
  | .parse line fault => s!"Parse error (line {line}): {fault.message}"
  | .evaluation fault => "Evaluation error: " ++ fault.message
  | .variable fault => "Variable error: " ++ fault.message
  | .blankCommand text => "Command error: command name resolved to nothing: " ++ text
  | .io fault => "IO error: " ++ fault.message
  | .crash refused => refused.message

end BatchScript
