import BatchScript.Directive
import BatchScript.Script

/-!
# Validation

A script is checked before any of its lines runs. Its directives must be well formed, and the blocks
they open must be closed in the opposite order, with their markers in place and in order, and nested
no deeper than allowed. A `@try` without a `@catch` is worth a warning. The check keeps the blocks
that are open, innermost first, and goes on after a fault, so that it reports all of them.
-/

namespace BatchScript

/-- What a script is checked against. -/
structure Limits where
  maxNestingDepth : Nat := 32
  warnUncaughtTry : Bool := true
deriving DecidableEq, Repr

/-- A block that is open: the line that opened it, and the markers it has had. -/
structure OpenBlock where
  kind : BlockKind
  line : Nat
  seen : List Branch := []
deriving DecidableEq, Repr

namespace Validation

/-- The fault of a marker in a block of its kind that has had other markers. -/
def markerFault? (seen : List Branch) : Branch → Option Fault
  | .elif => if seen.contains .otherwise then some (.wrongOrder .elif .otherwise) else none
  | .otherwise => if seen.contains .otherwise then some (.duplicate .otherwise) else none
  | .catch =>
    if seen.contains .finally then some (.wrongOrder .catch .finally)
    else if seen.contains .catch then some (.duplicate .catch)
    else none
  | .finally => if seen.contains .finally then some (.duplicate .finally) else none

/-! ## Steps -/

/-- Blocks that are open, innermost first, and what has been found, in order. -/
structure Progress where
  blocks : List OpenBlock
  found : List Diagnostic

/-- Opens a block. A block that is nested too deep is opened all the same. -/
def openBlock (limits : Limits) (kind : BlockKind) (line : Nat) (blocks : List OpenBlock) :
    Progress where
  blocks := ⟨kind, line, []⟩ :: blocks
  found :=
    if limits.maxNestingDepth ≤ blocks.length then
      [.error line (.nestedTooDeep limits.maxNestingDepth)]
    else []

/-- Divides the innermost block. -/
def divideBlock (branch : Branch) (line : Nat) (blocks : List OpenBlock) : Progress :=
  match blocks with
  | [] => ⟨[], [.error line (.outside branch)]⟩
  | top :: outer =>
    if top.kind = branch.kind then
      match markerFault? top.seen branch with
      | some fault => ⟨blocks, [.error line fault]⟩
      | none => ⟨{ top with seen := branch :: top.seen } :: outer, []⟩
    else ⟨blocks, [.error line (.outside branch)]⟩

/-- Closes the innermost block. A terminator of another kind closes nothing. -/
def closeBlock (limits : Limits) (kind : BlockKind) (line : Nat) (blocks : List OpenBlock) :
    Progress :=
  match blocks with
  | [] => ⟨[], [.error line (.unopened kind)]⟩
  | top :: outer =>
    if top.kind = kind then
      ⟨outer,
        if kind = .attempt && limits.warnUncaughtTry && !top.seen.contains .catch then
          [.warning top.line .uncaught]
        else []⟩
    else ⟨blocks, [.error line (.misnested kind top.kind top.line)]⟩

/-- Takes the part that a role asks for. -/
def step (limits : Limits) (role : Role) (line : Nat) (blocks : List OpenBlock) : Progress :=
  match role with
  | .plain => ⟨blocks, []⟩
  | .opens kind => openBlock limits kind line blocks
  | .divides branch => divideBlock branch line blocks
  | .closes kind => closeBlock limits kind line blocks

/-- Checks one line. A malformed directive leaves the open blocks alone. -/
def checkLine (limits : Limits) (line : Line) (blocks : List OpenBlock) : Progress :=
  match line.content with
  | .directive keyword body =>
    match Directive.read keyword body with
    | .error fault => ⟨blocks, [.error line.number fault]⟩
    | .ok directive => step limits directive.role line.number blocks
  | _ => ⟨blocks, []⟩

/-- Checks lines one after the other. Blocks that are still open at the end were never closed. -/
def checkLines (limits : Limits) (blocks : List OpenBlock) : List Line → List Diagnostic
  | [] => blocks.reverse.map fun block => .error block.line (.unmatched block.kind block.line)
  | line :: rest =>
    let next := checkLine limits line blocks
    next.found ++ checkLines limits next.blocks rest

end Validation

namespace Script

/-- Everything that reading and checking a script report, by line. -/
def validate (script : Script) (limits : Limits) : List Diagnostic :=
  (script.diagnostics ++ Validation.checkLines limits [] script.lines).mergeSort
    fun first second => first.line ≤ second.line

/-- Whether some diagnostic refuses the script. -/
def hasErrors (diagnostics : List Diagnostic) : Bool :=
  diagnostics.any (·.severity = .error)

/-- Whether some diagnostic is only a warning. -/
def hasWarnings (diagnostics : List Diagnostic) : Bool :=
  diagnostics.any (·.severity = .warning)

/-- The warnings of a script that may run. Otherwise the first error is the failure. -/
def ensureValid (script : Script) (limits : Limits) : Except Failure (List Diagnostic) :=
  let diagnostics := script.validate limits
  match diagnostics.find? (·.severity = .error) with
  | some first => .error (.parse first.line first.fault)
  | none => .ok diagnostics

end Script

end BatchScript
