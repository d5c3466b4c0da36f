import BatchScript.Execution.Block
import BatchScript.Text.Align

/-!
# Previews

A preview lists the lines that a script would run, with every reference resolved, and runs nothing.
Assignments are applied as the listing goes on, so later lines show the values they would see, but
nothing is exported. A loop variable has no value before the loop runs, so within a `@foreach` its
references, and those to the loop index, are listed as they are written.
-/

namespace BatchScript

/-- The variables so far, and the variables of the loops that are open, innermost first. -/
structure Preview where
  vars : Variables
  loops : List String := []

namespace Preview

/-- The names whose references stay as they are written. -/
def kept (preview : Preview) : List String :=
  preview.loops.flatMap fun var => [var, Interpreter.loopIndex]

/-- A text with its references resolved as far as they have values. -/
def resolve (preview : Preview) (text : String) : String :=
  .ofList (preview.vars.resolveExcept preview.kept text.toList)

/-- A directive as it is listed. -/
def directiveText (preview : Preview) (keyword body : String) : String :=
  match preview.resolve body with
  | "" => "@" ++ keyword
  | resolved => "@" ++ keyword ++ " " ++ resolved

/-- What a directive changes for the lines after it, and why it would fail. -/
def apply (preview : Preview) : Directive → Preview × Option VariableFault
  | .set name value | .exported name value =>
    match preview.vars.set name (preview.resolve value) with
    | .ok vars => ({ preview with vars }, none)
    | .error fault => (preview, some fault)
  | .unset name => ({ preview with vars := preview.vars.unset name }, none)
  | .opens (.foreach var _) => ({ preview with loops := var :: preview.loops }, none)
  | .closes .foreach => ({ preview with loops := preview.loops.tail }, none)
  | _ => (preview, none)

/-- The remark on a directive that would fail. -/
def remark (fault : VariableFault) : String :=
  "    [would fail: " ++ (Failure.variable fault).message ++ "]"

/-- The text of a line in the listing, and the preview after it. Blank lines and comments are not
listed. -/
def listLine (preview : Preview) (line : Line) : Option String × Preview :=
  match line.content with
  | .blank | .comment => (none, preview)
  | .command name args =>
    (some (Command.display (preview.resolve name) (args.map preview.resolve)), preview)
  | .directive keyword body =>
    let text := preview.directiveText keyword body
    match Directive.read keyword body with
    | .error _ => (some text, preview)
    | .ok directive =>
      let (next, fault) := preview.apply directive
      (some (text ++ fault.elim "" remark), next)

/-- An entry of a listing: the number of a line and its text. -/
def entry (line : Line) (text : String) : String :=
  Text.alignRight 4 (toString line.number) ++ ": " ++ text

/-- The listing of lines, and the variables after them. -/
def list (preview : Preview) : List Line → List String × Variables
  | [] => ([], preview.vars)
  | line :: rest =>
    let (text, next) := preview.listLine line
    let (entries, vars) := next.list rest
    ((text.map (entry line)).toList ++ entries, vars)

end Preview

end BatchScript
