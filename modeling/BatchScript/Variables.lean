import BatchScript.Environment
import BatchScript.Fault
import BatchScript.Text.Reference

/-!
# Variables

The variables of a script: one flat map shared by all blocks of a run, over the environment that
answers for the names the script has not set. Names must be identifiers. References in texts are
replaced by values, where a name without a value counts as empty.
-/

namespace BatchScript

/-- Script variables over an environment. -/
structure Variables where
  script : Bindings
  environment : Environment

namespace Variables

/-- Whether a name may be given a value. -/
def validName (name : String) : Bool :=
  Text.isIdentifier name.toList

/-- No script variables over an environment. -/
def ofEnvironment (environment : Environment) : Variables :=
  ⟨.empty, environment⟩

/-! ## Reading -/

/-- The value in the script scope only. -/
def lookup (vars : Variables) (name : String) : Option String :=
  vars.script.get? name

/-- Whether the script scope has the name. -/
def has (vars : Variables) (name : String) : Bool :=
  vars.script.contains name

/-- The value in the script scope, else in the environment, else `default`. -/
def get (vars : Variables) (name default : String) : String :=
  match vars.script.get? name with
  | some value => value
  | none => (vars.environment.get? name).getD default

/-! ## Writing -/

/-- Gives a name a value in the script scope. -/
def set (vars : Variables) (name value : String) : Except VariableFault Variables :=
  if validName name then .ok { vars with script := vars.script.insert name value }
  else .error (.invalidName name)

/-- Gives a name a value in the script scope and exports it. -/
def setExported (vars : Variables) (name value : String) : Except VariableFault Variables :=
  (vars.set name value).map fun vars =>
    { vars with environment := vars.environment.insert name value }

/-- Takes a name out of the script scope. -/
def unset (vars : Variables) (name : String) : Variables :=
  { vars with script := vars.script.erase name }

/-- Gives a name back the value it had in the script scope, or none. -/
def restore (vars : Variables) (name : String) : Option String → Variables
  | some value => { vars with script := vars.script.insert name value }
  | none => vars.unset name

/-! ## References -/

/-- Replaces the references of a text, except those to the names in `kept`. -/
def resolveExcept (vars : Variables) (kept : List String) (text : List Char) : List Char :=
  Text.substitute (fun name => if kept.contains name then none else some (vars.get name ""))
    text

/-- Replaces every reference of a text. -/
def resolve (vars : Variables) (text : List Char) : List Char :=
  vars.resolveExcept [] text

/-- Replaces every reference of a string. -/
def resolveString (vars : Variables) (text : String) : String :=
  .ofList (vars.resolve text.toList)

/-! ## Display -/

/-- The script variables as a table. -/
def display (vars : Variables) : String :=
  let rows := vars.script.toList.map fun (name, value) => s!"  {name} = {value}"
  Text.unlines (["Variables", "---------"] ++ if rows = [] then ["(none)"] else rows)

end Variables

end BatchScript
