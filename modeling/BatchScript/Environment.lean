import BatchScript.Bindings
import BatchScript.Fault
import BatchScript.Text.Quote

/-!
# Environment

The environment a script sees: the variables of the process it runs in, under the variables that the
script has exported. In process scope an export is also written to the process; in isolated scope it
stays in the environment value, where dispatched commands still see it.

A process takes no variable with a NUL in it, and writing one ends the program. The environment keeps
note of that: it records the export all the same, but once it has crashed there is no program left to
look at what is recorded.
-/

namespace BatchScript

/-- Where exports land. -/
inductive Scope where
  | process
  | isolated
deriving DecidableEq, Repr

/-- Exported variables over the variables of the process, and the first write that the process has
not taken, if there is one. -/
structure Environment where
  scope : Scope
  exported : Bindings
  process : Bindings
  crash : Option Crash := none

namespace Environment

/-- An environment from which nothing has been exported. -/
def ofProcess (scope : Scope) (process : Bindings) : Environment :=
  { scope, exported := .empty, process }

/-- The value of a name among the variables of a process. These are kept as texts `NAME=VALUE`, and
a name is found at the text that it and an equals sign begin. -/
def processValue? (process : Bindings) (name : String) : Option String :=
  match Text.pieces (· == '=') name.toList with
  | key :: first :: rest =>
    let tail := joinFields first rest ++ ['=']
    (process.get? (.ofList key)).bind fun value =>
      (Text.after? tail value.toList).map String.ofList
  | _ => process.get? name
where
  /-- The pieces of a text with the equals signs between them. -/
  joinFields (first : List Char) : List (List Char) → List Char
    | [] => first
    | second :: rest => first ++ '=' :: joinFields second rest

/-- The value of a name: exports win over the variables of the process. -/
def get? (environment : Environment) (name : String) : Option String :=
  match environment.exported.get? name with
  | some value => some value
  | none => processValue? environment.process name

/-- Whether a process takes a variable: its name must not be empty or hold an equals sign, and
neither the name nor the value may hold a NUL. -/
def writable (name value : String) : Bool :=
  name != "" && name.toList.all (fun c => c != '=' && c != '\x00') &&
    value.toList.all (· != '\x00')

/-- The crash that an export would be. -/
def crashOf? (scope : Scope) (name value : String) : Option Crash :=
  match scope with
  | .process => if writable name value then none else some ⟨name, value⟩
  | .isolated => none

/-- Records an export, and writes it to the process in process scope. A write that the process does
not take is a crash. -/
def insert (environment : Environment) (name value : String) : Environment :=
  { environment with
    exported := environment.exported.insert name value
    process :=
      match environment.scope with
      | .process => environment.process.insert name value
      | .isolated => environment.process
    crash := environment.crash.or (crashOf? environment.scope name value) }

/-- The variables a dispatched command is started with. -/
def forCommand (environment : Environment) : Bindings :=
  environment.process.overlay environment.exported

end Environment

end BatchScript
