import BatchScript.Proofs.Text.Blanks
import BatchScript.Variables
import Mathlib.Data.List.Induction

/-!
# Histories of variables

The variables after any sequence of writes, told from the writes alone. Three layers answer for a
name: the script scope, which an `unset` empties; what was exported, which nothing takes back; and
the variables of the process. A write whose name is no identifier is refused and changes nothing.

The main statement is `replay_history`. `Reflects` is the invariant behind it: it says of each layer
what the writes so far have made of it, and one write keeps it (`Reflects.concat`).
-/

namespace BatchScript

/-! ## Names in the process -/

/-- A name without an equals sign is looked up as it is. -/
theorem Environment.processValue?_of_not_mem {name : String} (h : '=' ∉ name.toList)
    (process : Bindings) : processValue? process name = process.get? name := by
  have hpieces : Text.pieces (· == '=') name.toList = [name.toList] :=
    Text.pieces_eq_singleton fun c hc => beq_eq_false_iff_ne.2 fun heq => h (heq ▸ hc)
  rw [processValue?, hpieces]

/-- The variables of a process from which names were exported in a scope. -/
def Scope.written (scope : Scope) (process exported : Bindings) : Bindings :=
  match scope with
  | .process => process.overlay exported
  | .isolated => process

namespace Variables

/-! ## Writes -/

/-- A call that writes to the variables. -/
inductive Write where
  | set (name value : String)
  | exported (name value : String)
  | unset (name : String)
deriving DecidableEq, Repr

namespace Write

/-- The variables after a write, or why it is refused. -/
def perform (vars : Variables) : Write → Except VariableFault Variables
  | .set name value => vars.set name value
  | .exported name value => vars.setExported name value
  | .unset name => .ok (vars.unset name)

/-- Whether a write is carried out: a name can be taken away whatever it is, but only an identifier
can be given a value. -/
def allowed : Write → Bool
  | .set name _ | .exported name _ => validName name
  | .unset _ => true

/-- The name that a write is about. -/
def name : Write → String
  | .set name _ | .exported name _ | .unset name => name

/-- What a write settles about a name: the value that it has from now on in the script scope, or
that it has none. A write about another name settles nothing. -/
def settles? (name : String) : Write → Option (Option String)
  | .set other value | .exported other value =>
    if name = other ∧ validName name then some (some value) else none
  | .unset other => if name = other then some none else none

/-- The value that a write exports under a name. -/
def exports? (name : String) : Write → Option String
  | .exported other value => if name = other ∧ validName name then some value else none
  | .set .. | .unset _ => none

end Write

/-- The variables after a write, which a refused write leaves as they are. -/
def after (vars : Variables) (write : Write) : Variables :=
  match write.perform vars with
  | .ok next => next
  | .error _ => vars

/-- The variables after writes. -/
def replay (vars : Variables) (history : List Write) : Variables :=
  history.foldl after vars

/-! ## What a history says about a name -/

/-- The value of the last write that gave the name one, unless the name was unset since. -/
def standing? (name : String) (history : List Write) : Option String :=
  (history.filterMap (Write.settles? name)).getLast?.join

/-- The value that the name was last exported with. -/
def lastExported? (name : String) (history : List Write) : Option String :=
  (history.filterMap (Write.exports? name)).getLast?

theorem standing?_concat (name : String) (history : List Write) (write : Write) :
    standing? name (history ++ [write]) =
      (write.settles? name).getD (standing? name history) := by
  rw [standing?, List.filterMap_append]
  cases h : write.settles? name with
  | none => simp [h, standing?]
  | some settled => simp [h]

theorem lastExported?_concat (name : String) (history : List Write) (write : Write) :
    lastExported? name (history ++ [write]) =
      (write.exports? name).or (lastExported? name history) := by
  rw [lastExported?, List.filterMap_append]
  cases h : write.exports? name with
  | none => simp [h, lastExported?]
  | some value => simp [h]

/-! ## What one write does -/

theorem Write.perform_eq_error_iff {vars : Variables} {write : Write} {fault : VariableFault} :
    write.perform vars = .error fault ↔
      write.allowed = false ∧ fault = .invalidName write.name := by
  cases write with
  | set name value =>
    cases h : validName name <;>
      simp [Write.perform, Write.allowed, Write.name, Variables.set, h, eq_comm]
  | exported name value =>
    cases h : validName name <;>
      simp [Write.perform, Write.allowed, Write.name, setExported, Variables.set, Except.map, h,
        eq_comm]
  | unset name => simp [Write.perform, Write.allowed]

theorem after_eq_getD (vars : Variables) (write : Write) :
    vars.after write = (write.perform vars).toOption.getD vars := by
  rw [after]
  cases write.perform vars <;> rfl

/-- A refused write changes nothing. -/
theorem after_of_refused {write : Write} (h : write.allowed = false) (vars : Variables) :
    vars.after write = vars := by
  rw [after, Write.perform_eq_error_iff.2 ⟨h, rfl⟩]

/-- A refused write says nothing about any name. -/
theorem Write.settles?_of_refused {write : Write} (h : write.allowed = false) (name : String) :
    write.settles? name = none ∧ write.exports? name = none := by
  cases write with
  | set other value =>
    exact ⟨if_neg fun ⟨heq, hname⟩ => Bool.false_ne_true (h.symm.trans (heq ▸ hname)), rfl⟩
  | exported other value =>
    have hnot : ¬(name = other ∧ validName name = true) := fun ⟨heq, hname⟩ =>
      Bool.false_ne_true (h.symm.trans (heq ▸ hname))
    exact ⟨if_neg hnot, if_neg hnot⟩
  | unset other => exact absurd h (by simp [Write.allowed])

theorem get?_after_of_allowed {write : Write} (h : write.allowed = true) (vars : Variables)
    (name : String) :
    (vars.after write).script.get? name =
        (write.settles? name).getD (vars.script.get? name) ∧
      (vars.after write).environment.exported.get? name =
        (write.exports? name).or (vars.environment.exported.get? name) := by
  cases write with
  | set other value =>
    have hother : validName other = true := h
    by_cases hn : name = other
    · subst hn
      simp [after, Write.perform, Variables.set, hother, Write.settles?, Write.exports?,
        Bindings.get?_insert]
    · simp [after, Write.perform, Variables.set, hother, Write.settles?, Write.exports?,
        Bindings.get?_insert, hn]
  | exported other value =>
    have hother : validName other = true := h
    by_cases hn : name = other
    · subst hn
      simp [after, Write.perform, setExported, Variables.set, Except.map, Environment.insert, hother,
        Write.settles?, Write.exports?, Bindings.get?_insert]
    · simp [after, Write.perform, setExported, Variables.set, Except.map, Environment.insert, hother,
        Write.settles?, Write.exports?, Bindings.get?_insert, hn]
  | unset other =>
    by_cases hn : name = other <;>
      simp [after, Write.perform, unset, Write.settles?, Write.exports?, Bindings.get?_erase, hn]

/-- What a write makes of the script scope and of the exports. -/
theorem get?_after (vars : Variables) (write : Write) (name : String) :
    (vars.after write).script.get? name =
        (write.settles? name).getD (vars.script.get? name) ∧
      (vars.after write).environment.exported.get? name =
        (write.exports? name).or (vars.environment.exported.get? name) := by
  cases h : write.allowed with
  | true => exact get?_after_of_allowed h vars name
  | false =>
    obtain ⟨hsettles, hexports⟩ := Write.settles?_of_refused h name
    rw [after_of_refused h, hsettles, hexports]
    exact ⟨rfl, rfl⟩

/-- An export is written to the process exactly in process scope. -/
theorem written_after {vars : Variables} {process : Bindings}
    (h : vars.environment.process =
      vars.environment.scope.written process vars.environment.exported) (write : Write) :
    (vars.after write).environment.scope = vars.environment.scope ∧
      (vars.after write).environment.process =
        vars.environment.scope.written process (vars.after write).environment.exported := by
  cases hallowed : write.allowed with
  | false =>
    rw [after_of_refused hallowed]
    exact ⟨rfl, h⟩
  | true =>
    cases write with
    | set name value =>
      have hname : validName name = true := hallowed
      simpa [after, Write.perform, Variables.set, hname] using h
    | unset name => exact ⟨rfl, h⟩
    | exported name value =>
      have hname : validName name = true := hallowed
      have hafter : (vars.after (.exported name value)).environment =
          vars.environment.insert name value := by
        simp [after, Write.perform, setExported, Variables.set, Except.map, hname]
      rw [hafter]
      refine ⟨rfl, ?_⟩
      cases hscope : vars.environment.scope with
      | isolated => simpa [Environment.insert, hscope, Scope.written] using h
      | process =>
        simp [Environment.insert, hscope, h, Scope.written, Bindings.overlay_insert]

/-- Refused writes can be left out. -/
theorem replay_filter_allowed (vars : Variables) (history : List Write) :
    vars.replay history = vars.replay (history.filter Write.allowed) := by
  induction history generalizing vars with
  | nil => rfl
  | cons write rest ih =>
    cases h : write.allowed with
    | true =>
      rw [List.filter_cons_of_pos h]
      exact ih (vars.after write)
    | false =>
      rw [List.filter_cons_of_neg (by simp [h]), replay, List.foldl_cons, after_of_refused h]
      exact ih vars

/-! ## The invariant -/

/-- Each layer of the variables is what the writes so far have made of it. -/
structure Reflects (scope : Scope) (process : Bindings) (history : List Write)
    (vars : Variables) : Prop where
  scope_eq : vars.environment.scope = scope
  script : ∀ name, vars.script.get? name = standing? name history
  exported : ∀ name, vars.environment.exported.get? name = lastExported? name history
  process_eq : vars.environment.process = scope.written process vars.environment.exported

theorem Reflects.concat {scope : Scope} {process : Bindings} {history : List Write}
    {vars : Variables} (h : Reflects scope process history vars) (write : Write) :
    Reflects scope process (history ++ [write]) (vars.after write) := by
  obtain ⟨rfl, hscript, hexported, hprocess⟩ := h
  obtain ⟨hscope, hwritten⟩ := written_after hprocess write
  refine ⟨hscope, fun name => ?_, fun name => ?_, hwritten⟩
  · rw [(get?_after vars write name).1, hscript, standing?_concat]
  · rw [(get?_after vars write name).2, hexported, lastExported?_concat]

/-- The invariant holds after every history of fresh variables. -/
theorem reflects_replay (scope : Scope) (process : Bindings) (history : List Write) :
    Reflects scope process history
      ((ofEnvironment (.ofProcess scope process)).replay history) := by
  induction history using List.reverseRecOn with
  | nil =>
    refine ⟨rfl, fun _ => rfl, fun _ => rfl, ?_⟩
    cases scope <;> rfl
  | append_singleton history write ih =>
    rw [replay, List.foldl_append]
    exact ih.concat write

/-- Only identifiers are settled with a value. -/
theorem validName_of_standing? {name value : String} {history : List Write}
    (h : standing? name history = some value) : validName name = true := by
  rw [standing?, Option.join_eq_some_iff] at h
  obtain ⟨write, -, hwrite⟩ := List.mem_filterMap.1 (List.mem_of_getLast? h)
  cases write with
  | set other value' | exported other value' =>
    rw [Write.settles?] at hwrite
    exact (Option.ite_none_right_eq_some.1 hwrite).1.2
  | unset other =>
    rw [Write.settles?] at hwrite
    exact absurd (Option.ite_none_right_eq_some.1 hwrite).2 (by simp)

/-- The variables of the process answer for a name that was not exported as they did at the start,
unless the name holds an equals sign: then the text of another variable can begin with it. -/
theorem processValue?_written {scope : Scope} {process exported : Bindings} {name : String}
    (h : exported.get? name = none) :
    Environment.processValue? (scope.written process exported) name =
      Environment.processValue?
        (if '=' ∈ name.toList then scope.written process exported else process) name := by
  split
  · rfl
  next hname =>
    rw [Environment.processValue?_of_not_mem hname, Environment.processValue?_of_not_mem hname]
    cases scope with
    | isolated => rfl
    | process => rw [Scope.written, Bindings.get?_overlay, h, Option.none_or]

/-! ## Whole histories -/

/-- The variables after any history of writes on fresh variables over a process. A name has the
value that stands in the script scope, else the value it was last exported with, else its value in
the process, else the default. The exports are the names that were exported, each with its last
value, and they are written over the variables of the process in process scope only. The script
scope holds the standing values of identifiers, in ascending order. A write is refused exactly when
it gives a value to a name that is no identifier, and the history without the refused writes
leaves the same variables.

A name that holds an equals sign is no identifier, but it can be asked for. In process scope it is
looked up in the process as the exports have left it, since the text of an exported variable can
begin with such a name. -/
theorem replay_history (scope : Scope) (process : Bindings) (history : List Write) :
    let vars := (ofEnvironment (.ofProcess scope process)).replay history
    let left := scope.written process vars.environment.exported
    (∀ name default, vars.get name default =
      ((standing? name history).or ((lastExported? name history).or
        (Environment.processValue? (if '=' ∈ name.toList then left else process) name))).getD
          default) ∧
    (∀ name, vars.environment.exported.get? name = lastExported? name history) ∧
    vars.environment.process = left ∧
    Ascending vars.script.toList ∧
    (∀ name value, (name, value) ∈ vars.script.toList ↔ standing? name history = some value) ∧
    (∀ pair ∈ vars.script.toList, validName pair.1 = true) ∧
    (∀ vars' write fault, Write.perform vars' write = .error fault ↔
      write.allowed = false ∧ fault = .invalidName write.name) ∧
    vars = (ofEnvironment (.ofProcess scope process)).replay (history.filter Write.allowed) := by
  intro vars left
  have h : Reflects scope process history vars := reflects_replay scope process history
  have hmem : ∀ name value,
      (name, value) ∈ vars.script.toList ↔ standing? name history = some value := by
    intro name value
    rw [← Bindings.valueIn_eq_some_iff vars.script.ascending, ← h.script name]
    rfl
  refine ⟨fun name default => ?_, h.exported, h.process_eq, vars.script.ascending, hmem,
    fun pair hpair => validName_of_standing? ((hmem pair.1 pair.2).1 hpair),
    fun _ _ _ => Write.perform_eq_error_iff, replay_filter_allowed _ _⟩
  rw [Variables.get, h.script]
  cases standing? name history with
  | some value => rfl
  | none =>
    rw [Environment.get?, h.exported]
    cases hexported : lastExported? name history with
    | some value => rfl
    | none =>
      rw [h.process_eq, processValue?_written ((h.exported name).trans hexported)]
      rfl

/-- In process scope a name with an equals sign can get a value from an export of another name. -/
theorem get_within_export :
    let history := [Write.exported "A" "B=C"]
    let vars := (ofEnvironment (.ofProcess .process .empty)).replay history
    vars.get "A=B" "d" = "C" ∧
      ((standing? "A=B" history).or ((lastExported? "A=B" history).or
        (Environment.processValue? .empty "A=B"))).getD "d" = "d" := by
  decide +kernel

end Variables

end BatchScript
