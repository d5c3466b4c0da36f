import BatchScript.Preview
import BatchScript.Proofs.Execution.Recording
import BatchScript.Proofs.Variables.References

/-!
# Listings and runs

A listing and a run of the same lines resolve references against different variables: a listing
gives an exported name its value in the script scope only. The two part ways at one place. A name
that was exported and then unset is withdrawn (`Withdrawn`): a run still finds its exported value in
the environment, a listing does not. Everywhere else they agree (`Agrees`), so every command that is
run is listed as it is dispatched, if neither its line nor a line before it refers to a withdrawn
name (`run_listed`).

The lines here play no part in the block structure. The k-th of them that is no blank line or comment
gives the k-th entry of the listing and the k-th result of the run.
-/

namespace BatchScript

open Variables

variable {σ : Type}

/-! ## What a line writes and refers to -/

namespace Line

/-- The write of a directive line, with its value as it is written. A name to unset that is no
identifier is refused. -/
def write? (line : Line) : Option Write :=
  match Directive.ofLine line with
  | .ok (.set name value) => some (.set name value)
  | .ok (.exported name value) => some (.exported name value)
  | .ok (.unset name) => if validName name then some (.unset name) else none
  | _ => none

/-- The texts that a line resolves: the words of a command, or the value of an assignment. -/
def texts (line : Line) : List String :=
  match line.content, line.write? with
  | .command name args, _ => name :: args
  | _, some (.set _ value) | _, some (.exported _ value) => [value]
  | _, _ => []

theorem mem_texts_of_write? {line : Line} {name value : String}
    (h : line.write? = some (.set name value) ∨ line.write? = some (.exported name value)) :
    value ∈ line.texts := by
  obtain ⟨number, raw, content⟩ := line
  cases content with
  | blank | comment | command => rcases h with h | h <;> cases h
  | directive keyword body => rcases h with h | h <;> simp [texts, h]

/-- The names that the texts of a line refer to. -/
def references (line : Line) : List String :=
  line.texts.flatMap fun text => Text.references text.toList

end Line

/-- The names that lines have exported and then unset, without a new value since. -/
def Withdrawn (name : String) (lines : List Line) : Prop :=
  standing? name (lines.filterMap Line.write?) = none ∧
    lastExported? name (lines.filterMap Line.write?) ≠ none

/-- No line refers to a name that the lines before it have left withdrawn. -/
def AvoidsWithdrawn (lines : List Line) : Prop :=
  ∀ front line, front ++ [line] <+: lines → ∀ name ∈ line.references, ¬ Withdrawn name front

instance (name : String) (lines : List Line) : Decidable (Withdrawn name lines) :=
  inferInstanceAs (Decidable (_ ∧ _))

instance (lines : List Line) : Decidable (AvoidsWithdrawn lines) :=
  decidable_of_iff (∀ n < lines.length, ∀ line ∈ lines[n]?, ∀ name ∈ line.references,
    ¬ Withdrawn name (lines.take n)) <| by
    constructor
    · rintro h front line ⟨back, rfl⟩
      have hlength : front.length < (front ++ [line] ++ back).length := by simp
      simpa using h front.length hlength line (by simp)
    · intro h n hn line hline
      have htake : lines.take (n + 1) = lines.take n ++ [line] := by
        rw [List.take_add_one, Option.mem_def.1 hline]
        rfl
      exact h _ line (htake ▸ List.take_prefix _ _)

theorem AvoidsWithdrawn.of_append {front back : List Line} (h : AvoidsWithdrawn (front ++ back)) :
    AvoidsWithdrawn front :=
  fun first line hfront => h first line (hfront.trans (List.prefix_append front back))

theorem AvoidsWithdrawn.last {front : List Line} {line : Line}
    (h : AvoidsWithdrawn (front ++ [line])) : ∀ name ∈ line.references, ¬ Withdrawn name front :=
  h front line (List.prefix_refl _)

/-! ## Variables of a run and of a listing -/

/-- The variables after a line that writes: the value is resolved by the variables before it. -/
def Variables.afterLine (vars : Variables) (line : Line) : Variables :=
  line.write?.elim vars fun write => vars.after (write.mapValue vars.resolveString)

/-- The variables of a run and of a listing that have passed the same lines. -/
structure Agrees (passed : List Line) (ran listed : Variables) : Prop where
  /-- The script scopes agree on identifiers. -/
  script : ∀ name, validName name = true → ran.script.get? name = listed.script.get? name
  /-- The environments agree on the identifiers that were not exported. -/
  environment : ∀ name, validName name = true →
    lastExported? name (passed.filterMap Line.write?) = none →
    ran.environment.get? name = listed.environment.get? name
  /-- What stands is in the script scope. -/
  standing : ∀ name, standing? name (passed.filterMap Line.write?) ≠ none →
    ran.script.get? name ≠ none

theorem Agrees.refl (vars : Variables) : Agrees [] vars vars :=
  ⟨fun _ _ => rfl, fun _ _ _ => rfl, fun _ h => absurd rfl h⟩

/-- A name that is not withdrawn has the same value in both. -/
theorem Agrees.get_eq {passed : List Line} {ran listed : Variables} (h : Agrees passed ran listed)
    {name : String} (hname : validName name = true) (hwithdrawn : ¬ Withdrawn name passed)
    (default : String) : ran.get name default = listed.get name default := by
  rw [Variables.get, Variables.get, ← h.script name hname]
  cases hscript : ran.script.get? name with
  | some value => rfl
  | none =>
    have hstanding : standing? name (passed.filterMap Line.write?) = none :=
      Classical.not_not.1 fun hne => h.standing name hne hscript
    have hexported : lastExported? name (passed.filterMap Line.write?) = none :=
      Classical.not_not.1 fun hne => hwithdrawn ⟨hstanding, hne⟩
    simp only [h.environment name hname hexported]

theorem Agrees.resolveString_eq {passed : List Line} {ran listed : Variables}
    (h : Agrees passed ran listed) {line : Line}
    (hline : ∀ name ∈ line.references, ¬ Withdrawn name passed) {text : String}
    (htext : text ∈ line.texts) : ran.resolveString text = listed.resolveString text :=
  resolveString_congr fun name hname =>
    h.get_eq (validName_of_mem_references hname)
      (hline name (List.mem_flatMap.2 ⟨text, htext, hname⟩)) ""

/-! ## One line of a run -/

/-- What a line records: at most one result, and none if it is blank or a comment. A result has the
number of the line, and that of a command has the text of the command as the variables resolve it. -/
structure Line.Gives (line : Line) (vars : Variables) (new : List LineResult) : Prop where
  count : new.length ≤ [line].countP Line.isExecutable
  number : ∀ result ∈ new, result.line = line.number
  text : ∀ result ∈ new, ∀ name args, line.content = .command name args →
    result.text = Command.display (vars.resolveString name) (args.map vars.resolveString)

/-- The run records what the line gives, and if it does not fail, then it has recorded all of that and
has made the write of the line. -/
def Run.Passes (run : Run σ Bool) (line : Line) : Prop :=
  ∀ state, ∃ new, State.Records new state (run.apply state).2 ∧ line.Gives state.vars new ∧
    ∀ success, (run.apply state).1 = .ok success →
      new.length = [line].countP Line.isExecutable ∧
        (run.apply state).2.vars = state.vars.afterLine line

namespace Interpreter

variable (interpreter : Interpreter σ) {line : Line}

/-- A directive line gives one result of its own number. -/
theorem gives_of_directive {keyword body : String} (h : line.content = .directive keyword body)
    {result : LineResult} (hnumber : result.line = line.number) (vars : Variables) :
    line.Gives vars [result] := by
  refine ⟨?_, List.forall_mem_singleton.2 hnumber, fun _ _ name args hcommand => ?_⟩
  · simp [Line.isExecutable, h]
  · rw [h] at hcommand
    cases hcommand

theorem passes_command {name : String} {args : List String}
    (h : line.content = .command name args) : (interpreter.command line name args).Passes line := by
  intro state
  have hcount : [line].countP Line.isExecutable = 1 := by simp [Line.isExecutable, h]
  have hafter : state.vars.afterLine line = state.vars := by
    simp [Variables.afterLine, Line.write?, Directive.ofLine, h]
  have hgives : ∀ result : LineResult, result.line = line.number →
      result.text = Command.display (state.vars.resolveString name)
        (args.map state.vars.resolveString) → line.Gives state.vars [result] := by
    refine fun result hnumber htext => ⟨Nat.le_of_eq hcount.symm, List.forall_mem_singleton.2 hnumber, ?_⟩
    refine List.forall_mem_singleton.2 fun other others hcommand => ?_
    rw [h] at hcommand
    cases hcommand
    exact htext
  rw [command, Run.bind_apply, Run.get_apply]
  dsimp only
  split
  · exact ⟨_, State.records_record _ _ _, hgives _ rfl rfl,
      fun _ _ => ⟨hcount.symm, (State.vars_record _ _ _).trans hafter.symm⟩⟩
  · have hsame : State.SameCounts state
        (interpreter.dispatchCommand (state.vars.resolveString name)
          (args.map state.vars.resolveString) |>.apply state).2 := ⟨rfl, rfl, rfl, rfl⟩
    exact ⟨_, hsame.records (State.records_record _ _ _), hgives _ rfl rfl,
      fun _ _ => ⟨hcount.symm, (State.vars_record _ _ _).trans hafter.symm⟩⟩

/-- Changed variables are taken over, and a refusal leaves them; either is one result. -/
theorem update_apply (line : Line) (changed : Except VariableFault Variables) (before : State σ) :
    ∃ result, State.Records [result] before ((interpreter.update line changed).apply before).2 ∧
      result.line = line.number ∧
      ((interpreter.update line changed).apply before).2.vars =
        changed.toOption.getD before.vars := by
  cases changed with
  | ok vars =>
    have hsame : State.SameCounts before { before with vars } := ⟨rfl, rfl, rfl, rfl⟩
    exact ⟨_, hsame.records (State.records_record _ _ _), rfl, State.vars_record _ _ _⟩
  | error fault => exact ⟨_, State.records_record _ _ _, rfl, State.vars_record _ _ _⟩

/-- A directive that plays no part in the block structure gives one result, and makes its write. -/
theorem perform_apply {directive : Directive} (reads : Directive.ofLine line = .ok directive)
    (hrole : directive.role = .plain) (before : State σ) :
    ∃ result, State.Records [result] before ((interpreter.perform line directive).apply before).2 ∧
      result.line = line.number ∧
      ((interpreter.perform line directive).apply before).2.vars = before.vars.afterLine line := by
  rw [perform, Run.bind_apply, Run.get_apply]
  dsimp only
  cases directive with
  | set name value | exported name value =>
    obtain ⟨result, hrecords, hnumber, hvars⟩ := interpreter.update_apply line _ before
    refine ⟨result, hrecords, hnumber, hvars.trans ?_⟩
    simp only [Variables.afterLine, Line.write?, reads, Option.elim_some, after_eq_getD]
    rfl
  | unset name =>
    obtain ⟨result, hrecords, hnumber, hvars⟩ := interpreter.update_apply line _ before
    refine ⟨result, hrecords, hnumber, hvars.trans ?_⟩
    cases hname : validName name with
    | true =>
      simp only [Variables.afterLine, Line.write?, reads, hname, if_true, Option.elim_some, after_eq_getD]
      rfl
    | false =>
      simp [Variables.afterLine, Line.write?, reads, hname, Except.toOption]
  | echo text =>
    have hsame : State.SameCounts before
        (before.print interpreter.settings.format (before.vars.resolveString text)) :=
      ⟨rfl, rfl, rfl, rfl⟩
    refine ⟨_, hsame.records (State.records_record _ _ _), rfl, ?_⟩
    simp only [Variables.afterLine, Line.write?, reads, Option.elim_none]
    exact State.vars_record _ _ _
  | onError policy =>
    refine ⟨_, State.records_record _ _ _, rfl, ?_⟩
    simp only [Variables.afterLine, Line.write?, reads, Option.elim_none]
    exact State.vars_record _ _ _
  | opens | divides | closes => cases hrole

/-- A line that plays no part in the block structure gives its result and makes its write, unless it
cannot be read. -/
theorem passes_act (hrole : line.role = .plain) : (interpreter.act line).Passes line := by
  obtain ⟨number, raw, content⟩ := line
  cases content with
  | blank | comment =>
    refine fun state => ⟨[], ⟨(List.append_nil _).symm, rfl, rfl⟩, ⟨Nat.zero_le _, ?_, ?_⟩,
      fun _ _ => ⟨rfl, rfl⟩⟩
    · exact fun _ hmem => absurd hmem List.not_mem_nil
    · exact fun _ hmem => absurd hmem List.not_mem_nil
  | command name args => exact interpreter.passes_command rfl
  | directive keyword body =>
    intro state
    cases reads : Directive.read keyword body with
    | error fault =>
      refine ⟨[], ?_, ⟨Nat.zero_le _, fun _ hmem => absurd hmem List.not_mem_nil,
        fun _ hmem => absurd hmem List.not_mem_nil⟩, ?_⟩
      · simp only [act, reads, Run.fail_apply]
        exact .refl state
      · simp [act, reads]
    | ok directive =>
      have hdirective : directive.role = .plain := (Directive.role_of_read reads).symm.trans hrole
      obtain ⟨result, hrecords, hnumber, hvars⟩ :=
        interpreter.perform_apply (show Directive.ofLine ⟨number, raw, .directive keyword body⟩ =
          .ok directive from reads) hdirective state
      simp only [act, reads]
      exact ⟨[result], hrecords, gives_of_directive rfl hnumber _, fun _ _ => ⟨rfl, hvars⟩⟩

end Interpreter

/-! ## One line of a listing -/

namespace Preview

variable {preview : Preview} {line : Line}

/-- Outside loops every reference is resolved. -/
theorem resolve_eq (hloops : preview.loops = []) (text : String) :
    preview.resolve text = preview.vars.resolveString text := by
  rw [resolve, kept, hloops]
  rfl

/-- What a listing goes on with after a line: the script scope has taken the write of the line, and
nothing is exported. -/
structure Follows (preview : Preview) (line : Line) (next : Preview) : Prop where
  loops : next.loops = []
  environment : next.vars.environment = preview.vars.environment
  script : ∀ name, validName name = true → next.vars.script.get? name =
    (line.write?.bind fun write =>
      (write.mapValue preview.vars.resolveString).settles? name).getD
        (preview.vars.script.get? name)

theorem Follows.same (hloops : preview.loops = []) (hwrite : line.write? = none) :
    preview.Follows line preview :=
  ⟨hloops, rfl, fun _ _ => by rw [hwrite]; rfl⟩

/-- A value that is set in a listing is set in the script scope, also if the line exports it. -/
theorem follows_set (hloops : preview.loops = []) {name value : String}
    (hwrite : line.write? = some (.set name value) ∨ line.write? = some (.exported name value)) :
    preview.Follows line { preview with
      vars := preview.vars.after (.set name (preview.vars.resolveString value)) } := by
  refine ⟨hloops, ?_, fun other _ => ?_⟩
  · cases hname : validName name <;> simp [Variables.after, Write.perform, Variables.set, hname]
  · rw [(get?_after _ _ other).1]
    rcases hwrite with hwrite | hwrite <;> rw [hwrite] <;> rfl

/-- A directive that plays no part in the block structure. -/
theorem follows_apply (hloops : preview.loops = []) {directive : Directive}
    (reads : Directive.ofLine line = .ok directive) (hrole : directive.role = .plain) :
    preview.Follows line (preview.apply directive).1 := by
  cases directive with
  | set name value | exported name value =>
    have hwrite : line.write? = some (.set name value) ∨
        line.write? = some (.exported name value) := by simp [Line.write?, reads]
    have hset := follows_set hloops hwrite
    rw [after_eq_getD, Write.perform] at hset
    rw [apply, resolve_eq hloops]
    cases hvars : preview.vars.set name (preview.vars.resolveString value) with
    | ok vars => simpa [hvars, Except.toOption] using hset
    | error fault => simpa [hvars, Except.toOption] using hset
  | unset name =>
    refine ⟨hloops, rfl, fun other hother => ?_⟩
    rw [apply, Variables.unset, Bindings.get?_erase]
    cases hname : validName name with
    | true =>
      by_cases h : other = name <;>
        simp [Line.write?, reads, hname, Write.mapValue, Write.settles?, h]
    | false =>
      have hne : other ≠ name := by
        rintro rfl
        exact Bool.false_ne_true (hname.symm.trans hother)
      simp [Line.write?, reads, hname, hne]
  | echo | onError => exact .same hloops (by simp [Line.write?, reads])
  | opens | divides | closes => cases hrole

/-- A line that plays no part in the block structure has an entry unless it is blank or a comment. -/
theorem listLine_follows (hloops : preview.loops = []) (hrole : line.role = .plain) :
    (preview.listLine line).1.isSome = line.isExecutable ∧
      preview.Follows line (preview.listLine line).2 := by
  obtain ⟨number, raw, content⟩ := line
  cases content with
  | blank | comment | command => exact ⟨rfl, .same hloops rfl⟩
  | directive keyword body =>
    unfold listLine
    dsimp only
    cases reads : Directive.read keyword body with
    | error fault =>
      exact ⟨rfl, .same hloops (by simp [Line.write?, Directive.ofLine, reads])⟩
    | ok directive =>
      exact ⟨rfl, follows_apply hloops reads ((Directive.role_of_read reads).symm.trans hrole)⟩

/-- The entry of a command is the command as the variables of the listing resolve it. -/
theorem listLine_command (hloops : preview.loops = []) {name : String} {args : List String}
    (h : line.content = .command name args) :
    (preview.listLine line).1 =
      some (Command.display (preview.vars.resolveString name)
        (args.map preview.vars.resolveString)) := by
  rw [listLine, h]
  dsimp only
  rw [resolve_eq hloops, List.map_congr_left fun text _ => resolve_eq hloops text]

end Preview

/-! ## Agreement from line to line -/

theorem filterMap_write?_concat (passed : List Line) (line : Line) :
    (passed ++ [line]).filterMap Line.write? =
      passed.filterMap Line.write? ++ line.write?.toList := by
  rw [List.filterMap_append]
  cases hwrite : line.write? <;> simp [hwrite]

namespace Agrees

variable {passed : List Line} {ran : Variables} {preview next : Preview} {line : Line}

/-- A line that writes nothing leaves both variables alone. -/
theorem of_write?_eq_none (h : Agrees passed ran preview.vars) (hwrite : line.write? = none)
    (hnext : preview.Follows line next) :
    Agrees (passed ++ [line]) (ran.afterLine line) next.vars := by
  have hpassed := filterMap_write?_concat passed line
  rw [hwrite, Option.toList_none, List.append_nil] at hpassed
  have hran : ran.afterLine line = ran := by rw [Variables.afterLine, hwrite]; rfl
  rw [hran]
  refine ⟨fun name hname => ?_, fun name hname hexported => ?_, fun name hstanding => ?_⟩
  · rw [hnext.script name hname, hwrite, h.script name hname]
    rfl
  · rw [hpassed] at hexported
    rw [hnext.environment, h.environment name hname hexported]
  · rw [hpassed] at hstanding
    exact h.standing name hstanding

/-- A value is written alike if it refers to no withdrawn name. -/
theorem mapValue_eq (h : Agrees passed ran preview.vars)
    (hline : ∀ name ∈ line.references, ¬ Withdrawn name passed) {write : Write}
    (hwrite : line.write? = some write) :
    write.mapValue ran.resolveString = write.mapValue preview.vars.resolveString := by
  cases write with
  | unset name => rfl
  | set name value | exported name value =>
    have hassigns : line.write? = some (.set name value) ∨
        line.write? = some (.exported name value) := by simp [hwrite]
    simp only [Write.mapValue, h.resolveString_eq hline (Line.mem_texts_of_write? hassigns)]

/-- A write is made to both variables. -/
theorem of_write?_eq_some (h : Agrees passed ran preview.vars)
    (hline : ∀ name ∈ line.references, ¬ Withdrawn name passed) {write : Write}
    (hwrite : line.write? = some write) (hnext : preview.Follows line next) :
    Agrees (passed ++ [line]) (ran.afterLine line) next.vars := by
  have hpassed := filterMap_write?_concat passed line
  rw [hwrite, Option.toList_some] at hpassed
  have hran : ran.afterLine line = ran.after (write.mapValue ran.resolveString) := by
    rw [Variables.afterLine, hwrite]
    rfl
  rw [hran]
  refine ⟨fun name hname => ?_, fun name hname hexported => ?_, fun name hstanding => ?_⟩
  · rw [(get?_after _ _ name).1, hnext.script name hname, hwrite, h.mapValue_eq hline hwrite,
      h.script name hname]
    rfl
  · rw [hpassed, lastExported?_concat, Option.or_eq_none_iff] at hexported
    rw [hnext.environment, get?_environment_after hname
      (by rw [Write.exports?_mapValue, hexported.1]; rfl), h.environment name hname hexported.2]
  · rw [hpassed, standing?_concat] at hstanding
    rw [(get?_after _ _ name).1, Write.settles?_mapValue]
    cases hsettles : write.settles? name with
    | none =>
      rw [hsettles] at hstanding
      exact h.standing name hstanding
    | some settled =>
      rw [hsettles] at hstanding
      cases settled with
      | none => exact absurd rfl hstanding
      | some value => exact Option.some_ne_none _

theorem step (h : Agrees passed ran preview.vars)
    (hline : ∀ name ∈ line.references, ¬ Withdrawn name passed)
    (hnext : preview.Follows line next) :
    Agrees (passed ++ [line]) (ran.afterLine line) next.vars := by
  cases hwrite : line.write? with
  | none => exact h.of_write?_eq_none hwrite hnext
  | some write => exact h.of_write?_eq_some hline hwrite hnext

end Agrees

/-! ## Results and entries -/

/-- Results belong to the lines that are no blank lines and comments, in order, and so do the entries
of a listing. The result of a command and its entry show the same text, if no line up to it refers to
a withdrawn name. The lines in `passed` come before. -/
def Listed (passed lines : List Line) (listing : List String) (new : List LineResult) : Prop :=
  ∀ k result, new[k]? = some result → ∃ front line back, lines = front ++ line :: back ∧
    line.isExecutable = true ∧ k = front.countP Line.isExecutable ∧ result.line = line.number ∧
    ∀ name args, line.content = .command name args →
      AvoidsWithdrawn (passed ++ front ++ [line]) →
        listing[k]? = some (Preview.entry line result.text)

/-- The result of the first line and its entry. -/
theorem Listed.first {passed : List Line} {line : Line} {ran : Variables} {preview : Preview}
    {new : List LineResult} (hloops : preview.loops = []) (hgives : line.Gives ran new)
    (hagrees : AvoidsWithdrawn passed → Agrees passed ran preview.vars) (rest : List Line)
    (others : List String) :
    Listed passed (line :: rest)
      (((preview.listLine line).1.map (Preview.entry line)).toList ++ others) new := by
  intro k result hresult
  obtain ⟨hk, -⟩ := List.getElem?_eq_some_iff.1 hresult
  have hmem : result ∈ new := List.mem_of_getElem? hresult
  have hcount := hgives.count
  -- the line has a result, so it is no blank line or comment, and the result is its only one
  cases hexecutable : line.isExecutable with
  | false => simp [hexecutable] at hcount; simp [hcount] at hk
  | true =>
    have hzero : k = 0 := by simp [hexecutable] at hcount; omega
    refine ⟨[], line, rest, rfl, hexecutable, hzero, hgives.number result hmem,
      fun name args hcommand havoids => ?_⟩
    rw [List.append_nil] at havoids
    have hagree := hagrees havoids.of_append
    have hresolve : ∀ text ∈ name :: args,
        ran.resolveString text = preview.vars.resolveString text := fun text htext =>
      hagree.resolveString_eq havoids.last (by simpa [Line.texts, hcommand] using htext)
    have hargs : args.map ran.resolveString = args.map preview.vars.resolveString :=
      List.map_congr_left fun text htext => hresolve text (List.mem_cons_of_mem _ htext)
    rw [hzero, Preview.listLine_command hloops hcommand, hgives.text result hmem name args hcommand,
      hresolve name List.mem_cons_self, hargs]
    rfl

/-- The results and entries of the lines after the first one come after its own. -/
theorem Listed.append {passed rest : List Line} {line : Line} {text : Option String}
    {others : List String} {first last : List LineResult}
    (htext : text.isSome = line.isExecutable)
    (hlength : first.length = [line].countP Line.isExecutable)
    (hfirst : Listed passed (line :: rest) ((text.map (Preview.entry line)).toList ++ others) first)
    (hlast : Listed (passed ++ [line]) rest others last) :
    Listed passed (line :: rest) ((text.map (Preview.entry line)).toList ++ others)
      (first ++ last) := by
  have hentries : ((text.map (Preview.entry line)).toList).length = first.length := by
    cases text <;> simp_all
  intro k result hresult
  rcases Nat.lt_or_ge k first.length with hk | hk
  · rw [List.getElem?_append_left hk] at hresult
    exact hfirst k result hresult
  · rw [List.getElem?_append_right hk] at hresult
    obtain ⟨front, other, back, rfl, hexecutable, hcount, hnumber, hlisted⟩ := hlast _ _ hresult
    refine ⟨line :: front, other, back, rfl, hexecutable, ?_, hnumber, fun name args hcommand h => ?_⟩
    · rw [← List.singleton_append, List.countP_append, ← hlength, ← hcount]
      omega
    · rw [List.getElem?_append_right (hentries ▸ hk), hentries]
      refine hlisted name args hcommand ?_
      rwa [List.append_assoc passed, List.singleton_append]

theorem Line.opening?_of_plain {line : Line} (h : line.role = .plain) :
    Directive.opening? line = none := by
  cases hopening : Directive.opening? line with
  | none => rfl
  | some opening =>
    rw [Directive.role_of_opening? hopening] at h
    cases h

/-- What a line gives by itself, and the variables after it if the run goes on. -/
theorem Interpreter.keeps_passing (interpreter : Interpreter σ) {line : Line}
    (hline : line.role = .plain) (policy : Policy) :
    (interpreter.runLine line policy).Keeps fun new before outcome after =>
      line.Gives before.vars new ∧ (outcome = .ok .completed →
        new.length = [line].countP Line.isExecutable ∧
          after.vars = before.vars.afterLine line) := by
  intro state
  obtain ⟨new, hrecords, hgives, hok⟩ := interpreter.passes_act hline state
  rw [runLine, Run.bind_apply]
  rcases hact : (interpreter.act line).apply state with ⟨failure | success, after⟩ <;>
    rw [hact] at hrecords hok
  · exact ⟨new, hrecords, hgives, fun hcompleted => by cases hcompleted⟩
  · exact ⟨new, hrecords, hgives, fun _ => hok success rfl⟩

/-- The results of a run belong to the lines that it has passed, as the entries of the listing do. -/
theorem Interpreter.keeps_listed (interpreter : Interpreter σ) (lines : List Line) :
    ∀ (passed : List Line) (preview : Preview) (policy : Policy), preview.loops = [] →
      (∀ line ∈ lines, line.role = .plain) →
      (interpreter.run lines policy).Keeps fun new before _ _ =>
        (AvoidsWithdrawn passed → Agrees passed before.vars preview.vars) →
          Listed passed lines (preview.list lines).1 new := by
  induction lines with
  | nil =>
    intro passed preview policy _ _ state
    rw [interpreter.run_nil]
    exact ⟨[], .refl state, fun _ k result hresult => by simp at hresult⟩
  | cons line rest ih =>
    intro passed preview policy hloops hplain
    obtain ⟨hline, hrest⟩ := List.forall_mem_cons.1 hplain
    obtain ⟨hsome, hnext⟩ := Preview.listLine_follows hloops hline
    rw [interpreter.run_cons_eq_runLine (Line.opening?_of_plain hline)]
    have hlater := ih (passed ++ [line]) _ (line.onError?.getD policy) hnext.loops hrest
    refine (interpreter.keeps_passing hline policy).followedBy hlater
      (fun _ hfirst hagrees => ?_) (fun _ _ hfirst hlast hagrees => ?_)
    · exact Listed.first hloops hfirst.1 hagrees _ _
    · obtain ⟨hgives, hcompleted⟩ := hfirst
      obtain ⟨hlength, hvars⟩ := hcompleted rfl
      refine Listed.append hsome hlength (Listed.first hloops hgives hagrees _ _) (hlast ?_)
      intro havoids
      rw [hvars]
      exact (hagrees havoids.of_append).step havoids.last hnext

/-- Every line that is no blank line or comment has one entry. -/
theorem Preview.length_list {lines : List Line} (hplain : ∀ line ∈ lines, line.role = .plain)
    (preview : Preview) (hloops : preview.loops = []) :
    (preview.list lines).1.length = lines.countP Line.isExecutable := by
  induction lines generalizing preview with
  | nil => rfl
  | cons line rest ih =>
    obtain ⟨hline, hrest⟩ := List.forall_mem_cons.1 hplain
    obtain ⟨hsome, hnext⟩ := listLine_follows hloops hline
    have hentries := ih hrest (preview.listLine line).2 hnext.loops
    rw [List.countP_cons, ← hentries, ← hsome, list, List.length_append, Nat.add_comm]
    cases (preview.listLine line).1 <;> rfl

/-- A run and a listing of lines that play no part in the block structure, from the same variables.
The lines that are no blank lines or comments have one entry each, and the results of the run belong
to the first of them, one result to a line. The text of a command in its result is the text of its
entry, unless a line up to it refers to a name that was exported and then unset. -/
theorem Interpreter.run_listed (interpreter : Interpreter σ) {lines : List Line}
    (hplain : ∀ line ∈ lines, line.role = .plain) (policy : Policy) (state : State σ) :
    let after := ((interpreter.run lines policy).apply state).2
    let listing := (Preview.list ⟨state.vars, []⟩ lines).1
    listing.length = lines.countP Line.isExecutable ∧
    ∃ new, after.results.toList = state.results.toList ++ new ∧
      ∀ k result, new[k]? = some result → ∃ front line back, lines = front ++ line :: back ∧
        line.isExecutable = true ∧ k = front.countP Line.isExecutable ∧
        result.line = line.number ∧
        ∀ name args, line.content = .command name args → AvoidsWithdrawn (front ++ [line]) →
          listing[k]? = some (Preview.entry line result.text) := by
  intro after listing
  obtain ⟨new, hrecords, hlisted⟩ :=
    interpreter.keeps_listed lines [] ⟨state.vars, []⟩ policy rfl hplain state
  exact ⟨Preview.length_list hplain _ rfl, new, hrecords.results,
    hlisted fun _ => .refl state.vars⟩

/-- A script that exports a name, unsets it and exports it again before a command refers to it. -/
def Script.renewing : Script :=
  .parse "@export A = 1
@set B = $A
@unset A
# A is gone here
@export A = 2
build $A $B"

theorem Interpreter.run_listed_sample :
    (∀ line ∈ Script.renewing.lines, line.role = .plain) ∧
      AvoidsWithdrawn Script.renewing.lines ∧
      ∃ result line, ((sample.run Script.renewing.lines .abort).apply
          State.sample).2.results.toList[4]? = some result ∧ result.text = "build 2 1" ∧
        line ∈ Script.renewing.lines ∧ result.line = line.number ∧
        (Preview.list ⟨State.sample.vars, []⟩ Script.renewing.lines).1[4]? =
          some (Preview.entry line result.text) := by
  have hplain : ∀ line ∈ Script.renewing.lines, line.role = .plain := by decide +kernel
  have havoids : AvoidsWithdrawn Script.renewing.lines := by decide +kernel
  have hcommand : ∀ n < Script.renewing.lines.length,
      (Script.renewing.lines.take n).countP Line.isExecutable = 4 →
        ∀ line ∈ Script.renewing.lines[n]?, line.content = .command "build" ["$A", "$B"] ∨
          line.isExecutable = false := by
    decide +kernel
  obtain ⟨after, hrun, htext⟩ : ∃ after, (sample.run Script.renewing.lines .abort).apply
      State.sample = (.ok .completed, after) ∧
        (after.results.toList[4]?).map (·.text) = some "build 2 1" :=
    apply_run_of_ofLines? (fun after => (after.results.toList[4]?).map (·.text))
      (by decide +kernel)
  obtain ⟨-, new, hresults, hlisted⟩ := sample.run_listed hplain .abort State.sample
  obtain ⟨result, hresult, htext⟩ := Option.map_eq_some_iff.1 htext
  rw [hrun] at hresults
  have hnew : new[4]? = some result := by
    rw [← hresult, hresults]
    rfl
  obtain ⟨front, line, back, hlines, hexecutable, hcount, hnumber, hentry⟩ := hlisted 4 result hnew
  have hfront : AvoidsWithdrawn (front ++ [line]) := by
    have hwhole : AvoidsWithdrawn (front ++ [line] ++ back) := by
      rwa [List.append_assoc, List.singleton_append, ← hlines]
    exact hwhole.of_append
  have hcontent : line.content = .command "build" ["$A", "$B"] := by
    refine (hcommand front.length ?_ ?_ line ?_).resolve_right (by simp [hexecutable])
    · simp [hlines]
    · rw [hlines, List.take_left, ← hcount]
    · simp [hlines]
  refine ⟨hplain, havoids, result, line, by rw [hrun]; exact hresult, htext, ?_, hnumber,
    hentry _ _ hcontent hfront⟩
  simp [hlines]

/-- A script that refers to a withdrawn name. -/
def Script.withdrawing : Script :=
  .parse "@export A = 1
@unset A
build $A"

/-- A run finds a withdrawn name in the environment, where a listing has not put it. -/
theorem Script.withdrawing_listed :
    withdrawing.ensureValid {} = .ok [] ∧
      (∀ line ∈ withdrawing.lines, line.role = .plain) ∧
      ∃ after, (Interpreter.sample.run withdrawing.lines .abort).apply State.sample =
          (.ok .completed, after) ∧
        after.results.toList.map (·.text) = ["@export A = 1", "@unset A", "build 1"] ∧
        (Preview.list ⟨State.sample.vars, []⟩ withdrawing.lines).1 =
          ["   1: @export A = 1", "   2: @unset A", "   3: build \"\""] := by
  refine ⟨by decide +kernel, by decide +kernel, ?_⟩
  obtain ⟨after, hrun, htexts⟩ : ∃ after,
      (Interpreter.sample.run withdrawing.lines .abort).apply State.sample =
        (.ok .completed, after) ∧
      after.results.toList.map (·.text) = ["@export A = 1", "@unset A", "build 1"] :=
    Interpreter.apply_run_of_ofLines? (fun after => after.results.toList.map (·.text))
      (by decide +kernel)
  exact ⟨after, hrun, htexts, by decide +kernel⟩

end BatchScript
