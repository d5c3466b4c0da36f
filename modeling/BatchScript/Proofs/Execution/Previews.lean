import BatchScript.Proofs.Block.Enclosing
import BatchScript.Proofs.Execution.Accounts
import BatchScript.Proofs.Execution.Refusals
import BatchScript.Proofs.Variables.References

/-!
# Previews of accepted scripts

The preview of an accepted script has one entry for each directive and each command, in the order of the
lines. In an entry a reference is shown as it is written if a `@foreach` around the line gives its name
values, and as the value of its name otherwise, with the variables as the lines above have left them
(`Script.exists_outline_listed`). The open loops of a preview are those of the spans around a line
(`Preview.Fits`), also where loops inside one another have the same variable. A dry run calls no
dispatcher, and the environment is as it was.
-/

namespace BatchScript

variable {σ : Type}

/-! ## Names of loops -/

namespace Span

/-- The variable of the loop over items that a span is. -/
def loopVar? (lines : List Line) (span : Span) : Option String :=
  match (lines[span.opener]?).bind Directive.opening? with
  | some (.foreach var _) => some var
  | _ => none

/-- Whether a span is a loop that gives a name values: its variable or the loop index. -/
def binds (lines : List Line) (span : Span) (name : String) : Bool :=
  (span.loopVar? lines).any fun var => name == var || name == Interpreter.loopIndex

end Span

namespace Preview

open Validation

/-! ## What a preview shows -/

/-- What a line writes to the variables in a preview, with its value as it is written. An export is
nothing but a write to the script scope. -/
def write? (line : Line) : Option Variables.Write :=
  match Directive.ofLine line with
  | .ok (.set name value) | .ok (.exported name value) => some (.set name value)
  | .ok (.unset name) => some (.unset name)
  | _ => none

/-- Whether a loop around the line at a position gives a name values. -/
def boundAt (lines : List Line) (spans : List Span) (position : Nat) (name : String) : Bool :=
  spans.any fun span =>
    span.opener < position && position < span.terminator && span.binds lines name

/-- A part of a text: a reference to a bound name is as it is written, and every other one is replaced by
the value of its name. -/
def shownPart (bound : String → Bool) (vars : Variables) : Text.Part → List Char
  | .char c => [c]
  | .reference name braced =>
    if bound (.ofList name) then (Text.Part.reference name braced).written
    else (vars.get (.ofList name) "").toList

/-- A text, part by part. -/
def shown (bound : String → Bool) (vars : Variables) (text : String) : String :=
  .ofList ((Text.parts text.toList).flatMap (shownPart bound vars))

/-- The variables for the line at a position: the lines above it have written to those at the start. -/
def varsAt (lines : List Line) (spans : List Span) (start : Variables) : Nat → Variables
  | 0 => start
  | position + 1 =>
    let vars := varsAt lines spans start position
    match (lines[position]?).bind write? with
    | none => vars
    | some write => vars.after (write.mapValue (shown (boundAt lines spans position) vars))

/-- A text of the line at a position, as the preview shows it. -/
def shownAt (lines : List Line) (spans : List Span) (start : Variables) (position : Nat) :
    String → String :=
  shown (boundAt lines spans position) (varsAt lines spans start position)

/-- The remark on a write that is refused. -/
def refusal (written : Option Variables.Write) : String :=
  match written with
  | some write => if write.allowed then "" else remark (.invalidName write.name)
  | none => ""

/-- The entry of a line, given what its texts are shown as. -/
def entryOf (line : Line) (shownAs : String → String) : String :=
  entry line <|
    match line.content with
    | .blank | .comment => ""
    | .command name args => Command.display (shownAs name) (args.map shownAs)
    | .directive keyword body =>
      (if shownAs body = "" then "@" ++ keyword else "@" ++ keyword ++ " " ++ shownAs body) ++
        refusal (write? line)

/-! ## References -/

theorem contains_kept (preview : Preview) (name : String) : preview.kept.contains name =
    preview.loops.any fun var => name == var || name == Interpreter.loopIndex := by
  rw [Bool.eq_iff_iff]
  simp [kept]

theorem resolve_eq_shown (preview : Preview) (text : String) :
    preview.resolve text = shown preview.kept.contains preview.vars text := by
  refine congrArg (fun parts => String.ofList (List.flatten parts)) ?_
  refine List.map_congr_left fun part _ => ?_
  cases part with
  | char c => rfl
  | reference name braced =>
    rw [Text.Part.expand, shownPart]
    cases preview.kept.contains (.ofList name) <;> rfl

/-! ## The open loops -/

variable {limits : Limits} {lines : List Line} {spans : List Span} {start : Variables}
  {position : Nat} {preview : Preview} {line : Line}

variable (lines spans start position preview) in
/-- A preview that has come to a position: its open loops are those of the spans around the position. -/
structure Fits : Prop where
  vars_eq : preview.vars = varsAt lines spans start position
  loops_eq : ∃ stack, Enclosing spans position stack ∧
    preview.loops = stack.filterMap (Span.loopVar? lines)

theorem fits_start : Fits lines spans start 0 ⟨start, []⟩ :=
  ⟨rfl, [], enclosing_zero spans, rfl⟩

/-- The names that are kept at a line are those that loops around it bind. At a terminator, its own loop
is still open. -/
theorem Fits.contains_kept (hfits : Fits lines spans start position preview)
    (h : Outlines limits lines spans)
    (hcloses : ∀ kind, roleAt lines position ≠ some (.closes kind)) (name : String) :
    preview.kept.contains name = boundAt lines spans position name := by
  obtain ⟨stack, henclosing, hloops⟩ := hfits.loops_eq
  have hstack : preview.kept.contains name = stack.any (·.binds lines name) := by
    rw [Preview.contains_kept, hloops, List.any_filterMap]
    refine congrArg (List.any stack) (funext fun span => ?_)
    rw [Span.binds]
    cases span.loopVar? lines <;> rfl
  rw [hstack, Bool.eq_iff_iff, boundAt, List.any_eq_true, List.any_eq_true]
  refine exists_congr fun span => ?_
  rw [henclosing.mem_iff, and_assoc, Bool.and_eq_true, Bool.and_eq_true, decide_eq_true_eq,
    decide_eq_true_eq]
  refine and_congr_right fun hspan => and_congr_left fun _ => ?_
  have hterminator := h.terminator_ne hspan hcloses
  omega

theorem Fits.resolve_eq (hfits : Fits lines spans start position preview)
    (h : Outlines limits lines spans)
    (hcloses : ∀ kind, roleAt lines position ≠ some (.closes kind)) (text : String) :
    preview.resolve text = shownAt lines spans start position text := by
  have hkept : preview.kept.contains = boundAt lines spans position :=
    funext (hfits.contains_kept h hcloses)
  rw [resolve_eq_shown, hkept, hfits.vars_eq, shownAt]

/-! ## Steps -/

variable (spans start) in
theorem varsAt_succ (hline : lines[position]? = some line) :
    varsAt lines spans start (position + 1) =
      match write? line with
      | none => varsAt lines spans start position
      | some write => (varsAt lines spans start position).after
          (write.mapValue (shownAt lines spans start position)) := by
  rw [varsAt, hline]
  rfl

/-- A line that writes nothing leaves the variables for the next line. -/
theorem Fits.vars_succ (hfits : Fits lines spans start position preview)
    (hline : lines[position]? = some line) (hwrite : write? line = none) :
    preview.vars = varsAt lines spans start (position + 1) := by
  rw [varsAt_succ spans start hline, hwrite]
  exact hfits.vars_eq

/-- A line that neither opens nor closes a block leaves the loops open. -/
theorem Fits.plain (hfits : Fits lines spans start position preview) (h : Outlines limits lines spans)
    (hopens : ∀ kind, roleAt lines position ≠ some (.opens kind))
    (hcloses : ∀ kind, roleAt lines position ≠ some (.closes kind)) {next : Preview}
    (hvars : next.vars = varsAt lines spans start (position + 1)) (hloops : next.loops = preview.loops) :
    Fits lines spans start (position + 1) next := by
  obtain ⟨stack, henclosing, hstack⟩ := hfits.loops_eq
  exact ⟨hvars, stack, henclosing.stay h hopens hcloses, hloops.trans hstack⟩

/-- An opener adds the variable of its loop, if it opens one. -/
theorem Fits.opens (hfits : Fits lines spans start position preview) (h : Outlines limits lines spans)
    (hline : lines[position]? = some line) {opening : Opening}
    (hread : Directive.ofLine line = .ok (.opens opening)) :
    Fits lines spans start (position + 1) (preview.apply (.opens opening)).1 := by
  obtain ⟨stack, henclosing, hloops⟩ := hfits.loops_eq
  have hrole : roleAt lines position = some (.opens opening.kind) :=
    (roleAt_eq hline).trans (congrArg some (Directive.role_of_ofLine hread))
  obtain ⟨span, hspan, hposition⟩ := h.exists_opener hrole
  have hvars := hfits.vars_succ hline (by rw [write?, hread])
  have hopening : (lines[span.opener]?).bind Directive.opening? = some opening := by
    rw [hposition, hline, Option.bind_some, Directive.opening?_of_ofLine hread]
  cases opening with
  | foreach var list =>
    have hvar : span.loopVar? lines = some var := by rw [Span.loopVar?, hopening]
    refine ⟨hvars, span :: stack, henclosing.push h hspan hposition, ?_⟩
    rw [List.filterMap_cons_some hvar, ← hloops]
    rfl
  | conditional | loop | attempt =>
    have hvar : span.loopVar? lines = none := by rw [Span.loopVar?, hopening]
    refine ⟨hvars, span :: stack, henclosing.push h hspan hposition, ?_⟩
    rw [List.filterMap_cons_none hvar, ← hloops]
    rfl

/-- A span is a loop over items if its opener reads as one. -/
theorem isSome_loopVar? (h : Outlines limits lines spans) {span : Span} (hspan : span ∈ spans) :
    (span.loopVar? lines).isSome = decide (span.kind = .foreach) := by
  obtain ⟨line, hline, hrole⟩ := exists_of_roleAt (h.delimits span hspan).opens
  obtain ⟨opening, hopening, hkind⟩ :=
    (readable_of_accepts h.accepts).exists_opening? (List.mem_of_getElem? hline) hrole
  rw [Span.loopVar?, hline, Option.bind_some, hopening, ← hkind]
  cases opening <;> rfl

/-- A terminator takes away the variable of its loop, if it closes one. -/
theorem Fits.closes (hfits : Fits lines spans start position preview) (h : Outlines limits lines spans)
    (hline : lines[position]? = some line) {kind : BlockKind}
    (hread : Directive.ofLine line = .ok (.closes kind)) :
    Fits lines spans start (position + 1) (preview.apply (.closes kind)).1 := by
  obtain ⟨stack, henclosing, hloops⟩ := hfits.loops_eq
  have hrole : roleAt lines position = some (.closes kind) :=
    (roleAt_eq hline).trans (congrArg some (Directive.role_of_ofLine hread))
  obtain ⟨span, hspan, hterminator, hkind⟩ := h.exists_terminator hrole
  obtain ⟨rest, rfl, hrest⟩ := henclosing.pop h hspan hterminator
  have hvars := hfits.vars_succ hline (by rw [write?, hread])
  have hloop := isSome_loopVar? h hspan
  rw [hkind] at hloop
  cases hvar : span.loopVar? lines with
  | some var =>
    rw [List.filterMap_cons_some hvar] at hloops
    rw [hvar] at hloop
    obtain rfl : kind = .foreach := of_decide_eq_true hloop.symm
    exact ⟨hvars, rest, hrest, congrArg List.tail hloops⟩
  | none =>
    rw [List.filterMap_cons_none hvar] at hloops
    rw [hvar] at hloop
    have hkind : kind ≠ .foreach := of_decide_eq_false hloop.symm
    have hkeep : (preview.apply (.closes kind)).1 = preview := by
      cases kind <;> first | rfl | exact absurd rfl hkind
    rw [hkeep]
    exact ⟨hvars, rest, hrest, hloops⟩

/-! ## Entries -/

theorem shown_empty (bound : String → Bool) (vars : Variables) : shown bound vars "" = "" := by
  have hparts : Text.parts "".toList = [] := Text.parts_nil
  rw [shown, hparts]
  rfl

/-- The body of a terminator is empty, so there is nothing to resolve while its own loop is open. -/
theorem body_of_closes {keyword body : String} {kind : BlockKind}
    (h : Directive.read keyword body = .ok (.closes kind)) : body = "" := by
  obtain rfl : keyword = kind.terminator :=
    Role.ofKeyword_eq_closes_iff.1 (Directive.role_of_read h)
  have hread : Directive.read kind.terminator body =
      Directive.readNothing kind.terminator body (.closes kind) := by
    cases kind <;> rfl
  rw [hread, Directive.readNothing] at h
  split at h
  next hbody => exact hbody
  next => cases h

theorem apply_set (preview : Preview) (name value : String) : preview.apply (.set name value) =
    ({ preview with vars := preview.vars.after (.set name (preview.resolve value)) },
      if Variables.validName name then none else some (.invalidName name)) := by
  rw [apply, Variables.after, Variables.Write.perform, Variables.set]
  cases Variables.validName name <;> rfl

/-- A write is remarked on exactly when it is refused. -/
theorem remark_apply {directive : Directive} (hread : Directive.ofLine line = .ok directive) :
    (preview.apply directive).2.elim "" remark = refusal (write? line) := by
  rw [write?, hread]
  cases directive with
  | set name value | exported name value =>
    show (preview.apply (.set name value)).2.elim "" remark = _
    rw [apply_set, refusal, Variables.Write.allowed, Variables.Write.name]
    cases Variables.validName name <;> rfl
  | opens opening => cases opening <;> rfl
  | closes kind => cases kind <;> rfl
  | unset | echo | onError | divides => rfl

theorem directiveText_eq (preview : Preview) (keyword body : String) :
    preview.directiveText keyword body = if preview.resolve body = "" then "@" ++ keyword
      else "@" ++ keyword ++ " " ++ preview.resolve body := by
  unfold directiveText
  split
  next h => rw [if_pos h]
  next h => rw [if_neg h]

theorem Fits.resolve_body (hfits : Fits lines spans start position preview)
    (h : Outlines limits lines spans) (hline : lines[position]? = some line) {keyword body : String}
    (hcontent : line.content = .directive keyword body) {directive : Directive}
    (hread : Directive.ofLine line = .ok directive) :
    preview.resolve body = shownAt lines spans start position body := by
  by_cases hcloses : ∃ kind, directive = .closes kind
  · obtain ⟨kind, rfl⟩ := hcloses
    rw [Directive.ofLine, hcontent] at hread
    rw [body_of_closes hread, resolve_eq_shown, shownAt, shown_empty, shown_empty]
  · refine hfits.resolve_eq h (fun kind hrole => hcloses ⟨kind, ?_⟩) body
    rw [roleAt_eq hline, Directive.role_of_ofLine hread] at hrole
    exact Directive.eq_closes_of_role (Option.some.inj hrole)

/-- A directive leaves a preview that fits the lines after it. -/
theorem Fits.apply (hfits : Fits lines spans start position preview) (h : Outlines limits lines spans)
    (hline : lines[position]? = some line) {directive : Directive}
    (hread : Directive.ofLine line = .ok directive) :
    Fits lines spans start (position + 1) (preview.apply directive).1 := by
  have hrole := (roleAt_eq hline).trans (congrArg some (Directive.role_of_ofLine hread))
  have hopens (hrole' : ∀ kind, directive.role ≠ .opens kind) :
      ∀ kind, roleAt lines position ≠ some (.opens kind) :=
    fun kind heq => hrole' kind (Option.some.inj (hrole.symm.trans heq))
  have hcloses (hrole' : ∀ kind, directive.role ≠ .closes kind) :
      ∀ kind, roleAt lines position ≠ some (.closes kind) :=
    fun kind heq => hrole' kind (Option.some.inj (hrole.symm.trans heq))
  have hvars := varsAt_succ spans start hline
  rw [write?, hread] at hvars
  cases directive with
  | set name value | exported name value =>
    have hresolve := hfits.resolve_eq h (hcloses nofun) value
    show Fits lines spans start (position + 1) (preview.apply (.set name value)).1
    rw [apply_set, hresolve]
    exact hfits.plain h (hopens nofun) (hcloses nofun)
      (hvars.trans (congrArg (Variables.after · _) hfits.vars_eq.symm)).symm rfl
  | unset name =>
    exact hfits.plain h (hopens nofun) (hcloses nofun)
      (hvars.trans (congrArg (Variables.after · _) hfits.vars_eq.symm)).symm rfl
  | echo | onError | divides =>
    exact hfits.plain h (hopens nofun) (hcloses nofun) (hvars.trans hfits.vars_eq.symm).symm rfl
  | opens opening => exact hfits.opens h hline hread
  | closes kind => exact hfits.closes h hline hread

/-- A line without a keyword changes nothing. -/
theorem Fits.text (hfits : Fits lines spans start position preview) (h : Outlines limits lines spans)
    (hline : lines[position]? = some line) (hkeyword : line.keyword? = none)
    (hwrite : write? line = none) :
    preview.resolve = shownAt lines spans start position ∧
      Fits lines spans start (position + 1) preview := by
  have hrole : roleAt lines position = some .plain :=
    (roleAt_eq hline).trans (congrArg some (Line.role_of_keyword?_eq_none hkeyword))
  have hopens : ∀ kind, roleAt lines position ≠ some (.opens kind) := by simp [hrole]
  have hcloses : ∀ kind, roleAt lines position ≠ some (.closes kind) := by simp [hrole]
  exact ⟨funext (hfits.resolve_eq h hcloses),
    hfits.plain h hopens hcloses (hfits.vars_succ hline hwrite) rfl⟩

/-- A line leaves a preview that fits the lines after it, and has its entry if it is listed. -/
theorem Fits.step (hfits : Fits lines spans start position preview) (h : Outlines limits lines spans)
    (hline : lines[position]? = some line) :
    (preview.listLine line).1.map (entry line) =
        (if line.isExecutable then some (entryOf line (shownAt lines spans start position))
          else none) ∧
      Fits lines spans start (position + 1) (preview.listLine line).2 := by
  have hreadable := readable_of_accepts h.accepts line (List.mem_of_getElem? hline)
  obtain ⟨number, raw, content⟩ := line
  cases content with
  | blank | comment => exact ⟨rfl, (hfits.text h hline rfl rfl).2⟩
  | command name args =>
    obtain ⟨hresolve, hnext⟩ := hfits.text h hline rfl rfl
    refine ⟨?_, hnext⟩
    rw [listLine, hresolve]
    rfl
  | directive keyword body =>
    obtain ⟨directive, hread⟩ := hreadable rfl
    have hread' : Directive.read keyword body = .ok directive := hread
    rw [listLine]
    dsimp only
    rw [hread']
    refine ⟨?_, hfits.apply h hline hread⟩
    show some (entry _ (preview.directiveText keyword body ++ _)) = some (entryOf _ _)
    rw [remark_apply hread, directiveText_eq, hfits.resolve_body h hline rfl hread]
    rfl

/-! ## Listings -/

/-- The induction is on the lines that are still to be listed. -/
theorem Fits.list (hfits : Fits lines spans start position preview) (h : Outlines limits lines spans)
    {rest : List Line} (hrest : lines.drop position = rest) :
    preview.list rest =
      (((rest.zipIdx position).filter (·.1.isExecutable)).map fun (line, position) =>
        entryOf line (shownAt lines spans start position),
        varsAt lines spans start (position + rest.length)) := by
  induction rest generalizing position preview with
  | nil => exact congrArg (Prod.mk []) hfits.vars_eq
  | cons line rest ih =>
    have hline : lines[position]? = some line := by
      rw [← Nat.add_zero position, ← List.getElem?_drop, hrest]
      rfl
    have hnext : lines.drop (position + 1) = rest := by
      rw [← List.drop_drop, hrest]
      rfl
    obtain ⟨hentry, hfits⟩ := hfits.step h hline
    rw [Preview.list]
    dsimp only
    rw [ih hfits hnext, hentry, List.zipIdx_cons, List.filter_cons, List.length_cons,
      Nat.add_right_comm, Nat.add_assoc]
    cases line.isExecutable <;> rfl

/-- A preview exports nothing, whatever the lines are. -/
theorem environment_apply (preview : Preview) (directive : Directive) :
    (preview.apply directive).1.vars.environment = preview.vars.environment := by
  cases directive with
  | set name value | exported name value =>
    show (preview.apply (.set name value)).1.vars.environment = _
    rw [apply_set, Variables.after, Variables.Write.perform, Variables.set]
    cases Variables.validName name <;> rfl
  | opens opening => cases opening <;> rfl
  | closes kind => cases kind <;> rfl
  | unset | echo | onError | divides => rfl

theorem environment_listLine (preview : Preview) (line : Line) :
    (preview.listLine line).2.vars.environment = preview.vars.environment := by
  obtain ⟨number, raw, content⟩ := line
  cases content with
  | blank | comment | command => rfl
  | directive keyword body =>
    rw [listLine]
    dsimp only
    split
    · rfl
    · exact preview.environment_apply _

theorem environment_list (preview : Preview) (lines : List Line) :
    (preview.list lines).2.environment = preview.vars.environment := by
  induction lines generalizing preview with
  | nil => rfl
  | cons line rest ih => exact (ih _).trans (preview.environment_listLine line)

end Preview

/-! ## Dry runs -/

/-- The dispatcher keeps what it has kept before, and nothing was exported. -/
structure State.Undisturbed (before after : State σ) : Prop where
  state : after.world.state = before.world.state
  environment : after.vars.environment = before.vars.environment

theorem State.Undisturbed.trans {before between after : State σ} (h : before.Undisturbed between)
    (h' : between.Undisturbed after) : before.Undisturbed after :=
  ⟨h'.state.trans h.state, h'.environment.trans h.environment⟩

namespace Runner

/-- The runner with a log of the calls of its dispatcher. -/
def logged (runner : Runner σ) : Runner (σ × List Call) :=
  { runner.toInterpreter.logged with
    limits := runner.limits
    initial := runner.initial
    logFile := runner.logFile
    now := runner.now }

theorem undisturbed_setAll (initial : List (String × String)) (state : State σ) :
    state.Undisturbed ((setAll initial).apply state).2 := by
  obtain ⟨outcome, script, happly⟩ := setAll_apply initial state
  rw [happly]
  exact ⟨rfl, rfl⟩

variable (runner : Runner σ) (script : Script) (name : String) (state : State σ)

theorem undisturbed_preview :
    state.Undisturbed ((runner.preview script name).apply state).2 :=
  ⟨rfl, Preview.environment_list _ script.lines⟩

theorem undisturbed_writeLog (report : Report) :
    state.Undisturbed ((runner.writeLog report).apply state).2 := by
  unfold writeLog
  split <;> exact ⟨rfl, rfl⟩

/-- A dry run disturbs nothing, also of a script that is refused. -/
theorem undisturbed_runScript (hdry : runner.settings.dryRun = true) :
    state.Undisturbed ((runner.runScript script name).apply state).2 := by
  cases hvalid : script.ensureValid runner.limits with
  | error failure =>
    rw [runner.runScript_of_ensureValid_eq_error hvalid]
    exact ⟨rfl, rfl⟩
  | ok warnings =>
    have hstart : state.Undisturbed (state.fresh.warn warnings) := ⟨rfl, rfl⟩
    have hset := hstart.trans (undisturbed_setAll runner.initial _)
    rcases hbegun : (setAll runner.initial).apply (state.fresh.warn warnings) with
      ⟨failure | _, begun⟩ <;> rw [hbegun] at hset
    · rw [runner.runScript_of_setAll_eq_error hvalid hbegun]
      exact hset
    · have hmake : runner.make script name = runner.preview script name := if_pos hdry
      have hlisted := hset.trans (runner.undisturbed_preview script name begun)
      rw [runner.runScript_of_starts hvalid hbegun, hmake, Run.bind_apply]
      rcases hpreview : (runner.preview script name).apply begun with ⟨failure | report, listed⟩ <;>
        rw [hpreview] at hlisted
      · exact hlisted
      · have hwritten := hlisted.trans (runner.undisturbed_writeLog listed report)
        dsimp only
        rw [Run.bind_apply]
        rcases hlog : (runner.writeLog report).apply listed with ⟨failure | _, written⟩ <;>
          rw [hlog] at hwritten <;> exact hwritten

end Runner

/-! ## Accepted scripts -/

namespace Script

/-- The preview of an accepted script lists its directives and commands, each once, in order and with the
number of its line. A reference is shown as it is written if a loop around the line gives its name values,
by the spans of the outline, and as the value of its name otherwise, with the variables as the lines above
have left them. Nothing is exported, and a dry run calls no dispatcher. -/
theorem exists_outline_listed {script : Script} {limits : Limits} {warnings : List Diagnostic}
    (h : script.ensureValid limits = .ok warnings) :
    ∃ spans, Span.outline script.lines = .ok spans ∧
      (∀ start : Variables,
        let listed := Preview.list ⟨start, []⟩ script.lines
        (listed.1 = (script.lines.zipIdx.filter (·.1.isExecutable)).map fun (line, position) =>
          Preview.entryOf line (Preview.shownAt script.lines spans start position)) ∧
        listed.2 = Preview.varsAt script.lines spans start script.lines.length ∧
        listed.2.environment = start.environment) ∧
      ∀ {σ : Type} (runner : Runner σ) (name : String) (state : State σ) (calls : List Call),
        runner.settings.dryRun = true →
        let after := ((runner.logged.runScript script name).apply (state.withCalls calls)).2
        after.world.state = (state.world.state, calls) ∧
          after.vars.environment = state.vars.environment := by
  obtain ⟨spans, houtline, houtlines⟩ := exists_outlines h
  refine ⟨spans, houtline, fun start => ?_, fun runner name state calls hdry => ?_⟩
  · have hstart : Preview.Fits script.lines spans start 0 ⟨start, []⟩ := Preview.fits_start
    have hlist := hstart.list houtlines List.drop_zero
    rw [Nat.zero_add] at hlist
    exact ⟨congrArg Prod.fst hlist, congrArg Prod.snd hlist, Preview.environment_list _ _⟩
  · have hafter := runner.logged.undisturbed_runScript script name (state.withCalls calls) hdry
    exact ⟨hafter.state, hafter.environment⟩

/-- A script with two loops inside one another that have the same variable. -/
def loops : Script :=
  .parse "@set n = 1
@foreach n in $n b
run $n ${__LOOP_INDEX__} $m
@foreach n in c
@export m = $n$k

@endforeach
run $n $m
@endforeach
@set 1x = $n
run $n $__LOOP_INDEX__"

theorem ensureValid_loops : loops.ensureValid {} = .ok [] :=
  ensureValid_of_nil (by decide +kernel)

theorem exists_outline_listed_sample :
    loops.ensureValid {} = .ok [] ∧
      (∃ spans, Span.outline loops.lines = .ok spans ∧
        (Preview.list ⟨State.sample.vars, []⟩ loops.lines).1 =
          (loops.lines.zipIdx.filter (·.1.isExecutable)).map fun (line, position) =>
            Preview.entryOf line
              (Preview.shownAt loops.lines spans State.sample.vars position)) ∧
      (Preview.list ⟨State.sample.vars, []⟩ loops.lines).1 =
        ["   1: @set n = 1", "   2: @foreach n in 1 b", "   3: run $n ${__LOOP_INDEX__} \"\"",
          "   4: @foreach n in c", "   5: @export m = $n", "   7: @endforeach", "   8: run $n $n",
          "   9: @endforeach", "  10: @set 1x = 1" ++ Preview.remark (.invalidName "1x"),
          "  11: run 1 \"\""] := by
  obtain ⟨spans, houtline, hlisted, -⟩ := exists_outline_listed ensureValid_loops
  exact ⟨ensureValid_loops, ⟨spans, houtline, (hlisted State.sample.vars).1⟩, by decide +kernel⟩

end Script

end BatchScript
