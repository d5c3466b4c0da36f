import BatchScript.Execution.Segment
import BatchScript.Proofs.Block.Matching
import BatchScript.Proofs.Execution.Laws

/-!
# Structured execution

What running a block tree means, by recursion on the tree (`runTree`): a conditional runs the first
of its parts whose condition holds, a loop its body once for each item or as long as its condition
holds, an attempt its body to the end, then its `@catch` if a line of the body has failed, and then
its `@finally`. `@onerror` changes the policy of what follows in its own sequence.

A run of the lines of a tree, which builds no tree and finds the end of each block by counting, is
this structured run (`run_lines`), whatever the state and the dispatcher are.
-/

namespace BatchScript

variable {σ : Type}

/-! ## Flow between runs -/

namespace Run

/-- Goes on with another run, unless the first one stops. -/
def followedBy (first rest : Run σ Flow) : Run σ Flow := do
  match ← first with
  | .completed => rest
  | .stopped => return .stopped

/-- Runs a part of a block whose policy decides whether a stop goes on outwards. -/
def within (policy : Policy) (part : Run σ Flow) : Run σ Flow := do
  return (← part).under policy

/-- Runs to the end, and answers whether a line has failed on the way. -/
def fails (run : Run σ Flow) : Run σ Bool := do
  let before := (← get).failures
  let _ ← run
  return before < (← get).failures

/-- Runs one after the other, up to the first that stops. -/
def inTurn : List (Run σ Flow) → Run σ Flow
  | [] => return .completed
  | first :: rest => first.followedBy (inTurn rest)

end Run

/-- How a line ends a sequence under a policy. -/
def Policy.settle (policy : Policy) (success : Bool) : Flow :=
  if success then .completed else Flow.stopped.under policy

/-- The policy for what follows a node. -/
def Node.policyAfter (policy : Policy) : Node → Policy
  | @Node.simple directive _ _ => directive.policyAfter policy
  | _ => policy

/-- Whether a block has the part. -/
def Clause.isPresent : {marker : Marker} → Clause marker → Bool
  | _, .absent => false
  | _, .present .. => true

/-! ## Running trees -/

namespace Interpreter

variable (interpreter : Interpreter σ)

/-- Goes on by the value of a condition. A condition without a value is a failure of its line. -/
def test (line : Line) (condition : String) (policy : Policy) (yes no : Run σ Flow) :
    Run σ Flow := do
  match ← Run.evaluate condition with
  | .ok true => yes
  | .ok false => no
  | .error fault =>
    let success ← interpreter.reject line (.evaluation fault)
    return policy.settle success

/-- Runs a body as long as a condition holds, and fails when it holds more than `limit` times. -/
def whileHolds (line : Line) (condition : String) (policy : Policy) (body : Run σ Flow) :
    (limit : Nat) → Run σ Flow
  | 0 =>
    interpreter.test line condition policy (do
      let fault := .loopLimit interpreter.settings.maxLoopIterations
      return policy.settle (← interpreter.reject line (.evaluation fault)))
      (return .completed)
  | limit + 1 =>
    interpreter.test line condition policy
      (body.followedBy (whileHolds line condition policy body limit)) (return .completed)

/-- Runs a body for an item of a list and its position in the list. -/
def forItem (var : String) (body : Run σ Flow) (item : String × Nat) : Run σ Flow := do
  bindItem var item.1 item.2
  body

/-- Runs what handles a failure, if there is one. -/
def handling (failed : Bool) (handler : Run σ Flow) : Run σ Flow :=
  if failed then handler else return .completed

mutual

/-- Runs a single line or a block under a policy. -/
def runNode : Node → Policy → Run σ Flow
  | .text line _, policy =>
    match line.content with
    | .command name args => do
      return policy.settle (← interpreter.command line name args)
    | _ => do
      Run.modify .skip
      return .completed
  | @Node.simple directive line _, policy => do
    return policy.settle (← interpreter.perform line.line directive)
  | @Node.conditional condition opener body elifs otherwise _, policy =>
    interpreter.test opener.line condition policy ((runTree body policy).within policy)
      (runElifs elifs (runClause otherwise (return .completed) policy) policy)
  | @Node.foreach var list opener body _, policy =>
    if Variables.validName var then do
      let vars := (← Run.get).vars
      let items := ItemList.expand (vars.resolve list.toList)
      preserving loopIndex <| preserving var <|
        .inTurn (items.zipIdx.map (forItem var ((runTree body policy).within policy)))
    else do
      let success ← interpreter.reject opener.line (.variable (.invalidLoopName var))
      return policy.settle success
  | @Node.loop condition opener body _, policy =>
    interpreter.whileHolds opener.line condition policy ((runTree body policy).within policy)
      interpreter.settings.maxLoopIterations
  | .attempt _ body handler cleanup _, policy => do
    let failed ← (covered handler.isPresent (runTree body .continue)).fails
    let flow ← handling failed (runClause handler (return Flow.stopped.under policy) policy)
    runClause cleanup (return .completed) policy |>.followedBy (return flow)

/-- Runs a sequence under a policy, which `@onerror` changes for the nodes that follow. -/
def runTree : Tree → Policy → Run σ Flow
  | .nil, _ => return .completed
  | .cons node rest, policy =>
    (runNode node policy).followedBy (runTree rest (node.policyAfter policy))

/-- Runs the first part whose condition holds, or else `otherwise`. -/
def runElifs : Elifs → (otherwise : Run σ Flow) → Policy → Run σ Flow
  | .nil, otherwise, _ => otherwise
  | @Elifs.cons condition marker body others, otherwise, policy =>
    interpreter.test marker.line condition policy ((runTree body policy).within policy)
      (runElifs others otherwise policy)

/-- Runs the part, or else what stands for it when it is missing. -/
def runClause : {marker : Marker} → Clause marker → (missing : Run σ Flow) → Policy → Run σ Flow
  | _, .absent, missing, _ => missing
  | _, .present _ body, _, policy => (runTree body policy).within policy

end

/-! ## Runs of lines are structured runs -/

theorem test_eq_branch (line : Line) (condition : String) (policy : Policy) (yes no : Run σ Flow) :
    interpreter.test line condition policy yes no =
      interpreter.branch line condition policy yes no := by
  unfold test branch
  refine bind_congr fun value => ?_
  rcases value with fault | _ | _ <;> rfl

/-! ### Loops -/

theorem followedBy_within (policy : Policy) (body rest : Run σ Flow) :
    (body.within policy).followedBy rest = (do
      if (← body).under policy = .stopped then return .stopped
      rest) := by
  unfold Run.followedBy Run.within
  rw [bind_assoc]
  refine bind_congr fun flow => ?_
  rw [pure_bind]
  cases flow.under policy <;> rfl

theorem whileHolds_eq_repeating (line : Line) (condition : String) (policy : Policy)
    (body : Body σ) (limit : Nat) :
    interpreter.whileHolds line condition policy ((body policy).within policy) limit =
      interpreter.repeating line condition body policy limit := by
  induction limit with
  | zero =>
    rw [whileHolds, repeating, test_eq_branch]
    rfl
  | succ limit ih =>
    rw [whileHolds, repeating, test_eq_branch, followedBy_within, ih]

theorem inTurn_eq_iterate (var : String) (body : Body σ) (policy : Policy) (items : List String)
    (index : Nat) :
    .inTurn ((items.zipIdx index).map (forItem var ((body policy).within policy))) =
      iterate var body policy index items := by
  induction items generalizing index with
  | nil => rfl
  | cons item items ih =>
    rw [List.zipIdx_cons, List.map_cons, Run.inTurn, ih, iterate]
    unfold forItem
    rw [← followedBy_within]
    unfold Run.followedBy
    rw [bind_assoc]

/-! ### Parts of blocks -/

/-- What runs the parts of a block, as the run of lines gives it to the block. -/
def bodies (parts : List (Line × List Line)) : List (Line × Body σ) :=
  parts.map fun part => (part.1, interpreter.run part.2)

theorem chooseMarker_of_elif {condition : String} (marker : LineOf (.divides (.elif condition)))
    (lines : List Line) (others : List (Line × List Line)) (policy : Policy) :
    interpreter.chooseMarker policy (interpreter.bodies ((marker.line, lines) :: others)) =
      interpreter.test marker.line condition policy ((interpreter.run lines policy).within policy)
        (interpreter.chooseMarker policy (interpreter.bodies others)) := by
  rw [test_eq_branch, bodies, List.map_cons, chooseMarker]
  simp only [marker.reads]
  rfl

/-- Runs the part of the only marker, or else what stands for it when there is none. -/
def onlyPart (parts : List (Line × List Line)) (missing : Run σ Flow) (policy : Policy) :
    Run σ Flow :=
  match parts.head? with
  | none => missing
  | some part => (interpreter.run part.2 policy).within policy

theorem chooseMarker_of_otherwise (otherwise : Clause .otherwise) (policy : Policy) :
    interpreter.chooseMarker policy (interpreter.bodies otherwise.parts) =
      interpreter.onlyPart otherwise.parts (return .completed) policy := by
  cases otherwise with
  | absent => rfl
  | present marker body =>
    rw [Clause.parts, bodies, List.map_cons, chooseMarker]
    simp only [marker.reads]
    rfl

theorem part?_of_role {part : Line × List Line} {branch : Branch}
    (h : part.1.role = .divides branch) (others : List (Line × List Line)) :
    part? (interpreter.bodies (part :: others)) branch = some (interpreter.run part.2) := by
  simp [part?, bodies, h]

theorem part?_of_role_ne {part : Line × List Line} {branch : Branch}
    (h : part.1.role ≠ .divides branch) (others : List (Line × List Line)) :
    part? (interpreter.bodies (part :: others)) branch =
      part? (interpreter.bodies others) branch := by
  simp [part?, bodies, h]

theorem part?_catch (handler : Clause .catch) (cleanup : Clause .finally) :
    part? (interpreter.bodies (handler.parts ++ cleanup.parts)) .catch =
      handler.parts.head?.map fun part => interpreter.run part.2 := by
  cases handler with
  | absent =>
    cases cleanup with
    | absent => rfl
    | present line body => exact part?_of_role_ne _ (by rw [line.role_eq]; decide) _
  | present line body => exact part?_of_role _ line.role_eq _

theorem part?_finally (handler : Clause .catch) (cleanup : Clause .finally) :
    part? (interpreter.bodies (handler.parts ++ cleanup.parts)) .finally =
      cleanup.parts.head?.map fun part => interpreter.run part.2 := by
  have hcleanup : part? (interpreter.bodies cleanup.parts) .finally =
      cleanup.parts.head?.map fun part => interpreter.run part.2 := by
    cases cleanup with
    | absent => rfl
    | present line body => exact part?_of_role _ line.role_eq _
  cases handler with
  | absent => exact hcleanup
  | present line body =>
    exact (part?_of_role_ne _ (by rw [line.role_eq]; decide) _).trans hcleanup

theorem isSome_head?_parts (handler : Clause .catch) :
    (handler.parts.head?.map fun part => interpreter.run part.2).isSome = handler.isPresent := by
  cases handler <;> rfl

theorem handle_parts (failed : Bool) (handler : Clause .catch) (policy : Policy) :
    handle failed (handler.parts.head?.map fun part => interpreter.run part.2) policy =
      handling failed
        (interpreter.onlyPart handler.parts (return Flow.stopped.under policy) policy) := by
  cases failed with
  | false => rfl
  | true => cases handler <;> rfl

theorem cleanup_parts (cleanup : Clause .finally) (policy : Policy) (flow : Flow) :
    (match cleanup.parts.head?.map fun part => interpreter.run part.2 with
      | none => return flow
      | some cleanup =>
        return if (← cleanup policy).under policy = .stopped then .stopped else flow) =
      (interpreter.onlyPart cleanup.parts (return .completed) policy).followedBy (return flow) := by
  cases cleanup with
  | absent => rfl
  | present line body =>
    show _ = Run.followedBy (Run.within policy (interpreter.run body.lines policy)) _
    rw [followedBy_within]
    refine bind_congr fun ending => ?_
    split <;> rfl

/-- An attempt, by the clauses that give its parts. -/
theorem attempt_eq (body : Body σ) (handler : Clause .catch) (cleanup : Clause .finally)
    (policy : Policy) :
    attempt body (interpreter.bodies (handler.parts ++ cleanup.parts)) policy = (do
      let failed ← (covered handler.isPresent (body .continue)).fails
      let flow ← handling failed
        (interpreter.onlyPart handler.parts (return Flow.stopped.under policy) policy)
      (interpreter.onlyPart cleanup.parts (return .completed) policy).followedBy
        (return flow)) := by
  unfold attempt Run.fails
  simp only [part?_catch, part?_finally, isSome_head?_parts, bind_assoc, pure_bind, handle_parts]
  refine bind_congr fun before => bind_congr fun _ => bind_congr fun after => ?_
  exact bind_congr fun flow => interpreter.cleanup_parts cleanup policy flow

/-! ### Sequences -/

theorem settle_followedBy (policy next : Policy) (run : Run σ Bool) (rest : Policy → Run σ Flow) :
    Run.followedBy (do return policy.settle (← run)) (rest next) = (do
      match proceed policy (← run) next with
      | some next => rest next
      | none => return .stopped) := by
  unfold Run.followedBy
  rw [bind_assoc]
  refine bind_congr fun success => ?_
  rw [pure_bind]
  cases success <;> cases policy <;> rfl

/-- A line without a keyword runs by itself. -/
theorem run_text {line : Line} (plain : line.keyword? = none) (rest : List Line) (policy : Policy) :
    interpreter.run (line :: rest) policy =
      (interpreter.runNode (.text line plain) policy).followedBy (interpreter.run rest policy) := by
  obtain ⟨number, raw, content⟩ := line
  cases content with
  | directive => cases plain
  | blank | comment =>
    rw [run_cons_of_opening?_eq_none _ rfl]
    rfl
  | command name args =>
    have hstep : interpreter.step ⟨number, raw, .command name args⟩ policy = (do
        let success ← interpreter.command ⟨number, raw, .command name args⟩ name args
        return proceed policy success policy) := rfl
    rw [run_cons_of_opening?_eq_none _ rfl, runNode, settle_followedBy, hstep]
    exact (bind_assoc _ _ _).trans (bind_congr fun success => rfl)

/-- A directive that plays no part in the block structure runs by itself. -/
theorem run_simple {directive : Directive} (line : LineOf directive)
    (plain : directive.role = .plain) (rest : List Line) (policy : Policy) :
    interpreter.run (line.line :: rest) policy =
      (interpreter.runNode (.simple line plain) policy).followedBy
        (interpreter.run rest (directive.policyAfter policy)) := by
  obtain ⟨⟨number, raw, content⟩, reads⟩ := line
  cases content with
  | directive keyword body =>
    have hread : Directive.read keyword body = .ok directive := reads
    have hopening : Directive.opening? ⟨number, raw, .directive keyword body⟩ = none := by
      unfold Directive.opening?
      rw [reads]
      cases directive <;> first | rfl | cases plain
    rw [run_cons_of_opening?_eq_none _ hopening, runNode, settle_followedBy, step]
    simp only [hread]
    exact (bind_assoc _ _ _).trans (bind_congr fun success => rfl)
  | blank | comment | command => cases reads

/-- A block runs as its kind says, and then the lines after it. -/
theorem run_block {opening : Opening} (opener : LineOf (.opens opening)) {cut : Cut}
    (hfits : cut.Fits opening.kind) (hbody : Kept opening.kind 0 cut.body)
    (hparts : ∀ part ∈ cut.parts, Kept opening.kind 0 part.2) (policy : Policy) :
    interpreter.run (opener.line :: cut.lines) policy =
      (interpreter.block opener.line opening (interpreter.run cut.body)
        (interpreter.bodies cut.parts) policy).followedBy (interpreter.run cut.rest policy) := by
  have hopening : Directive.opening? opener.line = some opening :=
    Directive.opening?_of_ofLine opener.reads
  rw [run_cons_of_cutBlock_eq_some _ hopening (cutBlock_lines hfits hbody hparts)]
  rfl

mutual

theorem run_node (node : Node) (rest : List Line) (policy : Policy) :
    interpreter.run (node.lines ++ rest) policy =
      (interpreter.runNode node policy).followedBy
        (interpreter.run rest (node.policyAfter policy)) := by
  cases node with
  | text line plain => exact interpreter.run_text plain rest policy
  | simple line plain => exact interpreter.run_simple line plain rest policy
  | @conditional condition opener body elifs otherwise closer =>
    rw [Node.lines_conditional, interpreter.run_block opener
      (Cut.fits_conditional elifs otherwise closer) (body.kept _ _)
      (List.forall_mem_append.2 ⟨elifs.kept _ _, otherwise.kept _ _⟩)]
    refine congrArg (Run.followedBy · _) ?_
    show interpreter.conditional _ _ _ _ _ = _
    rw [conditional, ← test_eq_branch, runNode, ← run_lines body, run_elifs elifs,
      chooseMarker_of_otherwise, run_clause otherwise]
    rfl
  | @foreach var list opener body closer =>
    rw [Node.lines_foreach, interpreter.run_block opener (Cut.fits_foreach closer) (body.kept _ _)
      (fun part hpart => absurd hpart List.not_mem_nil)]
    refine congrArg (Run.followedBy · _) ?_
    show interpreter.foreach _ _ _ _ _ = _
    rw [runNode, foreach, ← run_lines body]
    simp only [inTurn_eq_iterate]
    rfl
  | @loop condition opener body closer =>
    rw [Node.lines_loop, interpreter.run_block opener (Cut.fits_loop closer) (body.kept _ _)
      (fun part hpart => absurd hpart List.not_mem_nil)]
    refine congrArg (Run.followedBy · _) ?_
    rw [runNode, ← run_lines body, whileHolds_eq_repeating]
    rfl
  | attempt opener body handler cleanup closer =>
    rw [Node.lines_attempt, interpreter.run_block opener (Cut.fits_attempt handler cleanup closer)
      (body.kept _ _) (List.forall_mem_append.2 ⟨handler.kept _ _, cleanup.kept _ _⟩)]
    refine congrArg (Run.followedBy · _) ?_
    show Interpreter.attempt _ _ _ = _
    rw [attempt_eq, runNode, ← run_lines body]
    simp only [run_clause handler, run_clause cleanup]

/-- A run of the lines of a tree is the structured run of the tree. -/
theorem run_lines (tree : Tree) (policy : Policy) :
    interpreter.run tree.lines policy = interpreter.runTree tree policy := by
  cases tree with
  | nil => exact interpreter.run_nil policy
  | cons node rest =>
    rw [Tree.lines, runTree, run_node node rest.lines policy, run_lines rest]

theorem run_elifs (elifs : Elifs) (others : List (Line × List Line)) (policy : Policy) :
    interpreter.chooseMarker policy (interpreter.bodies (elifs.parts ++ others)) =
      interpreter.runElifs elifs (interpreter.chooseMarker policy (interpreter.bodies others))
        policy := by
  cases elifs with
  | nil => rfl
  | cons marker body elifs =>
    rw [Elifs.parts, List.cons_append, chooseMarker_of_elif, run_lines body, run_elifs elifs]
    rfl

theorem run_clause {marker : Marker} (clause : Clause marker) (missing : Run σ Flow)
    (policy : Policy) :
    interpreter.onlyPart clause.parts missing policy =
      interpreter.runClause clause missing policy := by
  cases clause with
  | absent => rfl
  | present line body =>
    rw [runClause, ← run_lines body]
    rfl

end

end Interpreter

/-! ## Accepted scripts -/

/-- An accepted script has a block tree, and running its lines is the structured run of the tree: in
every state and with every dispatcher it ends the same way and leaves the same state, in which are
the variables, the world with whatever the dispatcher keeps of its calls, the results and the
counts. -/
theorem Script.exists_tree_runAll {script : Script} {limits : Limits} {warnings : List Diagnostic}
    (h : script.ensureValid limits = .ok warnings) :
    ∃ tree, Tree.ofLines? script.lines = some tree ∧ tree.lines = script.lines ∧
      ∀ {σ : Type} (interpreter : Interpreter σ) (state : State σ),
        (interpreter.runAll script.lines).apply state =
          (interpreter.runTree tree (.ofFlag interpreter.settings.continueOnError)).apply
            state := by
  obtain ⟨tree, htree, -⟩ := Validation.exists_ofLines? (accepts_of_ensureValid h)
  have hlines := Tree.lines_of_ofLines? htree
  refine ⟨tree, htree, hlines, fun interpreter state => ?_⟩
  rw [Interpreter.runAll, ← hlines, interpreter.run_lines tree]

theorem Script.exists_tree_runAll_sample :
    sample.ensureValid {} = .ok [] ∧
      ∃ tree, Tree.ofLines? sample.lines = some tree ∧ tree.lines = sample.lines ∧
        ∀ {σ : Type} (interpreter : Interpreter σ) (state : State σ),
          (interpreter.runAll sample.lines).apply state =
            (interpreter.runTree tree (.ofFlag interpreter.settings.continueOnError)).apply
              state :=
  ⟨ensureValid_sample, exists_tree_runAll ensureValid_sample⟩

end BatchScript
