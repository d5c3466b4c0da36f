import BatchScript.Proofs.Execution.Descent
import BatchScript.Proofs.Execution.Exits

/-!
# Journals of runs

A run of a range is a sequence of visits: of lines that are run by themselves, and of lines because of
which a block is refused. Between two visits only the variables and the number of attempts change
(`Journal`). The lines that are visited are those that the range comes to, by itself or in the ranges
that its blocks run (`Comes`), each as often as it is come to. That every run has such a journal
(`recounted`) is all that needs to be known of blocks where it is told what a run has recorded.
-/

namespace BatchScript

variable {σ : Type}

/-! ## Markers -/

/-- Only markers divide the parts of a block. -/
theorem Cut.divides_of_mem_parts {kind : BlockKind} {depth : Nat} {all : List Line} {cut : Cut}
    (h : cutBlock kind depth all = some cut) {part : Line × List Line} (hpart : part ∈ cut.parts) :
    part.1.divides kind = true := by
  fun_induction cutBlock kind depth all generalizing cut with
  | case1 => cases h
  | case3 =>
    cases h
    cases hpart
  | case5 depth line rest _ _ hmarker ih =>
    obtain ⟨inner, hinner, rfl⟩ := Option.map_eq_some_iff.1 h
    rcases List.mem_cons.1 hpart with rfl | hpart
    · exact (Bool.and_eq_true _ _ ▸ hmarker).2
    · exact ih hinner hpart
  | case2 _ _ _ _ ih | case4 _ _ _ _ _ ih | case6 _ _ _ _ _ _ ih =>
    obtain ⟨inner, hinner, rfl⟩ := Option.map_eq_some_iff.1 h
    exact ih hinner hpart

/-- Whatever the lines are, the branches of a block that is found stand at markers. -/
theorem Span.role_ne_plain_of_find {lines : List Line} {opener stop : Nat} {span : Span}
    (h : find lines opener stop = .ok span) {marker : Nat} (hmarker : marker ∈ span.branches)
    {line : Line} (hline : lines[marker]? = some line) : line.role ≠ .plain := by
  obtain ⟨_, kind, cut, hopener, -, hcut, rfl⟩ := exists_cut_of_find h
  have hbefore : opener < stop := by
    have hsegment := segment_bounds h (.inr hmarker)
    have hterminator := terminator_lt h
    omega
  have hmem : (lines[marker]?, slice lines (marker + 1)
      ((ofCut kind opener cut).segmentEnd marker)) ∈ cut.parts.map fun part => (some part.1, part.2) :=
    slices_parts kind hbefore (Cut.lines_cut hcut).symm ▸ List.mem_map.2 ⟨marker, hmarker, rfl⟩
  obtain ⟨part, hpart, heq⟩ := List.mem_map.1 hmem
  have hfirst : some part.1 = lines[marker]? := congrArg Prod.fst heq
  obtain rfl : part.1 = line := Option.some.inj (hfirst.trans hline)
  have hdivides := Cut.divides_of_mem_parts hcut hpart
  intro hplain
  unfold Line.divides at hdivides
  rw [hplain] at hdivides
  cases hdivides

/-! ## Journals -/

/-- Only the variables and the number of attempts that are being run differ. -/
def State.Quiet (before after : State σ) : Prop :=
  after = { before with vars := after.vars, catchDepth := after.catchDepth }

namespace State.Quiet

variable {before between after : State σ}

theorem refl (state : State σ) : Quiet state state := rfl

theorem trans (h : Quiet before between) (h' : Quiet between after) : Quiet before after := by
  unfold Quiet at h h' ⊢
  rw [h', h]

theorem results (h : Quiet before after) : after.results = before.results := by rw [h]

theorem world (h : Quiet before after) : after.world = before.world := by rw [h]

end State.Quiet

/-- What a run does at one line: it runs the line, or it refuses a block because of the line. -/
inductive Visit (σ : Type) where
  | run (line : Line) (state : State σ)
  | refusal (line : Line) (failure : Failure) (state : State σ)

/-- The state in which a line is visited. -/
def Visit.state : Visit σ → State σ
  | .run _ state | .refusal _ _ state => state

namespace Interpreter

variable (interpreter : Interpreter σ)

/-- The state after a visit. -/
def leave : Visit σ → State σ
  | .run line state => ((interpreter.act line).apply state).2
  | .refusal line failure state => ((interpreter.reject line failure).apply state).2

/-- From one state the run has come to another one by these visits. -/
inductive Journal : (before : State σ) → List (Visit σ) → (after : State σ) → Prop where
  | done {before after : State σ} (h : before.Quiet after) : Journal before [] after
  | visit {before after : State σ} {visit : Visit σ} {visits : List (Visit σ)}
      (h : before.Quiet visit.state) (hrest : Journal (interpreter.leave visit) visits after) :
      Journal before (visit :: visits) after

variable {interpreter} {before between after : State σ} {visits first last : List (Visit σ)}

namespace Journal

theorem quiet_before (h : before.Quiet between) (h' : interpreter.Journal between visits after) :
    interpreter.Journal before visits after := by
  cases h' with
  | done hdone => exact .done (h.trans hdone)
  | visit hvisit hrest => exact .visit (h.trans hvisit) hrest

theorem append (h : interpreter.Journal before first between)
    (h' : interpreter.Journal between last after) : interpreter.Journal before (first ++ last) after := by
  induction h with
  | done hdone => exact h'.quiet_before hdone
  | visit hvisit _ ih => exact .visit hvisit (ih h')

theorem quiet_after (h : interpreter.Journal before visits between) (h' : between.Quiet after) :
    interpreter.Journal before visits after :=
  List.append_nil visits ▸ h.append (.done h')

end Journal

/-! ## Lines that a range comes to -/

variable (interpreter) (lines : List Line)

/-- The state in which the run of a range ends, whatever comes of it. -/
def ended (activation : Activation σ) : State σ :=
  ((interpreter.runRange lines activation.start activation.stop activation.policy).apply
    activation.state).2

/-- In its run a range comes to a line that opens no block: at once, inside the block that it begins
with, or after a first turn that is completed. -/
inductive Comes (line : Line) (arrival : State σ) : Activation σ → Prop where
  | here {start stop : Nat} {policy : Policy} (hstart : start < stop) (hline : lines[start]? = some line)
      (hopening : Directive.opening? line = none) : Comes line arrival ⟨start, stop, policy, arrival⟩
  | inside {start stop : Nat} {policy : Policy} {state : State σ} {opener : Line} {opening : Opening}
      {span : Span} {inner : Activation σ} (hstart : start < stop) (hline : lines[start]? = some opener)
      (hopening : Directive.opening? opener = some opening)
      (hfind : Span.find lines start stop = .ok span)
      (hmem : inner ∈ interpreter.activations lines start span opener opening policy state)
      (h : Comes line arrival inner) : Comes line arrival ⟨start, stop, policy, state⟩
  | later {start stop next : Nat} {policy : Policy} {state between : State σ} {passed : Line}
      {run : Body σ} (hturn : interpreter.Turn lines stop start passed run next)
      (hrun : (run policy).apply state = (.ok .completed, between))
      (h : Comes line arrival ⟨next, stop, passed.onError?.getD policy, between⟩) :
      Comes line arrival ⟨start, stop, policy, state⟩

/-- The visits are those of the lines that the activations come to, and refusals because of openers and
markers. -/
structure Lists (activations : List (Activation σ)) (visits : List (Visit σ)) : Prop where
  mem_iff : ∀ line state, .run line state ∈ visits ↔
    ∃ activation ∈ activations, interpreter.Comes lines line state activation
  refused : ∀ line failure state, .refusal line failure state ∈ visits →
    line ∈ lines ∧ line.role ≠ .plain

/-- The run has come from one state to the other one by the visits of the activations. -/
def Recounted (activations : List (Activation σ)) (before after : State σ) : Prop :=
  ∃ visits, interpreter.Lists lines activations visits ∧ interpreter.Journal before visits after

variable {interpreter lines} {activations others : List (Activation σ)} {line : Line}

theorem Lists.nil : interpreter.Lists lines [] [] where
  mem_iff _ _ := by simp
  refused _ _ _ := nofun

theorem Lists.append (h : interpreter.Lists lines activations first)
    (h' : interpreter.Lists lines others last) :
    interpreter.Lists lines (activations ++ others) (first ++ last) where
  mem_iff line state := by
    rw [List.mem_append, h.mem_iff, h'.mem_iff]
    simp only [List.mem_append, or_and_right, exists_or]
  refused line failure state hmem :=
    (List.mem_append.1 hmem).elim (h.refused line failure state) (h'.refused line failure state)

/-- A refusal because of a line that belongs to a block. -/
theorem Lists.refusal (hline : line ∈ lines) (hrole : line.role ≠ .plain) (failure : Failure)
    (state : State σ) : interpreter.Lists lines [] [.refusal line failure state] where
  mem_iff _ _ := by simp
  refused _ _ _ hmem := by
    cases List.mem_singleton.1 hmem
    exact ⟨hline, hrole⟩

namespace Recounted

theorem refl (state : State σ) : interpreter.Recounted lines [] state state :=
  ⟨[], .nil, .done (.refl state)⟩

theorem append (h : interpreter.Recounted lines activations before between)
    (h' : interpreter.Recounted lines others between after) :
    interpreter.Recounted lines (activations ++ others) before after := by
  obtain ⟨first, hfirst, hbetween⟩ := h
  obtain ⟨last, hlast, hafter⟩ := h'
  exact ⟨first ++ last, hfirst.append hlast, hbetween.append hafter⟩

theorem quiet {before' after' : State σ} (h : interpreter.Recounted lines activations before after)
    (hbefore : before'.Quiet before) (hafter : after.Quiet after') :
    interpreter.Recounted lines activations before' after' := by
  obtain ⟨visits, hlists, hjournal⟩ := h
  exact ⟨visits, hlists, (hjournal.quiet_before hbefore).quiet_after hafter⟩

end Recounted

/-! ## Blocks -/

variable {position start stop : Nat} {span : Span} {opening : Opening}

theorem exists_of_mem_notedSegments {part : Line × Body (σ × List (Activation σ))}
    (h : part ∈ interpreter.notedSegments lines span) :
    ∃ marker ∈ span.branches, lines[marker]? = some part.1 ∧
      interpreter.notedRange lines (marker + 1) (span.segmentEnd marker) = part.2 := by
  obtain ⟨marker, hmarker, hpart⟩ := List.mem_filterMap.1 h
  obtain ⟨line, hline, rfl⟩ := Option.map_eq_some_iff.1 hpart
  exact ⟨marker, hmarker, hline, rfl⟩

variable (interpreter lines start stop) in
/-- A range records the same when its run is noted. -/
theorem keeps_notedRange (policy : Policy) :
    (interpreter.notedRange lines start stop policy).Keeps (.ofStates fun _ _ => True) := by
  intro state
  have hkeeps : (interpreter.runRange lines start stop policy).Keeps (.ofStates fun _ _ => True) :=
    framing_true.keeps_run (fun _ _ => trivial) _ (fun _ _ _ => trivial) policy
  obtain ⟨new, hrecords, -⟩ := hkeeps state.plain
  exact ⟨new, ⟨hrecords.results, hrecords.failures, hrecords.catchDepth⟩, trivial⟩

/-- A relation that blocks leave alone holds of a block, with the activations of its segments beside
the state after it, if it holds of refusals and of the segments with their runs noted. -/
theorem framing_beside_blockOn
    {related : State (σ × List (Activation σ)) → State (σ × List (Activation σ)) → Prop}
    (framing : Framing related)
    (hreject : ∀ other, (other = line ∨ ∃ marker ∈ span.branches, lines[marker]? = some other) →
      ∀ failure, (interpreter.noting.reject other failure).Leaves related)
    (hrange : ∀ marker, (marker = position ∨ marker ∈ span.branches) → ∀ policy,
      (interpreter.notedRange lines (marker + 1) (span.segmentEnd marker) policy).Leaves related)
    (policy : Policy) (state : State σ) :
    related (state.beside [])
      (((interpreter.blockOn lines position span line opening policy).apply state).2.beside
        (interpreter.activations lines position span line opening policy state)) := by
  have hfail : ∀ other, (other = line ∨ ∃ marker ∈ span.branches, lines[marker]? = some other) →
      ∀ failure, (interpreter.noting.failBlock other failure policy).Keeps (.ofStates related) :=
    fun other hother failure => (interpreter.noting.keeps_failBlock other policy failure).ofStates
      (framing.leaves_bind (hreject other hother failure) fun _ => framing.leaves_pure _)
  have hsegment : ∀ marker, (marker = position ∨ marker ∈ span.branches) → ∀ policy,
      (interpreter.notedRange lines (marker + 1) (span.segmentEnd marker) policy).Keeps
        (.ofStates related) := fun marker hmarker policy =>
    (interpreter.keeps_notedRange lines _ _ policy).ofStates (hrange marker hmarker policy)
  have hparts : ∀ part ∈ interpreter.notedSegments lines span, ∀ policy,
      (part.2 policy).Keeps (.ofStates related) := by
    intro part hpart policy
    obtain ⟨marker, hmarker, -, hrun⟩ := exists_of_mem_notedSegments hpart
    exact hrun ▸ hsegment marker (.inr hmarker) policy
  have hkeeps : (interpreter.notingBlockOn lines position span line opening policy).Keeps
      (.ofStates related) := by
    refine (framing.lawful policy).keeps_block (hfail line (.inl rfl)) (fun part hpart => ?_)
      (fun _ => hsegment position (.inl rfl) policy) (fun part hpart => hparts part hpart policy)
      fun _ => framing.keeps_attempt (hsegment position (.inl rfl)) hparts
    obtain ⟨marker, hmarker, hline, -⟩ := exists_of_mem_notedSegments hpart
    exact hfail part.1 (.inr ⟨marker, hmarker, hline⟩)
  have hrelated := hkeeps.leaves (state.beside [])
  rwa [(interpreter.noting_block lines position span line opening policy state).1] at hrelated

variable (interpreter lines) in
/-- The activations that were noted between two states recount what has happened. -/
def Notes (before after : State (σ × List (Activation σ))) : Prop :=
  ∃ new, after.world.state.2 = before.world.state.2 ++ new ∧
    interpreter.Recounted lines new before.plain after.plain

variable (interpreter lines) in
theorem framing_notes : Framing (interpreter.Notes lines) where
  refl state := ⟨[], (List.append_nil _).symm, .refl _⟩
  trans := by
    rintro before between after ⟨first, hfirst, hbetween⟩ ⟨last, hlast, hafter⟩
    exact ⟨first ++ last, by rw [hlast, hfirst, List.append_assoc], hbetween.append hafter⟩
  script := by
    rintro before after ⟨new, hnew, hrecounted⟩ first last
    exact ⟨new, hnew, hrecounted.quiet rfl rfl⟩
  cover := by
    rintro before after ⟨new, hnew, hrecounted⟩
    exact ⟨new, hnew, hrecounted.quiet rfl rfl⟩

variable (interpreter opening) in
/-- A block does what its segments do, one run after the other, if these are recounted. -/
theorem recounted_block (hline : line ∈ lines) (hrole : line.role ≠ .plain)
    (hmarkers : ∀ marker ∈ span.branches, ∀ other, lines[marker]? = some other → other.role ≠ .plain)
    (hsegments : ∀ marker, (marker = position ∨ marker ∈ span.branches) → ∀ policy state,
      interpreter.Recounted lines [⟨marker + 1, span.segmentEnd marker, policy, state⟩] state
        (interpreter.ended lines ⟨marker + 1, span.segmentEnd marker, policy, state⟩))
    (policy : Policy) (state : State σ) :
    interpreter.Recounted lines
      (interpreter.activations lines position span line opening policy state) state
      ((interpreter.blockOn lines position span line opening policy).apply state).2 := by
  have hreject : ∀ other, (other = line ∨ ∃ marker ∈ span.branches, lines[marker]? = some other) →
      ∀ failure, (interpreter.noting.reject other failure).Leaves (interpreter.Notes lines) := by
    intro other hother failure state
    have hbelongs : other ∈ lines ∧ other.role ≠ .plain := by
      obtain rfl | ⟨marker, hmarker, hother⟩ := hother
      · exact ⟨hline, hrole⟩
      · exact ⟨List.mem_of_getElem? hother, hmarkers marker hmarker other hother⟩
    have happly : ((interpreter.noting.reject other failure).apply state).2 =
        ((interpreter.reject other failure).apply state.plain).2.beside state.world.state.2 :=
      State.record_beside _ _ state.plain state.world.state.2
    rw [happly]
    exact ⟨[], (List.append_nil _).symm, [.refusal other failure state.plain],
      .refusal hbelongs.1 hbelongs.2 _ _, .visit rfl (.done rfl)⟩
  have hrange : ∀ marker, (marker = position ∨ marker ∈ span.branches) → ∀ policy,
      (interpreter.notedRange lines (marker + 1) (span.segmentEnd marker) policy).Leaves
        (interpreter.Notes lines) := fun marker hmarker policy state =>
    ⟨[⟨_, _, policy, state.plain⟩], rfl, hsegments marker hmarker policy state.plain⟩
  obtain ⟨new, hnew, hrecounted⟩ := framing_beside_blockOn (interpreter.framing_notes lines)
    hreject hrange policy state
  obtain rfl : interpreter.activations lines position span line opening policy state = new := hnew
  exact hrecounted

/-! ## Turns -/

variable {next : Nat} {policy : Policy} {state arrival : State σ} {passed : Line} {run : Body σ}

theorem Turn.unique (h : interpreter.Turn lines stop start passed run next) {passed' : Line}
    {run' : Body σ} {next' : Nat} (h' : interpreter.Turn lines stop start passed' run' next') :
    passed' = passed ∧ run' = run ∧ next' = next := by
  cases h with
  | line hposition hline hopening =>
    cases h' with
    | line _ hline' _ =>
      cases hline.symm.trans hline'
      exact ⟨rfl, rfl, rfl⟩
    | block _ hline' hopening' =>
      cases hline.symm.trans hline'
      cases hopening.symm.trans hopening'
  | block hposition hline hopening hfind =>
    cases h' with
    | line _ hline' hopening' =>
      cases hline.symm.trans hline'
      cases hopening.symm.trans hopening'
    | block _ hline' hopening' hfind' =>
      cases hline.symm.trans hline'
      cases hopening.symm.trans hopening'
      cases hfind.symm.trans hfind'
      exact ⟨rfl, rfl, rfl⟩

variable (next stop policy) in
/-- The activation that goes on after a turn, if the turn is completed. -/
def goesOn : Except Failure Flow × State σ → List (Activation σ)
  | (.ok .completed, between) => [⟨next, stop, policy, between⟩]
  | _ => []

theorem mem_goesOn {activation : Activation σ} {outcome : Except Failure Flow × State σ} :
    activation ∈ goesOn stop next policy outcome ↔
      ∃ between, outcome = (.ok .completed, between) ∧ activation = ⟨next, stop, policy, between⟩ := by
  rcases outcome with ⟨failure | _ | _, between⟩ <;> simp [goesOn]

/-- What a range does after its first turn is recounted if all that it may go on with is. -/
theorem recounted_goesOn (hturn : interpreter.Turn lines stop start passed run next)
    (hrest : ∀ policy state, interpreter.Recounted lines [⟨next, stop, policy, state⟩] state
      (interpreter.ended lines ⟨next, stop, policy, state⟩)) (policy : Policy) (state : State σ) :
    interpreter.Recounted lines
      (goesOn stop next (passed.onError?.getD policy) ((run policy).apply state))
      ((run policy).apply state).2 (interpreter.ended lines ⟨start, stop, policy, state⟩) := by
  unfold ended
  dsimp only
  rw [hturn.runRange_eq, Run.followedBy, Run.bind_apply]
  rcases (run policy).apply state with ⟨failure | _ | _, between⟩
  · exact .refl between
  · exact hrest _ between
  · exact .refl between

/-- A range that begins with a line that opens no block comes to this line, and to those that the rest
of the range comes to. -/
theorem comes_iff_of_line (hstart : start < stop) (hline : lines[start]? = some passed)
    (hopening : Directive.opening? passed = none) :
    interpreter.Comes lines line arrival ⟨start, stop, policy, state⟩ ↔
      (line = passed ∧ arrival = state) ∨
      ∃ activation ∈ goesOn stop (start + 1) (passed.onError?.getD policy)
        ((interpreter.runLine passed policy).apply state),
        interpreter.Comes lines line arrival activation := by
  have hturn : interpreter.Turn lines stop start passed _ _ := .line hstart hline hopening
  constructor
  · intro h
    cases h with
    | here _ hline' =>
      cases hline.symm.trans hline'
      exact .inl ⟨rfl, rfl⟩
    | inside _ hline' hopening' =>
      cases hline.symm.trans hline'
      cases hopening.symm.trans hopening'
    | later hturn' hrun h =>
      obtain ⟨rfl, rfl, rfl⟩ := hturn.unique hturn'
      exact .inr ⟨_, mem_goesOn.2 ⟨_, hrun, rfl⟩, h⟩
  · rintro (⟨rfl, rfl⟩ | ⟨activation, hmem, h⟩)
    · exact .here hstart hline hopening
    · obtain ⟨between, hrun, rfl⟩ := mem_goesOn.1 hmem
      exact .later hturn hrun h

/-- A range that begins with a block comes to the lines that its segments come to, and to those that the
rest of the range comes to. -/
theorem comes_iff_of_block (hstart : start < stop) (hline : lines[start]? = some passed)
    (hopening : Directive.opening? passed = some opening)
    (hfind : Span.find lines start stop = .ok span) :
    interpreter.Comes lines line arrival ⟨start, stop, policy, state⟩ ↔
      (∃ activation ∈ interpreter.activations lines start span passed opening policy state,
        interpreter.Comes lines line arrival activation) ∨
      ∃ activation ∈ goesOn stop (span.terminator + 1) (passed.onError?.getD policy)
        ((interpreter.blockOn lines start span passed opening policy).apply state),
        interpreter.Comes lines line arrival activation := by
  have hturn : interpreter.Turn lines stop start passed _ _ := .block hstart hline hopening hfind
  constructor
  · intro h
    cases h with
    | here _ hline' hopening' =>
      cases hline.symm.trans hline'
      cases hopening.symm.trans hopening'
    | inside _ hline' hopening' hfind' hmem h =>
      cases hline.symm.trans hline'
      cases hopening.symm.trans hopening'
      cases hfind.symm.trans hfind'
      exact .inl ⟨_, hmem, h⟩
    | later hturn' hrun h =>
      obtain ⟨rfl, rfl, rfl⟩ := hturn.unique hturn'
      exact .inr ⟨_, mem_goesOn.2 ⟨_, hrun, rfl⟩, h⟩
  · rintro (⟨activation, hmem, h⟩ | ⟨activation, hmem, h⟩)
    · exact .inside hstart hline hopening hfind hmem h
    · obtain ⟨between, hrun, rfl⟩ := mem_goesOn.1 hmem
      exact .later hturn hrun h

/-- A range that takes no turn comes to no line. -/
theorem not_comes (h : ∀ passed run next, ¬ interpreter.Turn lines stop start passed run next) :
    ¬ interpreter.Comes lines line arrival ⟨start, stop, policy, state⟩ := by
  intro hcomes
  cases hcomes with
  | here hstart hline hopening => exact h _ _ _ (.line hstart hline hopening)
  | inside hstart hline hopening hfind => exact h _ _ _ (.block hstart hline hopening hfind)
  | later hturn => exact h _ _ _ hturn

/-! ## Ranges -/

theorem Lists.of_iff (h : interpreter.Lists lines activations visits) {whole : Activation σ}
    (hiff : ∀ line arrival, interpreter.Comes lines line arrival whole ↔
      ∃ activation ∈ activations, interpreter.Comes lines line arrival activation) :
    interpreter.Lists lines [whole] visits where
  mem_iff line arrival := by
    rw [h.mem_iff, ← hiff]
    simp
  refused := h.refused

theorem Lists.run_cons (h : interpreter.Lists lines activations visits) {whole : Activation σ}
    (hiff : ∀ line arrival, interpreter.Comes lines line arrival whole ↔
      (line = passed ∧ arrival = state) ∨
        ∃ activation ∈ activations, interpreter.Comes lines line arrival activation) :
    interpreter.Lists lines [whole] (.run passed state :: visits) where
  mem_iff line arrival := by
    rw [List.mem_cons, Visit.run.injEq, h.mem_iff, ← hiff]
    simp
  refused line failure arrival hmem := by
    rcases List.mem_cons.1 hmem with heq | hmem
    · cases heq
    · exact h.refused line failure arrival hmem

variable (interpreter passed policy state) in
theorem state_runLine : ((interpreter.runLine passed policy).apply state).2 =
    ((interpreter.act passed).apply state).2 := by
  unfold runLine
  rw [Run.bind_apply]
  rcases (interpreter.act passed).apply state with ⟨failure | success, after⟩ <;> rfl

/-- A range that takes no turn stays in the state that it starts in. -/
theorem ended_eq_of_no_turn (h : ¬ ∃ passed run next, interpreter.Turn lines stop start passed run next)
    (policy : Policy) (state : State σ) :
    interpreter.ended lines ⟨start, stop, policy, state⟩ = state := by
  unfold ended
  dsimp only
  rcases interpreter.exists_turn_or lines stop start with hturn | hend | ⟨failure, hfails⟩
  · exact absurd hturn h
  · rw [interpreter.runRange_at_end hend]
    rfl
  · rw [hfails]
    rfl

theorem recounted_of_no_turn
    (h : ¬ ∃ passed run next, interpreter.Turn lines stop start passed run next) (policy : Policy)
    (state : State σ) :
    interpreter.Recounted lines [⟨start, stop, policy, state⟩] state
      (interpreter.ended lines ⟨start, stop, policy, state⟩) := by
  rw [ended_eq_of_no_turn h]
  refine ⟨[], .of_iff .nil fun line arrival => ?_, .done (.refl state)⟩
  have hnone : ¬ interpreter.Comes lines line arrival ⟨start, stop, policy, state⟩ :=
    not_comes fun passed run next hturn => h ⟨passed, run, next, hturn⟩
  simp [hnone]

theorem recounted_of_line (hstart : start < stop) (hline : lines[start]? = some passed)
    (hopening : Directive.opening? passed = none)
    (hrest : interpreter.Recounted lines
      (goesOn stop (start + 1) (passed.onError?.getD policy)
        ((interpreter.runLine passed policy).apply state))
      ((interpreter.runLine passed policy).apply state).2 after) :
    interpreter.Recounted lines [⟨start, stop, policy, state⟩] state after := by
  obtain ⟨visits, hlists, hjournal⟩ := hrest
  rw [state_runLine] at hjournal
  exact ⟨_, hlists.run_cons fun _ _ => comes_iff_of_line hstart hline hopening, .visit rfl hjournal⟩

theorem recounted_of_block (hstart : start < stop) (hline : lines[start]? = some passed)
    (hopening : Directive.opening? passed = some opening)
    (hfind : Span.find lines start stop = .ok span)
    (hblock : interpreter.Recounted lines
      (interpreter.activations lines start span passed opening policy state) state
      ((interpreter.blockOn lines start span passed opening policy).apply state).2)
    (hrest : interpreter.Recounted lines
      (goesOn stop (span.terminator + 1) (passed.onError?.getD policy)
        ((interpreter.blockOn lines start span passed opening policy).apply state))
      ((interpreter.blockOn lines start span passed opening policy).apply state).2 after) :
    interpreter.Recounted lines [⟨start, stop, policy, state⟩] state after := by
  obtain ⟨visits, hlists, hjournal⟩ := hblock.append hrest
  refine ⟨visits, hlists.of_iff fun line arrival => ?_, hjournal⟩
  rw [comes_iff_of_block hstart hline hopening hfind]
  simp only [List.mem_append, or_and_right, exists_or]

/-- Every run of a range has a journal of the lines that it comes to. -/
theorem recounted (activation : Activation σ) :
    interpreter.Recounted lines [activation] activation.state
      (interpreter.ended lines activation) := by
  -- What is left after a turn is shorter, and so are the segments of a block.
  induction hsize : activation.stop - activation.start using Nat.strongRecOn
    generalizing activation with
  | ind size ih =>
  obtain ⟨start, stop, policy, state⟩ := activation
  subst hsize
  dsimp only at ih ⊢
  by_cases hturn : ∃ passed run next, interpreter.Turn lines stop start passed run next
  · obtain ⟨passed, run, next, hturn⟩ := hturn
    have hlt := hturn.lt
    have hrest := recounted_goesOn hturn
      (fun policy state => ih (stop - next) (by omega) ⟨next, stop, policy, state⟩ rfl) policy state
    cases hturn with
    | line hstart hline hopening => exact recounted_of_line hstart hline hopening hrest
    | @block opening span hstart hline hopening hfind =>
      refine recounted_of_block hstart hline hopening hfind ?_ hrest
      have hopener : passed.role ≠ .plain := by simp [Directive.role_of_opening? hopening]
      refine interpreter.recounted_block opening (List.mem_of_getElem? hline) hopener
        (fun marker hmarker other hother => Span.role_ne_plain_of_find hfind hmarker hother)
        (fun marker hmarker policy state => ?_) policy state
      have hsegment := Span.segment_bounds hfind hmarker
      have hterminator := Span.terminator_lt hfind
      exact ih (span.segmentEnd marker - (marker + 1)) (by omega) ⟨_, _, policy, state⟩ rfl
  · exact recounted_of_no_turn hturn policy state

end Interpreter

/-! ### One after the other -/

/-- A range of lines and the policy that it is run under. -/
structure LineRange where
  start : Nat
  stop : Nat
  policy : Policy

/-- The run of the range from a state on. -/
def LineRange.entered (range : LineRange) (state : State σ) : Activation σ :=
  ⟨range.start, range.stop, range.policy, state⟩

namespace Interpreter

variable (interpreter : Interpreter σ) (lines : List Line)

/-- The state after ranges were run one after the other, whatever came of each. -/
def endedAll (ranges : List LineRange) (state : State σ) : State σ :=
  ranges.foldl (fun state range => interpreter.ended lines (range.entered state)) state

/-- The activations of ranges that are run one after the other. -/
def entered : List LineRange → State σ → List (Activation σ)
  | [], _ => []
  | range :: rest, state =>
    range.entered state :: entered rest (interpreter.ended lines (range.entered state))

theorem endedAll_append (ranges more : List LineRange) (state : State σ) :
    interpreter.endedAll lines (ranges ++ more) state =
      interpreter.endedAll lines more (interpreter.endedAll lines ranges state) :=
  List.foldl_append

theorem recounted_all (ranges : List LineRange) (state : State σ) :
    interpreter.Recounted lines (interpreter.entered lines ranges state) state
      (interpreter.endedAll lines ranges state) := by
  induction ranges generalizing state with
  | nil => exact .refl state
  | cons range rest ih =>
    have hrange : interpreter.Recounted lines [range.entered state] state
        (interpreter.ended lines (range.entered state)) := recounted (range.entered state)
    exact hrange.append (ih _)

end Interpreter

end BatchScript
