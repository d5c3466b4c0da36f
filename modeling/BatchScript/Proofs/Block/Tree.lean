import BatchScript.Proofs.Block.Reading

/-!
# Block trees

A script whose blocks are nested properly is a tree: a sequence of single lines and blocks, where
each block holds the sequences between its markers. A tree keeps its lines together with what they
read as, so only well-formed blocks can be built: the `@elif` parts of a conditional stand before
its `@else`, and an attempt has at most one `@catch` and after it at most one `@finally`.

The tree of a list of lines is built by stack nesting (`Tree.ofLines?`): the lines are read from the
last one back, a terminator pushes a block, and the opener that meets it on top takes it off again.
No line is lost on the way (`lines_of_ofLines?`).
-/

namespace BatchScript

/-- A line that reads as a directive. -/
structure LineOf (directive : Directive) where
  line : Line
  reads : Directive.ofLine line = .ok directive

mutual

/-- A single line or a block. -/
inductive Node where
  | text (line : Line) (plain : line.keyword? = none)
  | simple {directive : Directive} (line : LineOf directive) (plain : directive.role = .plain)
  | conditional {condition : String} (opener : LineOf (.opens (.conditional condition)))
      (body : Tree) (elifs : Elifs) (otherwise : Clause .otherwise)
      (closer : LineOf (.closes .conditional))
  | foreach {var list : String} (opener : LineOf (.opens (.foreach var list))) (body : Tree)
      (closer : LineOf (.closes .foreach))
  | loop {condition : String} (opener : LineOf (.opens (.loop condition))) (body : Tree)
      (closer : LineOf (.closes .loop))
  | attempt (opener : LineOf (.opens .attempt)) (body : Tree) (handler : Clause .catch)
      (cleanup : Clause .finally) (closer : LineOf (.closes .attempt))

/-- A sequence of single lines and blocks. -/
inductive Tree where
  | nil
  | cons (node : Node) (rest : Tree)

/-- The parts of a conditional that `@elif` lines begin. -/
inductive Elifs where
  | nil
  | cons {condition : String} (marker : LineOf (.divides (.elif condition))) (body : Tree)
      (others : Elifs)

/-- A part of a block that may be missing, with the marker that begins it. -/
inductive Clause : Marker → Type where
  | absent {marker : Marker} : Clause marker
  | present {marker : Marker} (line : LineOf (.divides marker)) (body : Tree) : Clause marker

end

/-! ## Lines -/

mutual

/-- The lines of a node. -/
def Node.lines : Node → List Line
  | .text line _ => [line]
  | .simple line _ => [line.line]
  | .conditional opener body elifs otherwise closer =>
    opener.line :: (body.lines ++ Cut.partLines (elifs.parts ++ otherwise.parts) ++ [closer.line])
  | .foreach opener body closer | .loop opener body closer =>
    opener.line :: (body.lines ++ [closer.line])
  | .attempt opener body handler cleanup closer =>
    opener.line :: (body.lines ++ Cut.partLines (handler.parts ++ cleanup.parts) ++ [closer.line])

/-- The lines of a sequence. -/
def Tree.lines : Tree → List Line
  | .nil => []
  | .cons node rest => node.lines ++ rest.lines

/-- The parts that `@elif` lines begin, each with its marker. -/
def Elifs.parts : Elifs → List (Line × List Line)
  | .nil => []
  | .cons marker body others => (marker.line, body.lines) :: others.parts

/-- The part, if there is one, with its marker. -/
def Clause.parts : {marker : Marker} → Clause marker → List (Line × List Line)
  | _, .absent => []
  | _, .present line body => [(line.line, body.lines)]

end

/-! ### A block and the lines after it -/

section Block

variable (rest : List Line) {condition var list : String}

theorem Node.lines_conditional (opener : LineOf (.opens (.conditional condition))) (body : Tree)
    (elifs : Elifs) (otherwise : Clause .otherwise) (closer : LineOf (.closes .conditional)) :
    (Node.conditional opener body elifs otherwise closer).lines ++ rest = opener.line ::
      Cut.lines ⟨body.lines, elifs.parts ++ otherwise.parts, closer.line, rest⟩ := by
  simp [Node.lines, Cut.lines]

theorem Node.lines_foreach (opener : LineOf (.opens (.foreach var list))) (body : Tree)
    (closer : LineOf (.closes .foreach)) :
    (Node.foreach opener body closer).lines ++ rest =
      opener.line :: Cut.lines ⟨body.lines, [], closer.line, rest⟩ := by
  simp [Node.lines, Cut.lines]

theorem Node.lines_loop (opener : LineOf (.opens (.loop condition))) (body : Tree)
    (closer : LineOf (.closes .loop)) :
    (Node.loop opener body closer).lines ++ rest =
      opener.line :: Cut.lines ⟨body.lines, [], closer.line, rest⟩ := by
  simp [Node.lines, Cut.lines]

theorem Node.lines_attempt (opener : LineOf (.opens .attempt)) (body : Tree)
    (handler : Clause .catch) (cleanup : Clause .finally) (closer : LineOf (.closes .attempt)) :
    (Node.attempt opener body handler cleanup closer).lines ++ rest = opener.line ::
      Cut.lines ⟨body.lines, handler.parts ++ cleanup.parts, closer.line, rest⟩ := by
  simp [Node.lines, Cut.lines]

end Block

/-! ## Height -/

mutual

/-- The number of blocks that are nested in one another in a node. -/
def Node.height : Node → Nat
  | .text .. | .simple .. => 0
  | .conditional _ body elifs otherwise _ => max body.height (max elifs.height otherwise.height) + 1
  | .foreach _ body _ | .loop _ body _ => body.height + 1
  | .attempt _ body handler cleanup _ => max body.height (max handler.height cleanup.height) + 1

/-- The number of blocks that are nested in one another in a sequence. -/
def Tree.height : Tree → Nat
  | .nil => 0
  | .cons node rest => max node.height rest.height

/-- The number of blocks that are nested in one another in some part. -/
def Elifs.height : Elifs → Nat
  | .nil => 0
  | .cons _ body others => max body.height others.height

/-- The number of blocks that are nested in one another in the part. -/
def Clause.height : {marker : Marker} → Clause marker → Nat
  | _, .absent => 0
  | _, .present _ body => body.height

end

/-- A block of some height stands only where what it holds has room. -/
theorem exists_depth_of_succ_le {height depth : Nat} (h : height + 1 ≤ depth) :
    ∃ inner, depth = inner + 1 ∧ height ≤ inner := by
  cases depth with
  | zero => exact absurd h (Nat.not_succ_le_zero height)
  | succ inner => exact ⟨inner, rfl, Nat.le_of_succ_le_succ h⟩

/-! ## Building by stack nesting -/

/-- A block whose terminator has been read but whose opener has not, with the parts behind the
markers read so far. -/
inductive Frame where
  | conditional (elifs : Elifs) (otherwise : Clause .otherwise)
      (closer : LineOf (.closes .conditional))
  | foreach (closer : LineOf (.closes .foreach))
  | loop (closer : LineOf (.closes .loop))
  | attempt (handler : Clause .catch) (cleanup : Clause .finally)
      (closer : LineOf (.closes .attempt))

namespace Frame

/-- The block that a terminator ends. -/
def ofCloser : {kind : BlockKind} → LineOf (.closes kind) → Frame
  | .conditional, closer => .conditional .nil .absent closer
  | .foreach, closer => .foreach closer
  | .loop, closer => .loop closer
  | .attempt, closer => .attempt .absent .absent closer

/-- The block with one more part in front, if its kind has such parts and those behind it may
follow. -/
def divide? : {marker : Marker} → LineOf (.divides marker) → Tree → Frame → Option Frame
  | .elif _, line, body, .conditional elifs otherwise closer =>
    some (.conditional (.cons line body elifs) otherwise closer)
  | .otherwise, line, body, .conditional .nil .absent closer =>
    some (.conditional .nil (.present line body) closer)
  | .catch, line, body, .attempt .absent cleanup closer =>
    some (.attempt (.present line body) cleanup closer)
  | .finally, line, body, .attempt .absent .absent closer =>
    some (.attempt .absent (.present line body) closer)
  | _, _, _, _ => none

/-- The whole block, if the opener is one of its kind. -/
def open? : {opening : Opening} → LineOf (.opens opening) → Tree → Frame → Option Node
  | .conditional _, line, body, .conditional elifs otherwise closer =>
    some (.conditional line body elifs otherwise closer)
  | .foreach _ _, line, body, .foreach closer => some (.foreach line body closer)
  | .loop _, line, body, .loop closer => some (.loop line body closer)
  | .attempt, line, body, .attempt handler cleanup closer =>
    some (.attempt line body handler cleanup closer)
  | _, _, _, _ => none

/-- The lines of the block that have been read. -/
def lines : Frame → List Line
  | .conditional elifs otherwise closer =>
    Cut.partLines (elifs.parts ++ otherwise.parts) ++ [closer.line]
  | .foreach closer => [closer.line]
  | .loop closer => [closer.line]
  | .attempt handler cleanup closer =>
    Cut.partLines (handler.parts ++ cleanup.parts) ++ [closer.line]

end Frame

/-- The lines at the end of a script as far as they have been read: the sequence they begin with,
and the blocks that are still to be opened, innermost first, each with the sequence after it. -/
structure Pending where
  tree : Tree := .nil
  frames : List (Frame × Tree) := []

namespace Pending

/-- Reads a directive in front. -/
def push? (pending : Pending) : {directive : Directive} → LineOf directive → Option Pending
  | .opens _, line =>
    match pending.frames with
    | [] => none
    | (frame, after) :: frames =>
      (frame.open? line pending.tree).map fun node => ⟨.cons node after, frames⟩
  | .divides _, line =>
    match pending.frames with
    | [] => none
    | (frame, after) :: frames =>
      (frame.divide? line pending.tree).map fun frame => ⟨.nil, (frame, after) :: frames⟩
  | .closes _, line => some ⟨.nil, (.ofCloser line, pending.tree) :: pending.frames⟩
  | .set .., line | .exported .., line | .unset _, line | .echo _, line | .onError _, line =>
    some { pending with tree := .cons (.simple line rfl) pending.tree }

/-- Reads a line in front. -/
def read? (pending : Pending) (line : Line) : Option Pending :=
  if plain : line.keyword? = none then
    some { pending with tree := .cons (.text line plain) pending.tree }
  else
    match reads : Directive.ofLine line with
    | .error _ => none
    | .ok _ => pending.push? ⟨line, reads⟩

theorem read?_of_ofLine {pending : Pending} {line : Line} {directive : Directive}
    (reads : Directive.ofLine line = .ok directive) :
    pending.read? line = pending.push? ⟨line, reads⟩ := by
  obtain ⟨keyword, hkeyword⟩ := Directive.keyword?_of_ofLine reads
  unfold read?
  rw [dif_neg (by simp [hkeyword])]
  split
  next herror => simp [reads] at herror
  next directive' hreads =>
    obtain rfl : directive = directive' := by simpa [reads] using hreads
    rfl

/-- Reads lines, the last one first. -/
def ofLines? : List Line → Option Pending
  | [] => some {}
  | line :: rest => (ofLines? rest).bind (·.read? line)

/-- The lines that have been read. -/
def lines (pending : Pending) : List Line :=
  pending.tree.lines ++ pending.frames.flatMap fun (frame, after) => frame.lines ++ after.lines

end Pending

/-- The block tree of lines, if no block is open at the end. -/
def Tree.ofLines? (lines : List Line) : Option Tree :=
  match Pending.ofLines? lines with
  | some ⟨tree, []⟩ => some tree
  | _ => none

/-! ### No line is lost -/

theorem Frame.lines_ofCloser {kind : BlockKind} (closer : LineOf (.closes kind)) :
    (ofCloser closer).lines = [closer.line] := by
  cases kind <;> rfl

theorem Frame.lines_of_divide? {marker : Marker} {line : LineOf (.divides marker)} {body : Tree}
    {frame divided : Frame} (h : frame.divide? line body = some divided) :
    divided.lines = line.line :: body.lines ++ frame.lines := by
  unfold divide? at h
  split at h <;> cases h <;> simp [Frame.lines, Elifs.parts, Clause.parts]

theorem Frame.lines_of_open? {opening : Opening} {line : LineOf (.opens opening)} {body : Tree}
    {frame : Frame} {node : Node} (h : frame.open? line body = some node) :
    node.lines = line.line :: body.lines ++ frame.lines := by
  unfold open? at h
  split at h <;> cases h <;> simp [Frame.lines, Node.lines]

namespace Pending

theorem lines_of_push? {pending next : Pending} {directive : Directive} {line : LineOf directive}
    (h : pending.push? line = some next) : next.lines = line.line :: pending.lines := by
  obtain ⟨tree, frames⟩ := pending
  cases directive with
  | opens opening =>
    cases frames with
    | nil => cases h
    | cons top frames =>
      obtain ⟨node, hnode, rfl⟩ := Option.map_eq_some_iff.1 h
      simp [Pending.lines, Tree.lines, Frame.lines_of_open? hnode]
  | divides marker =>
    cases frames with
    | nil => cases h
    | cons top frames =>
      obtain ⟨frame, hframe, rfl⟩ := Option.map_eq_some_iff.1 h
      simp [Pending.lines, Tree.lines, Frame.lines_of_divide? hframe]
  | closes kind =>
    cases h
    simp [Pending.lines, Tree.lines, Frame.lines_ofCloser]
  | set | exported | unset | echo | onError =>
    cases h
    simp [Pending.lines, Tree.lines, Node.lines]

theorem lines_of_read? {pending next : Pending} {line : Line}
    (h : pending.read? line = some next) : next.lines = line :: pending.lines := by
  unfold read? at h
  split at h
  · cases h
    simp [Pending.lines, Tree.lines, Node.lines]
  · split at h
    · cases h
    · exact lines_of_push? h

theorem lines_of_ofLines? {lines : List Line} {pending : Pending}
    (h : ofLines? lines = some pending) : pending.lines = lines := by
  induction lines generalizing pending with
  | nil =>
    cases h
    rfl
  | cons line rest ih =>
    obtain ⟨inner, hinner, hread⟩ := Option.bind_eq_some_iff.1 h
    rw [lines_of_read? hread, ih hinner]

end Pending

/-- The tree of lines has exactly these lines. -/
theorem Tree.lines_of_ofLines? {lines : List Line} {tree : Tree}
    (h : Tree.ofLines? lines = some tree) : tree.lines = lines := by
  unfold Tree.ofLines? at h
  split at h
  next hpending =>
    cases h
    simpa [Pending.lines] using Pending.lines_of_ofLines? hpending
  next => cases h

end BatchScript
