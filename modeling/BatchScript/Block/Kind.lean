/-!
# Kinds of blocks

The four block directives, with the keywords that open and close them and the branch markers that
divide their bodies.
-/

namespace BatchScript

/-- A block directive. -/
inductive BlockKind where
  | conditional
  | foreach
  | loop
  | attempt
deriving DecidableEq, Repr

/-- A marker that divides the body of a block. -/
inductive Branch where
  | elif
  | otherwise
  | catch
  | finally
deriving DecidableEq, Repr

namespace BlockKind

/-- Every kind of block. -/
def all : List BlockKind :=
  [.conditional, .foreach, .loop, .attempt]

/-- The keyword that opens a block of the kind. -/
def opener : BlockKind → String
  | .conditional => "if"
  | .foreach => "foreach"
  | .loop => "while"
  | .attempt => "try"

/-- The keyword that closes a block of the kind. -/
def terminator : BlockKind → String
  | .conditional => "endif"
  | .foreach => "endforeach"
  | .loop => "endwhile"
  | .attempt => "endtry"

/-- The markers that may divide a block of the kind. -/
def branches : BlockKind → List Branch
  | .conditional => [.elif, .otherwise]
  | .attempt => [.catch, .finally]
  | .foreach | .loop => []

/-- The kind that a keyword opens. -/
def ofOpener? (keyword : String) : Option BlockKind :=
  all.find? (·.opener == keyword)

/-- The kind that a keyword closes. -/
def ofTerminator? (keyword : String) : Option BlockKind :=
  all.find? (·.terminator == keyword)

/-- The kind as messages name it. -/
def display (kind : BlockKind) : String :=
  "@" ++ kind.opener

end BlockKind

namespace Branch

/-- Every branch marker. -/
def all : List Branch :=
  [.elif, .otherwise, .catch, .finally]

/-- The keyword of a marker. -/
def keyword : Branch → String
  | .elif => "elif"
  | .otherwise => "else"
  | .catch => "catch"
  | .finally => "finally"

/-- The kind of block that a marker divides. -/
def kind : Branch → BlockKind
  | .elif | .otherwise => .conditional
  | .catch | .finally => .attempt

/-- The marker with a keyword. -/
def ofKeyword? (keyword : String) : Option Branch :=
  all.find? (·.keyword == keyword)

end Branch

/-- The part a line plays in the block structure of a script. -/
inductive Role where
  | plain
  | opens (kind : BlockKind)
  | divides (branch : Branch)
  | closes (kind : BlockKind)
deriving DecidableEq, Repr

/-- The role of a directive, by its keyword alone. -/
def Role.ofKeyword (keyword : String) : Role :=
  match BlockKind.ofOpener? keyword, Branch.ofKeyword? keyword, BlockKind.ofTerminator? keyword with
  | some kind, _, _ => .opens kind
  | none, some branch, _ => .divides branch
  | none, none, some kind => .closes kind
  | none, none, none => .plain

end BatchScript
