import BatchScript.Fault
import BatchScript.Text.Lowercase
import BatchScript.Text.ShellWords

/-!
# Lines

A script is read line by line. A line is blank, a comment (its first character is `#`), a directive
(its first character is `@`) or a command, which is split into words. A command whose quotes do not
close is passed over like a comment and reported. Directive bodies are kept as they are written.
-/

namespace BatchScript

/-- What a line says. -/
inductive Content where
  | blank
  | comment
  | directive (keyword body : String)
  | command (name : String) (args : List String)
deriving DecidableEq, Repr

/-- A line of a script, with its number counted from one and its text as read. -/
structure Line where
  number : Nat
  raw : String
  content : Content
deriving DecidableEq, Repr

namespace Line

/-- The text of a line without the blanks around it. -/
def text (line : Line) : String :=
  Text.trimmed line.raw

/-- The keyword of a directive line, in lower case and without the `@`. -/
def keyword? (line : Line) : Option String :=
  match line.content with
  | .directive keyword _ => some keyword
  | _ => none

/-- The part a line plays in the block structure. -/
def role (line : Line) : Role :=
  match line.content with
  | .directive keyword _ => .ofKeyword keyword
  | _ => .plain

/-- Whether running the script ever does anything with the line. -/
def isExecutable (line : Line) : Bool :=
  match line.content with
  | .directive .. | .command .. => true
  | .blank | .comment => false

/-! ## Reading -/

/-- The content of a directive line, given its text after the `@`: the keyword ends at the first
blank, and the body is what follows without the blanks around it. -/
def readDirective (text : List Char) : Content :=
  .directive (.ofList (Text.lower (text.takeWhile (!Text.isBlank ·))))
    (.ofList (Text.trim (text.dropWhile (!Text.isBlank ·))))

/-- The content of a line, and what is suspicious about it. -/
def readContent (text : List Char) : Content × Option Fault :=
  match Text.trim text with
  | [] => (.blank, none)
  | '#' :: _ => (.comment, none)
  | '@' :: rest => (readDirective rest, none)
  | trimmed =>
    -- A line that is no comment has none in it either: a hash in a command is meant as it stands.
    match Text.ShellWords.split? true (Text.ShellWords.escapeHashes trimmed) with
    | some (name :: args) => (.command (.ofList name) (args.map .ofList), none)
    | some [] => (.comment, none)
    | none => (.comment, some (.untokenizable (.ofList trimmed)))

/-- Reads one line. -/
def read (number : Nat) (raw : String) : Line × Option Diagnostic :=
  let (content, fault) := readContent raw.toList
  (⟨number, raw, content⟩, fault.map (Diagnostic.warning number))

end Line

end BatchScript
