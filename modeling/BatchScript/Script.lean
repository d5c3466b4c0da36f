import BatchScript.Line

/-!
# Scripts

A parsed script: its lines in order, and the diagnostics that reading them gave. Reading never
fails. A byte-order mark at the start of the text is dropped, and lines end with a line feed or with
a carriage return and a line feed.
-/

namespace BatchScript

/-- The lines of a script and what reading them reported. -/
structure Script where
  lines : List Line
  diagnostics : List Diagnostic
deriving DecidableEq, Repr

namespace Script

/-- The text after a byte-order mark, if it starts with one. -/
def dropMark : List Char → List Char
  | '\ufeff' :: text => text
  | text => text

/-- Reads lines that are numbered from `first` on. -/
def readLines (first : Nat) : List (List Char) → List (Line × Option Diagnostic)
  | [] => []
  | raw :: rest => Line.read first (.ofList raw) :: readLines (first + 1) rest

/-- The script that a text holds. -/
def ofChars (text : List Char) : Script :=
  let read := readLines 1 (Text.lines (dropMark text))
  ⟨read.map (·.1), read.filterMap (·.2)⟩

/-- The script that a string holds. -/
def parse (text : String) : Script :=
  ofChars text.toList

end Script

end BatchScript
