/-!
# Blank characters and pieces of text

Texts are read as lists of characters. This module holds the characters of the Unicode property
`White_Space`, trimming by that property, and the one way in which texts are cut into pieces:

* `pieces p` cuts at every character that satisfies `p` and always yields at least one piece;
* `words` are the non-empty pieces between blanks;
* `lines` are the pieces between line feeds, where a line feed also ends the last line and a
  carriage return before a line feed belongs to the line end.
-/

namespace BatchScript.Text

/-- The characters of the Unicode property `White_Space`. -/
def isBlank (c : Char) : Bool :=
  let n := c.toNat
  (0x9 ≤ n && n ≤ 0xD) || n == 0x20 || n == 0x85 || n == 0xA0 || n == 0x1680 ||
    (0x2000 ≤ n && n ≤ 0x200A) || n == 0x2028 || n == 0x2029 || n == 0x202F || n == 0x205F ||
    n == 0x3000

/-! ## Trimming -/

/-- The text without the blanks it starts with. -/
def trimStart (text : List Char) : List Char :=
  text.dropWhile isBlank

/-- The text without the blanks it ends with. -/
def trimEnd : List Char → List Char
  | [] => []
  | c :: rest =>
    match trimEnd rest with
    | [] => if isBlank c then [] else [c]
    | kept => c :: kept

/-- The text without the blanks at its two ends. -/
def trim (text : List Char) : List Char :=
  trimEnd (trimStart text)

theorem length_trimStart_le (text : List Char) : (trimStart text).length ≤ text.length :=
  (List.dropWhile_suffix isBlank).length_le

theorem length_trimEnd_le (text : List Char) : (trimEnd text).length ≤ text.length := by
  induction text with
  | nil => simp [trimEnd]
  | cons c rest ih =>
    rw [trimEnd]
    split
    · split <;> simp
    · simpa using ih

theorem length_trim_le (text : List Char) : (trim text).length ≤ text.length :=
  Nat.le_trans (length_trimEnd_le _) (length_trimStart_le _)

/-! ## Cutting at single characters -/

/-- Puts a character in front of the first piece. -/
def pushFirst (c : Char) : List (List Char) → List (List Char)
  | [] => [[c]]
  | piece :: rest => (c :: piece) :: rest

/-- The pieces between the characters that satisfy `cut`; a text without one is one piece. -/
def pieces (cut : Char → Bool) : List Char → List (List Char)
  | [] => [[]]
  | c :: rest => if cut c then [] :: pieces cut rest else pushFirst c (pieces cut rest)

/-- The maximal runs of characters that are not blank. -/
def words (text : List Char) : List (List Char) :=
  (pieces isBlank text).filter (· ≠ [])

/-! ## Lines -/

/-- A line without the carriage return that belongs to its line end. -/
def dropReturn (line : List Char) : List Char :=
  if line.getLast? = some '\r' then line.dropLast else line

/-- The lines among the pieces between line feeds: only a piece before a line feed can lose a
carriage return, and an empty last piece is no line. -/
def linesOfPieces : List (List Char) → List (List Char)
  | [] => []
  | [last] => if last = [] then [] else [last]
  | line :: rest => dropReturn line :: linesOfPieces rest

/-- The lines of a text, each without its line end. -/
def lines (text : List Char) : List (List Char) :=
  linesOfPieces (pieces (· == '\n') text)

/-! ## Strings -/

/-- A string without the blanks at its two ends. -/
def trimmed (text : String) : String :=
  .ofList (trim text.toList)

/-- Joins strings with `separator` between neighbours. -/
def joined (separator : String) : List String → String
  | [] => ""
  | [last] => last
  | first :: rest => first ++ separator ++ joined separator rest

/-- The texts, each followed by a line feed. -/
def unlines (texts : List String) : String :=
  texts.foldl (fun out text => out ++ text ++ "\n") ""

end BatchScript.Text
