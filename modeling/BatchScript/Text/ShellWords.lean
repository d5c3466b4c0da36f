import BatchScript.Text.Quote

/-!
# Words of a command line

Command lines are split into words with the quoting rules of a shell:

* words are separated by spaces, tabs and line feeds outside quotes;
* everything between single quotes is literal;
* between double quotes a backslash escapes a dollar sign, a grave accent, a double quote, a
  backslash and a line end, and is ordinary before anything else;
* outside quotes a backslash makes the next character ordinary, and vanishes with a line feed;
* where comments are read, a `#` at which a word could begin starts one, which reaches to the next
  line feed; anywhere else `#` is an ordinary character.

There is no result when a quote stays open or a backslash ends the text. A text whose hashes are all
meant as they stand can be read with comments after a backslash has been put before each hash at
which a word could begin.
-/

namespace BatchScript.Text.ShellWords

/-! ## Splitting -/

/-- The characters that separate words. -/
def isSeparator (c : Char) : Bool :=
  c = ' ' || c = '\t' || c = '\n'

/-- Where the scan stands: outside quotes, with a word begun or not, in a quote of either kind, behind
a backslash that escapes something, or in a comment. -/
inductive Mode where
  | bare (begun : Bool)
  | escaped
  | single
  | double
  | doubleEscaped
  | comment
deriving DecidableEq, Repr

/-- The characters a backslash escapes between double quotes. -/
def isEscapable (c : Char) : Bool :=
  c = '$' || c = '\x60' || c = '"' || c = '\\'

namespace Mode

/-- What a character does: the mode behind it, and what it adds to the word. -/
def step (comments : Bool) : Mode → Char → Mode × List Char
  | .bare begun, c =>
    if isSeparator c then (.bare false, [])
    else if comments && !begun && c = '#' then (.comment, [])
    else if c = '"' then (.double, [])
    else if c = '\'' then (.single, [])
    else if c = '\\' then (.escaped, [])
    else (.bare true, [c])
  | .escaped, c => (.bare true, if c = '\n' then [] else [c])
  | .single, c => if c = '\'' then (.bare true, []) else (.single, [c])
  | .double, c =>
    if c = '"' then (.bare true, [])
    else if c = '\\' then (.doubleEscaped, [])
    else (.double, [c])
  | .doubleEscaped, c =>
    (.double, if isEscapable c then [c] else if c = '\n' then [] else ['\\', c])
  | .comment, c => (if c = '\n' then .bare false else .comment, [])

/-- The words at the end of a text, if it may end here. -/
def last? : Mode → Option (List (List Char))
  | .bare begun => some (if begun then [[]] else [])
  | .comment => some []
  | .escaped | .single | .double | .doubleEscaped => none

end Mode

/-- The words of the rest of a text; the first one continues the word that is begun. -/
def scan (comments : Bool) (mode : Mode) : List Char → Option (List (List Char))
  | [] => mode.last?
  | c :: rest =>
    let (next, added) := mode.step comments c
    (scan comments next rest).map fun later =>
      -- Only a separator leads from a word that is begun to one that is not.
      if mode = .bare true && next = .bare false then [] :: later else added.foldr pushFirst later

/-- The words of a command line, with comments or without, if its quotes and escapes are closed. -/
def split? (comments : Bool) (text : List Char) : Option (List (List Char)) :=
  scan comments (.bare false) text

/-! ## Hashes -/

/-- What is known at a character of a text: the quote that is open, whether a backslash before the
character escapes it, and whether a word could begin with it. -/
structure Place where
  quote : Option Char
  escaped : Bool
  wordStart : Bool
deriving DecidableEq, Repr

namespace Place

/-- The place of a text's first character. -/
def first : Place :=
  ⟨none, false, true⟩

/-- The place behind a character. -/
def after (place : Place) (c : Char) : Place :=
  let (quote, escaped) :=
    if place.escaped then (place.quote, false)
    else
      match place.quote with
      | some q => if c = q then (none, false) else (some q, q = '"' && c = '\\')
      | none => if c = '\\' then (none, true) else (if isQuote c then some c else none, false)
  ⟨quote, escaped, quote.isNone && isBlank c⟩

/-- Whether a character would begin a comment. -/
def opensComment (place : Place) (c : Char) : Bool :=
  !place.escaped && place.quote.isNone && place.wordStart && c = '#'

end Place

/-- The rest of a text with a backslash before every hash that would begin a comment. -/
def escapeFrom (place : Place) : List Char → List Char
  | [] => []
  | c :: rest =>
    if place.opensComment c then '\\' :: c :: escapeFrom (place.after c) rest
    else c :: escapeFrom (place.after c) rest

/-- The text with a backslash before every hash that would begin a comment. -/
def escapeHashes (text : List Char) : List Char :=
  if text.contains '#' then escapeFrom .first text else text

end BatchScript.Text.ShellWords
