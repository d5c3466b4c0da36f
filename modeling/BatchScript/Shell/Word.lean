import BatchScript.Text.Reference

/-!
# Words of the shell

A shell script is cut into words and operators. A word is a row of pieces: texts, references to
parameters, commands whose output is put in, and arithmetic. Quotes are gone from the pieces,
which know whether they were quoted.
-/

namespace BatchScript.Shell

/-- What a reference in braces does with the value of its parameter. -/
inductive Modifier where
  | plain
  | length
  /-- One of the signs `-`, `=`, `+` and `?`, whether an empty value counts as none, and a word. -/
  | alternative (sign : Char) (orEmpty : Bool) (word : List Char)
deriving DecidableEq, Repr

/-- A piece of a word. -/
inductive Piece where
  | text (chars : List Char) (quoted : Bool)
  | parameter (name : String) (modifier : Modifier) (quoted : Bool)
  | command (script : List Char) (quoted : Bool)
  | arithmetic (expression : List Char) (quoted : Bool)
deriving DecidableEq, Repr

/-- A word. -/
abbrev Word := List Piece

/-- Why a script cannot be read. -/
inductive Malformed where
  | unterminatedQuote
  | unterminatedCommand
  | badSubstitution
  | badLoopVariable
  | unexpected (token : String) (expected : Option String)
deriving DecidableEq, Repr

/-- The wording of a malformed script. -/
def Malformed.message : Malformed → String
  | .unterminatedQuote => "Syntax error: Unterminated quoted string"
  | .unterminatedCommand => "Syntax error: EOF in backquote substitution"
  | .badSubstitution => "Syntax error: Missing '\x7d'"
  | .badLoopVariable => "Syntax error: Bad for loop variable"
  | .unexpected token none => s!"Syntax error: {token} unexpected"
  | .unexpected token (some expected) =>
    s!"Syntax error: {token} unexpected (expecting \"" ++ expected ++ "\")"

/-! ## Enclosed texts -/

/-- Reads up to a single quote. -/
def readSingle : List Char → Except Malformed (List Char × List Char)
  | [] => .error .unterminatedQuote
  | c :: rest =>
    if c = '\'' then .ok ([], rest)
    else (readSingle rest).map fun (text, rest) => (c :: text, rest)

/-- Reads up to the end of what `opening` opened and `closing` closes, `depth` more of them being
open. Quotes hide both. `missing` says that the end is missing. -/
def readEnclosed (opening closing : Char) (missing : Malformed) (depth : Nat)
    (quote : Option Char) : List Char → Except Malformed (List Char × List Char)
  | [] => .error (if quote.isSome then .unterminatedQuote else missing)
  | '\\' :: c :: rest =>
    (readEnclosed opening closing missing depth quote rest).map fun (text, rest) =>
      ('\\' :: c :: text, rest)
  | c :: rest =>
    let keep (depth : Nat) (quote : Option Char) : Except Malformed (List Char × List Char) :=
      (readEnclosed opening closing missing depth quote rest).map fun (text, rest) =>
        (c :: text, rest)
    match quote with
    | some q => keep depth (if c = q then none else quote)
    | none =>
      if c = '\'' || c = '"' then keep depth (some c)
      else if c = closing then
        match depth with
        | 0 => .ok ([], rest)
        | depth + 1 => keep depth none
      else if c = opening then keep (depth + 1) none
      else keep depth none

/-- Reads up to a backquote. A backslash before a backquote, a dollar sign or a backslash is
dropped. -/
def readBackquoted : List Char → Except Malformed (List Char × List Char)
  | [] => .error .unterminatedCommand
  | '\\' :: c :: rest =>
    (readBackquoted rest).map fun (text, rest) =>
      (if ['\x60', '$', '\\'].contains c then (c :: text, rest) else ('\\' :: c :: text, rest))
  | c :: rest =>
    if c = '\x60' then .ok ([], rest)
    else (readBackquoted rest).map fun (text, rest) => (c :: text, rest)

/-! ## References -/

/-- Whether a character may stand in a name, not at its start. -/
def isNameChar (c : Char) : Bool :=
  c.isAlphanum || c = '_'

/-- Whether a character alone names a parameter. -/
def isSpecial (c : Char) : Bool :=
  c.isDigit || ['@', '*', '#', '?', '$', '!', '-'].contains c

/-- The reference inside braces. -/
def reference? (quoted : Bool) (inner : List Char) : Option Piece :=
  let (name, rest) := match inner with
    | c :: rest =>
      if isSpecial c then (c :: rest.takeWhile (fun d => c.isDigit && d.isDigit),
        rest.dropWhile (fun d => c.isDigit && d.isDigit))
      else (inner.takeWhile isNameChar, inner.dropWhile isNameChar)
    | [] => ([], [])
  match inner, name, rest with
  | '#' :: c :: more, _, _ =>
    if (c :: more).all isNameChar then some (.parameter (.ofList (c :: more)) .length quoted)
    else none
  | _, [], _ => none
  | _, _, [] => some (.parameter (.ofList name) .plain quoted)
  | _, _, ':' :: sign :: word =>
    if ['-', '=', '+', '?'].contains sign then
      some (.parameter (.ofList name) (.alternative sign true word) quoted)
    else none
  | _, _, sign :: word =>
    if ['-', '=', '+', '?'].contains sign then
      some (.parameter (.ofList name) (.alternative sign false word) quoted)
    else none

/-- Reads what follows a dollar sign. A dollar sign before anything else stands for itself. -/
def readDollar (quoted : Bool) : List Char → Except Malformed (Piece × List Char)
  | '(' :: '(' :: rest => do
    let missing := Malformed.unexpected "end of file" (some "))")
    let (expression, rest) ← readEnclosed '(' ')' missing 0 none rest
    match rest with
    | ')' :: rest => .ok (.arithmetic expression quoted, rest)
    | _ => .error missing
  | '(' :: rest => do
    let missing := Malformed.unexpected "end of file" (some ")")
    let (script, rest) ← readEnclosed '(' ')' missing 0 none rest
    .ok (.command script quoted, rest)
  | '\x7b' :: rest => do
    let (inner, rest) ← readEnclosed '\x7b' '\x7d' .badSubstitution 0 none rest
    match reference? quoted inner with
    | some piece => .ok (piece, rest)
    | none => .error .badSubstitution
  | c :: rest =>
    if isSpecial c then .ok (.parameter c.toString .plain quoted, rest)
    else if isNameChar c then
      .ok (.parameter (.ofList (c :: rest.takeWhile isNameChar)) .plain quoted,
        rest.dropWhile isNameChar)
    else .ok (.text ['$'] quoted, c :: rest)
  | [] => .ok (.text ['$'] quoted, [])

/-! ## Words -/

/-- Whether a character ends a word. -/
def endsWord (c : Char) : Bool :=
  [' ', '\t', '\n', ';', '&', '|', '<', '>', '(', ')'].contains c

/-- Whether a backslash hides a character inside double quotes. -/
def isEscapable (c : Char) : Bool :=
  ['$', '\x60', '"', '\\'].contains c

/-- Reads the pieces of a word, or those inside double quotes. `fuel` bounds their number. -/
def readPieces : Nat → (quoted : Bool) → List Char → Except Malformed (Word × List Char)
  | 0, _, text => .ok ([], text)
  | _, true, [] => .error .unterminatedQuote
  | _, false, [] => .ok ([], [])
  | fuel + 1, quoted, c :: rest => do
    let more (piece : Piece) (rest : List Char) : Except Malformed (Word × List Char) := do
      let (word, rest) ← readPieces fuel quoted rest
      .ok (piece :: word, rest)
    if c = '$' then
      let (piece, rest) ← readDollar quoted rest
      more piece rest
    else if c = '\x60' then
      let (script, rest) ← readBackquoted rest
      more (.command script quoted) rest
    else if c = '\\' then
      match rest with
      | '\n' :: rest => readPieces fuel quoted rest
      | d :: rest =>
        if quoted && !isEscapable d then more (.text ['\\', d] true) rest
        else more (.text [d] true) rest
      | [] => more (.text ['\\'] true) []
    else if quoted then
      if c = '"' then .ok ([], rest) else more (.text [c] true) rest
    else if c = '"' then
      let (inner, rest) ← readPieces fuel true rest
      let (word, rest) ← readPieces fuel false rest
      let marked := if inner = [.parameter "@" .plain true] then inner else .text [] true :: inner
      .ok (marked ++ word, rest)
    else if c = '\'' then
      let (text, rest) ← readSingle rest
      more (.text text true) rest
    else if endsWord c then .ok ([], c :: rest)
    else more (.text [c] false) rest

/-- The same piece, quoted or not. -/
def Piece.withQuotes (quoted : Bool) : Piece → Piece
  | .text chars _ => .text chars quoted
  | .parameter name modifier _ => .parameter name modifier quoted
  | .command script _ => .command script quoted
  | .arithmetic expression _ => .arithmetic expression quoted

/-- A word in which everything is quoted. -/
def Word.quoted (word : Word) : Word :=
  word.map (.withQuotes true)

/-- The pieces of a text in which blanks and operators are ordinary. -/
def allPieces : Nat → List Char → Word
  | 0, _ => []
  | fuel + 1, text =>
    match readPieces (text.length + 1) false text with
    | .error _ => [.text text true]
    | .ok (word, []) => word
    | .ok (word, c :: rest) => word ++ .text [c] false :: allPieces fuel rest

/-- The word that stands in a reference, which is quoted if the reference is. -/
def wordOf (quoted : Bool) (text : List Char) : Word :=
  let word := allPieces (text.length + 1) text
  if quoted then word.quoted else word

end BatchScript.Shell
