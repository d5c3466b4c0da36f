import BatchScript.Shell.Word

/-!
# Commands of the shell

A shell script as a tree: simple commands with their assignments and redirections, joined in
sequences, by their success, in pipelines, and by conditions and loops.
-/

namespace BatchScript.Shell

/-- What a redirection does with a descriptor. -/
inductive Mode where
  | read
  | write
  | append
  | duplicate
deriving DecidableEq, Repr

/-- A redirection of a descriptor to what a word names. -/
structure Redirection where
  line : Nat
  descriptor : Nat
  mode : Mode
  target : Word
deriving DecidableEq, Repr

/-- A command. -/
inductive Command where
  | nothing
  | simple (line : Nat) (assignments : List (String × Word)) (words : List Word)
      (redirections : List Redirection)
  | sequence (first second : Command)
  | both (first second : Command)
  | either (first second : Command)
  | negated (command : Command)
  | pipe (first second : Command)
  | subshell (command : Command)
  | redirected (command : Command) (redirections : List Redirection)
  | conditional (test yes no : Command)
  | loop (sense : Bool) (test body : Command)
  | foreach (name : String) (words : Option (List Word)) (body : Command)
  /-- Runs the body if a word matches one of some patterns, and else goes on with the other
  cases. -/
  | choose (word : Word) (patterns : List Word) (body others : Command)
deriving Repr

/-! ## Tokens -/

/-- A word, a redirection without its target, or an operator. -/
inductive Token where
  | word (line : Nat) (word : Word)
  | redirect (line descriptor : Nat) (mode : Mode)
  | operator (text : String)

/-- The text of a word without quotes and references. -/
def Word.plain? : Word → Option (List Char)
  | [] => some []
  | .text chars false :: rest => (plain? rest).map (chars ++ ·)
  | _ => none

/-- The text of a token that is an operator or a word without quotes and references. -/
def Token.plain? : Token → Option String
  | .word _ pieces => pieces.plain?.map .ofList
  | .operator text => some text
  | .redirect .. => none

/-- The words that have a meaning of their own where a command may start. -/
def reservedWords : List String :=
  ["if", "then", "elif", "else", "fi", "for", "while", "until", "do", "done", "\x7b",
    "\x7d", "!", "case", "esac"]

/-- A token as messages name it. -/
def Token.display : Token → String
  | .operator "\n" => "newline"
  | .operator text => "\"" ++ text ++ "\""
  | .redirect .. => "redirection"
  | .word _ pieces =>
    match pieces.plain? with
    | some text =>
      if reservedWords.contains (.ofList text) then "\"" ++ .ofList text ++ "\"" else "word"
    | none => "word"

/-- The operators, longer ones first. -/
def operators : List String :=
  ["&&", "||", ";;", ";", "&", "|", "(", ")", "\n"]

/-- The signs of redirections, longer ones first. -/
def redirectionSigns : List (String × Mode) :=
  [(">>", .append), (">&", .duplicate), ("<&", .duplicate), (">|", .write), (">", .write),
    ("<", .read)]

/-- The first of some texts that a text starts with, and what follows it. -/
def startsWithAny? {α : Type} (texts : List (String × α)) (text : List Char) :
    Option (String × α × List Char) :=
  texts.findSome? fun (start, value) =>
    if start.toList.isPrefixOf text then some (start, value, text.drop start.length) else none

/-- The redirection at the start of a text, with the descriptor that its sign has by itself if no
digits stand before it. -/
def redirection? (line : Nat) (text : List Char) : Option (Token × List Char) :=
  let digits := text.takeWhile Char.isDigit
  match startsWithAny? redirectionSigns (text.drop digits.length) with
  | none => none
  | some (sign, mode, rest) =>
    let descriptor := if digits = [] then (if sign.startsWith "<" then 0 else 1)
      else digits.foldl (fun n d => 10 * n + (d.toNat - '0'.toNat)) 0
    some (.redirect line descriptor mode, rest)

/-- Cuts a script into tokens. `fuel` bounds their number. -/
def readTokens : Nat → (line : Nat) → List Char → Except Malformed (List Token)
  | 0, _, _ => .ok []
  | _, _, [] => .ok []
  | fuel + 1, line, c :: rest =>
    if c = ' ' || c = '\t' then readTokens fuel line rest
    else if c = '#' then readTokens fuel line (rest.dropWhile (· ≠ '\n'))
    else if c = '\\' && rest.head? = some '\n' then readTokens fuel (line + 1) rest.tail
    else match redirection? line (c :: rest) with
      | some (token, rest) => (readTokens fuel line rest).map (token :: ·)
      | none =>
        match startsWithAny? (operators.map (·, ())) (c :: rest) with
        | some (text, _, rest) =>
          (readTokens fuel (if text = "\n" then line + 1 else line) rest).map
            (.operator text :: ·)
        | none => do
          let (word, after) ← readPieces (rest.length + 2) false (c :: rest)
          let lines := ((c :: rest).take (rest.length + 1 - after.length)).count '\n'
          let tokens ← readTokens fuel (line + lines) after
          .ok (.word line word :: tokens)

/-! ## Trees -/

/-- What has been read, and the tokens after it. -/
abbrev Tokens := List Token

/-- The failure at a token that does not belong where it stands. -/
def unexpected {α : Type} (expected : Option String) : Tokens → Except Malformed α
  | [] => .error (.unexpected "end of file" expected)
  | token :: _ => .error (.unexpected token.display expected)

/-- The tokens without the line ends at their start. -/
def skipLineEnds : Tokens → Tokens
  | .operator "\n" :: rest => skipLineEnds rest
  | tokens => tokens

/-- The tokens after a reserved word or an operator that must stand at the start. -/
def expect (text : String) (tokens : Tokens) : Except Malformed Tokens :=
  match tokens with
  | token :: rest => if token.plain? = some text then .ok rest else unexpected (some text) tokens
  | [] => unexpected (some text) []

/-- Whether a list of commands ends at a token. -/
def endsList (token : Token) : Bool :=
  match token.plain? with
  | some text =>
    ["then", "elif", "else", "fi", "do", "done", "\x7d", ")", ";;", "esac"].contains text
  | none => false

/-- The name and the value of an assignment. -/
def assignment? (word : Word) : Option (String × Word) :=
  let name := word.takeWhile fun
    | .text [c] false => isNameChar c
    | _ => false
  match name, word.drop name.length with
  | .text [c] false :: _, .text ['='] false :: value =>
    if c.isDigit then none
    else (Word.plain? name).map fun name => (.ofList name, value)
  | _, _ => none

/-- Reads the words and redirections of a simple command. -/
def readSimple : Tokens → Except Malformed (List Word × List Redirection × Tokens)
  | .word _ word :: rest => do
    let (words, redirections, rest) ← readSimple rest
    .ok (word :: words, redirections, rest)
  | .redirect line descriptor mode :: .word _ target :: rest => do
    let (words, redirections, rest) ← readSimple rest
    .ok (words, ⟨line, descriptor, mode, target⟩ :: redirections, rest)
  | .redirect .. :: rest => unexpected none rest
  | rest => .ok ([], [], rest)

/-- The simple command with some words, of which those at the start may be assignments. -/
def simpleOf (line : Nat) (words : List Word) (redirections : List Redirection) : Command :=
  let assignments := (words.takeWhile fun word => (assignment? word).isSome).filterMap assignment?
  .simple line assignments (words.drop assignments.length) redirections

/-- Reads the redirections after a compound command. -/
def readRedirections (command : Command) (tokens : Tokens) : Except Malformed (Command × Tokens) :=
  match tokens with
  | .redirect .. :: _ => do
    let (words, redirections, rest) ← readSimple tokens
    if words = [] then .ok (.redirected command redirections, rest) else unexpected none tokens
  | _ => .ok (command, tokens)

/-- Reads the patterns of a case, up to the closing parenthesis. -/
def readPatterns : Tokens → Except Malformed (List Word × Tokens)
  | .word _ pattern :: .operator "|" :: rest =>
    (readPatterns rest).map fun (patterns, rest) => (pattern :: patterns, rest)
  | .word _ pattern :: .operator ")" :: rest => .ok ([pattern], rest)
  | .word _ _ :: rest => unexpected (some ")") rest
  | rest => unexpected none rest

/-- Reads the words of a loop, up to the end of the line. -/
def readLoopWords : Tokens → Except Malformed (List Word × Tokens)
  | .word _ word :: rest => (readLoopWords rest).map fun (words, rest) => (word :: words, rest)
  | .operator ";" :: rest | .operator "\n" :: rest => .ok ([], skipLineEnds rest)
  | rest => unexpected none rest

mutual

/-- Reads commands up to a token that ends a list. -/
def readList : Nat → Tokens → Except Malformed (Command × Tokens)
  | 0, tokens => .ok (.nothing, tokens)
  | fuel + 1, tokens =>
    match skipLineEnds tokens with
    | [] => .ok (.nothing, [])
    | token :: rest =>
      if endsList token then .ok (.nothing, token :: rest)
      else do
        let (first, rest) ← readAndOr fuel (token :: rest)
        match rest with
        | .operator ";" :: rest | .operator "&" :: rest | .operator "\n" :: rest =>
          let (others, rest) ← readList fuel rest
          match others with
          | .nothing => .ok (first, rest)
          | others => .ok (.sequence first others, rest)
        | rest => .ok (first, rest)

/-- Reads pipelines that are joined by their success. -/
def readAndOr : Nat → Tokens → Except Malformed (Command × Tokens)
  | 0, tokens => unexpected none tokens
  | fuel + 1, tokens => do
    let (first, rest) ← readPipeline fuel tokens
    readAlternatives fuel first rest

/-- Reads the pipelines that are joined to those before them. -/
def readAlternatives : Nat → Command → Tokens → Except Malformed (Command × Tokens)
  | 0, first, tokens => .ok (first, tokens)
  | fuel + 1, first, tokens =>
    match tokens with
    | .operator "&&" :: rest => do
      let (second, rest) ← readPipeline fuel (skipLineEnds rest)
      readAlternatives fuel (.both first second) rest
    | .operator "||" :: rest => do
      let (second, rest) ← readPipeline fuel (skipLineEnds rest)
      readAlternatives fuel (.either first second) rest
    | rest => .ok (first, rest)

/-- Reads a pipeline. -/
def readPipeline : Nat → Tokens → Except Malformed (Command × Tokens)
  | 0, tokens => unexpected none tokens
  | fuel + 1, tokens =>
    match tokens with
    | .word line word :: rest =>
      if Word.plain? word = some ['!'] then do
        let (command, rest) ← readPipeline fuel rest
        .ok (.negated command, rest)
      else readPipe fuel (.word line word :: rest)
    | tokens => readPipe fuel tokens

/-- Reads commands with pipes between them. -/
def readPipe : Nat → Tokens → Except Malformed (Command × Tokens)
  | 0, tokens => unexpected none tokens
  | fuel + 1, tokens => do
    let (first, rest) ← readCommand fuel tokens
    match rest with
    | .operator "|" :: rest =>
      let (second, rest) ← readPipe fuel (skipLineEnds rest)
      .ok (.pipe first second, rest)
    | rest => .ok (first, rest)

/-- Reads a list that may not be empty, before a reserved word or an operator. -/
def readBody : Nat → (before : String) → Tokens → Except Malformed (Command × Tokens)
  | 0, _, tokens => unexpected none tokens
  | fuel + 1, before, tokens => do
    match ← readList fuel tokens with
    | (.nothing, []) => unexpected (some before) []
    | (.nothing, rest) => unexpected none rest
    | result => .ok result

/-- Reads the rest of a conditional after `if` or `elif`. -/
def readConditional : Nat → Tokens → Except Malformed (Command × Tokens)
  | 0, tokens => unexpected none tokens
  | fuel + 1, tokens => do
    let (test, rest) ← readBody fuel "then" tokens
    let (yes, rest) ← readBody fuel "fi" (← expect "then" rest)
    match rest.head?.bind Token.plain? with
    | some "elif" =>
      let (no, rest) ← readConditional fuel rest.tail
      .ok (.conditional test yes no, rest)
    | some "else" =>
      let (no, rest) ← readBody fuel "fi" rest.tail
      .ok (.conditional test yes no, ← expect "fi" rest)
    | _ => .ok (.conditional test yes .nothing, ← expect "fi" rest)

/-- Reads the cases for a word. -/
def readCases : Nat → Word → Tokens → Except Malformed (Command × Tokens)
  | 0, _, tokens => unexpected none tokens
  | fuel + 1, word, tokens =>
    let tokens := skipLineEnds tokens
    if tokens.head?.bind Token.plain? = some "esac" then .ok (.nothing, tokens.tail)
    else do
      let tokens := if tokens.head?.bind Token.plain? = some "(" then tokens.tail else tokens
      let (patterns, rest) ← readPatterns tokens
      let (body, rest) ← readList fuel rest
      match skipLineEnds rest with
      | .operator ";;" :: rest =>
        let (others, rest) ← readCases fuel word rest
        .ok (.choose word patterns body others, rest)
      | rest => .ok (.choose word patterns body .nothing, ← expect "esac" rest)

/-- Reads the body of a loop. -/
def readLoopBody : Nat → Tokens → Except Malformed (Command × Tokens)
  | 0, tokens => unexpected none tokens
  | fuel + 1, tokens => do
    let (body, rest) ← readBody fuel "done" (← expect "do" (skipLineEnds tokens))
    .ok (body, ← expect "done" rest)

/-- Reads a command. -/
def readCommand : Nat → Tokens → Except Malformed (Command × Tokens)
  | 0, tokens => unexpected none tokens
  | fuel + 1, tokens => do
    match tokens with
    | [] => unexpected none []
    | .operator "(" :: rest =>
      let (command, rest) ← readBody fuel ")" rest
      readRedirections (.subshell command) (← expect ")" rest)
    | .operator _ :: _ => unexpected none tokens
    | .redirect line .. :: _ =>
      let (words, redirections, rest) ← readSimple tokens
      .ok (simpleOf line words redirections, rest)
    | .word line word :: rest =>
      match (Word.plain? word).map String.ofList with
      | some "if" =>
        let (command, rest) ← readConditional fuel rest
        readRedirections command rest
      | some "while" =>
        let (test, rest) ← readBody fuel "do" rest
        let (body, rest) ← readLoopBody fuel rest
        readRedirections (.loop true test body) rest
      | some "until" =>
        let (test, rest) ← readBody fuel "do" rest
        let (body, rest) ← readLoopBody fuel rest
        readRedirections (.loop false test body) rest
      | some "for" =>
        match rest with
        | .word _ name :: rest =>
          let name := String.ofList ((Word.plain? name).getD [])
          let (words, rest) ← match rest with
            | .word line word :: rest =>
              if Word.plain? word = some ['i', 'n'] then do
                let (words, rest) ← readLoopWords rest
                .ok (some words, rest)
              else .ok (none, .word line word :: rest)
            | .operator ";" :: rest => .ok (none, rest)
            | rest => .ok (none, rest)
          let (body, rest) ← readLoopBody fuel rest
          readRedirections (.foreach name words body) rest
        | _ => .error .badLoopVariable
      | some "case" =>
        match rest with
        | .word _ word :: rest =>
          let (command, rest) ← readCases fuel word (← expect "in" (skipLineEnds rest))
          readRedirections command rest
        | rest => unexpected none rest
      | some "\x7b" =>
        let (command, rest) ← readBody fuel "\x7d" rest
        readRedirections command (← expect "\x7d" rest)
      | some text =>
        if reservedWords.contains text then unexpected none tokens
        else
          let (words, redirections, rest) ← readSimple tokens
          .ok (simpleOf line words redirections, rest)
      | none =>
        let (words, redirections, rest) ← readSimple tokens
        .ok (simpleOf line words redirections, rest)

end

/-- Reads a script. -/
def readScript (text : List Char) : Except Malformed Command := do
  let tokens ← readTokens (text.length + 1) 1 text
  match ← readList (10 * (tokens.length + 1)) tokens with
  | (command, []) => .ok command
  | (_, rest) => unexpected none rest

end BatchScript.Shell
