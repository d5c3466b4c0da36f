import BatchScript.Process.Printf
import BatchScript.Text.Blank

/-!
# Small programs

The programs that every system has: those that only end, those that print their arguments or the
environment, the one that copies files, and the one that tests files and texts.
-/

namespace BatchScript.Programs

/-- Ends with a status. -/
def ending (status : Nat) (invocation : Invocation) : Completion :=
  { status, files := invocation.files }

/-- Ends with a message on the error stream. -/
def refusing (status : Nat) (message : String) (invocation : Invocation) : Completion :=
  { status, errors := Bytes.ofString (message ++ "\n"), files := invocation.files }

/-- Prints a text. -/
def printing (text : String) (invocation : Invocation) : Completion :=
  { status := 0, output := Bytes.ofString text, files := invocation.files }

/-! ## Printing -/

/-- Whether an argument holds only the letters that `echo` takes as options. -/
def isEchoOption (argument : String) : Bool :=
  match argument.toList with
  | '-' :: letter :: letters => (letter :: letters).all (['n', 'e', 'E'].contains ·)
  | _ => false

/-- The escapes of `echo -e`. -/
def echoDialect : Escape.Dialect :=
  ⟨true, true, true, false⟩

/-- Prints its arguments with a blank between them; options leave out the line end or ask for
escapes. -/
def echo (invocation : Invocation) : Completion :=
  let letters := ((invocation.arguments.takeWhile isEchoOption).flatMap String.toList).filter
    (· ≠ '-')
  let text := Text.joined " " (invocation.arguments.dropWhile isEchoOption)
  let lineEnd : Bytes := if letters.contains 'n' then [] else [10]
  let escapes := (letters.filter (· ≠ 'n')).getLast? = some 'e'
  let output := if escapes then
      match Escape.expand echoDialect text.toList with
      | (bytes, true) => bytes
      | (bytes, false) => bytes ++ lineEnd
    else Bytes.ofString text ++ lineEnd
  { status := 0, output, files := invocation.files }

/-- The style of the program `printf`. -/
def printfStyle : Printf.Style where
  inFormat := ⟨true, false, true, true⟩
  inArgument := ⟨true, true, true, true⟩
  notANumber argument := s!"printf: '{argument}': expected a numeric value"
  notOnlyANumber argument := s!"printf: '{argument}': value not completely converted"
  badDirective text := s!"printf: {text}: invalid conversion specification"

/-- Prints its arguments by a format. -/
def printf (invocation : Invocation) : Completion :=
  match invocation.arguments with
  | [] | ["--"] =>
    refusing 1 "printf: missing operand\nTry 'printf --help' for more information." invocation
  | "--" :: format :: arguments | format :: arguments =>
    let output := Printf.run printfStyle format arguments
    let excess := if output.ended then [] else output.arguments.head?.toList.map fun argument =>
      s!"printf: warning: ignoring excess arguments, starting with '{argument}'"
    { status := if output.messages = [] then 0 else 1
      output := output.bytes
      errors := Bytes.ofString (Text.unlines (output.messages ++ excess))
      files := invocation.files }

/-- Prints variables of the environment: the values of those it is asked for, or all with their
names. -/
def printenv (invocation : Invocation) : Completion :=
  match invocation.arguments with
  | [] =>
    printing (Text.unlines (invocation.environment.toList.map fun (name, value) =>
      name ++ "=" ++ value)) invocation
  | names =>
    let values := names.map fun name =>
      if name.toList.contains '=' then none else invocation.environment.get? name
    { status := if values.all Option.isSome then 0 else 1
      output := Bytes.ofString (Text.unlines (values.filterMap id))
      files := invocation.files }

/-- The path of a place. -/
def pathOf (place : Place) : String :=
  "/" ++ Text.joined "/" place.reverse

/-- Prints the working directory. -/
def pwd (invocation : Invocation) : Completion :=
  printing (pathOf invocation.files.workingDirectory ++ "\n") invocation

/-! ## Copying -/

/-- Whether a character would mean something to a shell. -/
def isSpecial (c : Char) : Bool :=
  " !\"$&'()*;<=>?[^\x60|\\:".toList.contains c

/-- A name as messages show it: in quotes if a shell would not read it as it is. -/
def shownName (name : String) : String :=
  let text := name.toList
  let plain := text ≠ [] && !text.any isSpecial && text.head? ≠ some '#' && text.head? ≠ some '~'
  if plain then name
  else if text.contains '\'' && !text.any (['"', '$', '\\', '\x60'].contains ·) then
    "\"" ++ name ++ "\""
  else
    "'" ++ .ofList (text.flatMap fun c => if c = '\'' then ['\'', '\\', '\'', '\''] else [c]) ++ "'"

/-- The bytes of one operand of `cat`, or a message. -/
def catOperand (invocation : Invocation) (name : String) : Bytes × Option String :=
  if name = "-" then (invocation.input, none)
  else match invocation.files.readBytes name with
    | .ok content => (content.toList, none)
    | .error fault => ([], some s!"cat: {shownName name}: {fault.reason.1}")

/-- Copies files, or the input, to the output. -/
def cat (invocation : Invocation) : Completion :=
  let names := invocation.arguments.filter (· ≠ "--")
  let operands := if names = [] then ["-"] else names
  let results := operands.map (catOperand invocation)
  let messages := results.filterMap (·.2)
  { status := if messages = [] then 0 else 1
    output := results.flatMap (·.1)
    errors := Bytes.ofString (Text.unlines messages)
    files := invocation.files }

/-! ## Testing -/

/-- What stands at a path. -/
def entryAt? (files : FileSystem) (path : String) : Option Entry :=
  (files.resolve path).toOption.map (·.2)

/-- Whether a file has content. -/
def hasContent (files : FileSystem) (path : String) : Bool :=
  match entryAt? files path with
  | some (.file content) => content.size ≠ 0
  | some .directory | some (.program _) => true
  | _ => false

/-- Tests an operand, if the operator is one. -/
def unaryTest? (files : FileSystem) (operator operand : String) : Option Bool :=
  match operator with
  | "-n" => some (operand ≠ "")
  | "-z" => some (operand = "")
  | "-e" => some (entryAt? files operand).isSome
  | "-r" | "-w" => some (entryAt? files operand).isSome
  | "-f" => some (match entryAt? files operand with
    | some (.file _) | some (.program _) => true
    | _ => false)
  | "-d" => some (match entryAt? files operand with
    | some .directory => true
    | _ => false)
  | "-x" => some (match entryAt? files operand with
    | some .directory | some (.program _) => true
    | _ => false)
  | "-s" => some (hasContent files operand)
  | _ => none

/-- An integer with an optional sign, between blanks. -/
def integer? (text : String) : Option Int :=
  match Text.trim text.toList with
  | '-' :: digits => (natural? digits).map fun n => -(n : Int)
  | '+' :: digits => (natural? digits).map Int.ofNat
  | digits => (natural? digits).map Int.ofNat
where
  /-- The value of digits. -/
  natural? (digits : List Char) : Option Nat :=
    if digits ≠ [] && digits.all Char.isDigit then some (Printf.decimal digits) else none

/-- The comparison of numbers that an operator asks for. -/
def numberTest? : String → Option (Int → Int → Bool)
  | "-eq" => some fun a b => a == b
  | "-ne" => some fun a b => a != b
  | "-lt" => some fun a b => a < b
  | "-le" => some fun a b => a ≤ b
  | "-gt" => some fun a b => b < a
  | "-ge" => some fun a b => b ≤ a
  | _ => none

/-- Evaluates a test of at most four words: its value, or a message. -/
def evaluateShort (files : FileSystem) : List String → Except String Bool
  | [] => .ok false
  | ["!", operand] => .ok (operand = "")
  | [operand] => .ok (operand ≠ "")
  | [operator, operand] =>
    match unaryTest? files operator operand with
    | some value => .ok value
    | none => .error s!"{operator}: unexpected operator"
  | [left, operator, right] =>
    match operator, numberTest? operator with
    | "=", _ => .ok (left = right)
    | "!=", _ => .ok (left ≠ right)
    | _, some compare =>
      match integer? left, integer? right with
      | some a, some b => .ok (compare a b)
      | none, _ => .error s!"Illegal number: {left}"
      | _, none => .error s!"Illegal number: {right}"
    | _, none =>
      if left = "!" then (evaluateShort files [operator, right]).map (!·)
      else .error s!"{left}: unexpected operator"
  | "!" :: rest => (evaluateShort files rest).map (!·)
  | _ => .error "too many arguments"

/-- Words between the occurrences of a separator. -/
def between (separator : String) : List String → List (List String)
  | [] => [[]]
  | word :: rest =>
    if word = separator then [] :: between separator rest
    else match between separator rest with
      | first :: others => (word :: first) :: others
      | [] => [[word]]

/-- Evaluates a test: its value, or a message. Longer tests are joined by `-a`, which binds more
tightly, and `-o`. -/
def evaluateTest (files : FileSystem) (words : List String) : Except String Bool :=
  if words.length ≤ 4 then evaluateShort files words
  else
    (between "-o" words).foldlM (fun found disjunct => do
      let all ← (between "-a" disjunct).foldlM (fun held conjunct =>
        (evaluateShort files conjunct).map (held && ·)) true
      .ok (found || all)) false

/-- The status and the message of a test, which under the name `[` ends with a bracket. -/
def testResult (files : FileSystem) (name : String) (arguments : List String) :
    Nat × Option String :=
  let result := if name = "[" then
      if arguments.getLast? = some "]" then evaluateTest files arguments.dropLast
      else .error "missing ]"
    else evaluateTest files arguments
  match result with
  | .ok true => (0, none)
  | .ok false => (1, none)
  | .error message => (2, some s!"{name}: {message}")

/-- Tests a file or a text. -/
def test (name : String) (invocation : Invocation) : Completion :=
  match testResult invocation.files name invocation.arguments with
  | (status, none) => ending status invocation
  | (status, some message) => refusing status message invocation

/-! ## Names -/

/-- The program with a name. -/
def named? : String → Option Program
  | "true" => some (ending 0)
  | "false" => some (ending 1)
  | "echo" => some echo
  | "printf" => some printf
  | "printenv" => some printenv
  | "pwd" => some pwd
  | "cat" => some cat
  | "sleep" => some (ending 0)
  | "test" => some (test "test")
  | "[" => some (test "[")
  | _ => none

end BatchScript.Programs
