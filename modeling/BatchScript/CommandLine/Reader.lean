import BatchScript.Bindings
import BatchScript.CommandLine.Arguments
import BatchScript.Directive

/-!
# Reading a command line

A command line has two levels: arguments before the request, and arguments of the request. At each
level the words are read from the left. A word with two hyphens names an option in full, with a
value after an equals sign or in the next word; a word with one hyphen holds one-letter flags; a
bare `--` makes every later word positional. A value that stands in a word of its own is only
looked at when the next option or positional word is taken up, so the first of two faults is not
always the reported one.
-/

namespace BatchScript.CommandLine

/-! ## Options -/

/-- An option without a value. -/
inductive Flag where
  | dryRun
  | json
  | verbose
  | continueOnError
  | help
  | version
deriving DecidableEq, Repr

/-- What takes a value: the file of the request, or an option. -/
inductive Slot where
  | file
  | var
  | logFile
  | program
  | maxLoopIterations
deriving DecidableEq, Repr

/-- Where in the command line a word stands. -/
inductive Level where
  | top
  | run
  | check
deriving DecidableEq, Repr

/-- An option. -/
inductive Item where
  | flag (flag : Flag)
  | slot (slot : Slot)

/-- The option with a full name. -/
def longItem? (level : Level) (name : String) : Option Item :=
  match level, name with
  | _, "dry-run" => some (.flag .dryRun)
  | _, "json" => some (.flag .json)
  | _, "verbose" => some (.flag .verbose)
  | _, "help" => some (.flag .help)
  | .top, "version" => some (.flag .version)
  | .run, "continue-on-error" => some (.flag .continueOnError)
  | .run, "var" => some (.slot .var)
  | .run, "log-file" => some (.slot .logFile)
  | .run, "cli" => some (.slot .program)
  | .run, "max-loop-iterations" => some (.slot .maxLoopIterations)
  | _, _ => none

/-- The flag with a letter. -/
def shortFlag? (level : Level) (letter : Char) : Option Flag :=
  match level, letter with
  | _, 'v' => some .verbose
  | _, 'h' => some .help
  | .top, 'V' => some .version
  | _, _ => none

/-! ## What has been read -/

/-- What has been read at one level. A slot is open from the word that names it until its value is
looked at. -/
structure Progress where
  flags : List Flag := []
  values : List (Slot × String) := []
  opened : Option (Slot × Option String) := none
  positional : Bool := false
  onlyPositional : Bool := false

/-- A natural number of at most 64 bits, with an optional plus sign. -/
def number? (text : String) : Option Nat :=
  let digits := match text.toList with
    | '+' :: digits => digits
    | digits => digits
  if digits = [] || !digits.all Char.isDigit then none
  else
    let n := digits.foldl (fun n digit => 10 * n + (digit.toNat - '0'.toNat)) 0
    if n < Nat.pow 2 64 then some n else none

/-- Whether a slot may have a value. A path is not empty. -/
def checkValue (slot : Slot) (value : String) : Except Refusal Unit :=
  match slot with
  | .var => .ok ()
  | .file | .logFile | .program => if value = "" then .error .missingValue else .ok ()
  | .maxLoopIterations => if (number? value).isSome then .ok () else .error .malformedNumber

namespace Progress

/-- Whether a slot has a value. -/
def hasValue (progress : Progress) (slot : Slot) : Bool :=
  progress.values.any (·.1 = slot)

/-- Gives a slot a value. Only variables may be given more than once. -/
def give (progress : Progress) (slot : Slot) (value : String) : Except Refusal Progress := do
  if slot ≠ .var && progress.hasValue slot then .error .repeated
  else
    checkValue slot value
    .ok { progress with values := progress.values ++ [(slot, value)], opened := none }

/-- Looks at the value of the open slot. -/
def settle (progress : Progress) : Except Refusal Progress :=
  match progress.opened with
  | none => .ok progress
  | some (_, none) => .error .missingValue
  | some (slot, some value) => progress.give slot value

/-- Takes up a flag. -/
def raise (progress : Progress) (flag : Flag) : Except Refusal Progress := do
  let progress ← progress.settle
  match flag with
  | .help => .error .showHelp
  | .version => .error .showVersion
  | flag =>
    if progress.flags.contains flag then .error .repeated
    else .ok { progress with flags := flag :: progress.flags }

/-- Opens a slot, with its value if that is known. -/
def openSlot (progress : Progress) (slot : Slot) (value : Option String) :
    Except Refusal Progress := do
  .ok { ← progress.settle with opened := some (slot, value) }

/-! ## Words -/

/-- Reads a word with two hyphens, without them. -/
def readLong (level : Level) (progress : Progress) (word : List Char) : Except Refusal Progress :=
  let name := String.ofList (word.takeWhile (· ≠ '='))
  let value := (Directive.cutAtEquals word).map fun (_, value) => String.ofList value
  match longItem? level name, value with
  | none, _ => .error .unknownArgument
  | some (.flag _), some _ => .error .needlessValue
  | some (.flag flag), none => progress.raise flag
  | some (.slot slot), none => progress.openSlot slot none
  | some (.slot slot), some value => do (← progress.settle).give slot value

/-- Reads the letters after one hyphen. -/
def readLetters (level : Level) (progress : Progress) (letters : List Char) :
    Except Refusal Progress :=
  letters.foldlM (fun progress letter =>
    match shortFlag? level letter with
    | none => .error .unknownArgument
    | some flag => progress.raise flag) progress

/-- Reads a word that stands for itself: the file of the request, and nothing else. -/
def readPositional (level : Level) (progress : Progress) (word : String) :
    Except Refusal Progress :=
  match level with
  | .top =>
    .error (if progress.onlyPositional && ["run", "check", "help"].contains word then
      .unknownArgument else .unknownRequest)
  | .run | .check =>
    if progress.positional then .error .unknownArgument
    else do
      .ok { ← progress.openSlot .file (some word) with positional := true }

/-- Reads one word. -/
def readWord (level : Level) (progress : Progress) (word : String) : Except Refusal Progress :=
  if progress.onlyPositional then progress.readPositional level word
  else match word.toList with
    | ['-', '-'] => .ok { progress with onlyPositional := true }
    | '-' :: '-' :: name => progress.readLong level name
    | '-' :: letter :: letters => progress.readLetters level (letter :: letters)
    | _ =>
      match progress.opened with
      | some (slot, none) => .ok { progress with opened := some (slot, some word) }
      | _ => progress.readPositional level word

/-- Reads the words of a level. -/
def readWords (level : Level) (words : List String) : Except Refusal Progress := do
  (← words.foldlM (readWord level) {}).settle

/-- The value of a slot. -/
def value? (progress : Progress) (slot : Slot) : Option String :=
  (progress.values.find? (·.1 = slot)).map (·.2)

/-- The values of a slot that may be given more than once. -/
def valuesOf (progress : Progress) (slot : Slot) : List String :=
  (progress.values.filter (·.1 = slot)).map (·.2)

end Progress

/-! ## Requests -/

/-- The variable of the environment that gives the program if the command line does not. -/
def programVariable : String := "OFFICEBATCH_CLI"

/-- The program of a request to run a script. -/
def program? (progress : Progress) (environment : Bindings) :
    Except Refusal (Option String) := do
  match progress.value? .program, environment.get? programVariable with
  | some program, _ => .ok (some program)
  | none, none => .ok none
  | none, some program => do
    checkValue .program program
    .ok (some program)

/-- Reads the words of a request to run a script. -/
def readRun (environment : Bindings) (words : List String) :
    Except Refusal (List Flag × Request) := do
  let progress ← Progress.readWords .run words
  let program ← program? progress environment
  match progress.value? .file with
  | none => .error .missingFile
  | some file =>
    let limit := ((progress.value? .maxLoopIterations).bind number?).getD 10000
    .ok (progress.flags, .run file (progress.valuesOf .var)
      (progress.flags.contains .continueOnError) (progress.value? .logFile) program limit)

/-- Reads the words of a request to check a script. -/
def readCheck (words : List String) : Except Refusal (List Flag × Request) := do
  let progress ← Progress.readWords .check words
  match progress.value? .file with
  | none => .error .missingFile
  | some file => .ok (progress.flags, .check file)

/-- Reads the words of a request for help: the name of a request, if any. -/
def readHelp : List String → Refusal
  | [] | ["run"] | ["check"] | ["help"] => .showHelp
  | _ => .unknownRequest

/-- Reads the words before the request, and then the request. -/
def readTop (environment : Bindings) (progress : Progress) : List String → Except Refusal Arguments
  | [] => .error (if progress.flags = [] then .showHelpForNothing else .missingRequest)
  | word :: words => do
    let finish (result : List Flag × Request) : Arguments :=
      let flags := result.1 ++ progress.flags
      ⟨flags.contains .dryRun, flags.contains .json, flags.contains .verbose, result.2⟩
    match progress.onlyPositional, word with
    | false, "run" => (readRun environment words).map finish
    | false, "check" => (readCheck words).map finish
    | false, "help" => .error (readHelp words)
    | _, _ => readTop environment (← progress.readWord .top word) words

/-- Reads a command line. -/
def read (environment : Bindings) (words : List String) : Except Refusal Arguments :=
  readTop environment {} words

end BatchScript.CommandLine
