import BatchScript.Shell.Expansion

/-!
# Commands that the shell runs itself

These act on the shell, or are so common that the shell does not start a program for them.
-/

namespace BatchScript.Shell

/-- A command that the shell runs itself. -/
abbrev Builtin := Context → Streams → (line : Nat) → List String → Session → Session

namespace Builtin

/-- Prints a text with escapes; the option `-n` leaves out the line end. -/
def echo (streams : Streams) (arguments : List String) (session : Session) : Session :=
  let (bare, arguments) := match arguments with
    | "-n" :: rest => (true, rest)
    | all => (false, all)
  let text := (Text.joined " " arguments).toList
  let bytes := match Escape.expand ⟨true, true, false, false⟩ text with
    | (bytes, true) => bytes
    | (bytes, false) => if bare then bytes else bytes ++ [10]
  (session.write streams.output bytes).finish 0

/-- The style of formatted output in the shell. -/
def printfStyle : Printf.Style where
  inFormat := ⟨false, false, false, false⟩
  inArgument := ⟨true, true, false, false⟩
  notANumber argument := s!"printf: {argument}: expected numeric value"
  notOnlyANumber argument := s!"printf: {argument}: not completely converted"
  badDirective text := s!"printf: {text}: invalid directive"

/-- Prints by a format. -/
def printf (streams : Streams) (line : Nat) (arguments : List String) (session : Session) :
    Session :=
  match arguments with
  | [] | ["--"] => session.report streams line 2 "printf: usage: printf format [arg ...]"
  | "--" :: format :: arguments | format :: arguments =>
    let output := Printf.run printfStyle format arguments
    let written := session.write streams.output output.bytes
    (output.messages.foldl (fun session message => session.report streams line 1 message)
      (written.finish 0))

/-- Ends the script with a status, or with the status of the last command. -/
def exit (streams : Streams) (line : Nat) (arguments : List String) (session : Session) :
    Session :=
  match arguments with
  | [] => session.exit session.status
  | status :: _ =>
    if status ≠ "" && status.toList.all Char.isDigit then
      session.exit (Printf.decimal status.toList)
    else (session.report streams line 2 s!"exit: Illegal number: {status}").exit 2

/-- Changes the working directory. -/
def cd (streams : Streams) (line : Nat) (arguments : List String) (session : Session) : Session :=
  let target := arguments.head?.getD ((session.vars.get? "HOME").getD ".")
  match session.files.resolve target with
  | .ok (place, .directory) =>
    { session with files := { session.files with workingDirectory := place }, status := 0 }
  | _ => session.report streams line 2 s!"cd: can't cd to {target}"

/-- Marks variables for the environment of programs, and sets those that come with a value. -/
def exportNames (arguments : List String) (session : Session) : Session :=
  (arguments.foldl (fun session argument =>
    let text := argument.toList
    let name := String.ofList (text.takeWhile (· ≠ '='))
    match text.drop name.length with
    | _ :: value => (session.assign name (.ofList value)).exportName name
    | [] => session.exportName name) session).finish 0

/-- Takes variables away. -/
def unset (arguments : List String) (session : Session) : Session :=
  ({ session with
    vars := arguments.foldl Bindings.erase session.vars
    exported := session.exported.filter (!arguments.contains ·) }).finish 0

/-- Sets the positional parameters, or whether a failure stops the script. -/
def set (arguments : List String) (session : Session) : Session :=
  let session := session.finish 0
  match arguments with
  | [] => session
  | "--" :: rest => { session with arguments := rest }
  | first :: rest =>
    match first.toList with
    | '-' :: letters =>
      { session with stopsOnFailure := session.stopsOnFailure || letters.contains 'e' }
    | '+' :: letters =>
      { session with stopsOnFailure := session.stopsOnFailure && !letters.contains 'e' }
    | _ => { session with arguments := first :: rest }

/-- Drops positional parameters. -/
def shift (streams : Streams) (line : Nat) (arguments : List String) (session : Session) :
    Session :=
  let count := (arguments.head?.bind String.toNat?).getD 1
  if session.arguments.length < count then
    (session.report streams line 2 "shift: can't shift that many").exit 2
  else { session with arguments := session.arguments.drop count, status := 0 }

/-- Sets variables to the words of a line of the input; the last one takes the rest of the line. -/
def readLine (names : List String) (session : Session) : Session :=
  let lineBytes := session.input.takeWhile (· ≠ 10)
  let rest := session.input.drop lineBytes.length
  let assignRest (session : Session) (names : List String) (text : List Char) : Session :=
    (names.foldl (fun (session, text) name =>
      if some name = names.getLast? then (session.assign name (.ofList (Text.trim text)), [])
      else (session.assign name (.ofList (text.takeWhile (!Text.isBlank ·))),
        Text.trimStart (text.dropWhile (!Text.isBlank ·)))) (session, text)).1
  let read := assignRest session names (Text.trimStart (Bytes.toChars lineBytes))
  { read with input := rest.drop 1, status := if rest = [] then 1 else 0 }

/-- Tests a file or a text. -/
def test (streams : Streams) (line : Nat) (name : String) (arguments : List String)
    (session : Session) : Session :=
  match Programs.testResult session.files name arguments with
  | (status, none) => session.finish status
  | (status, some message) => session.report streams line status message

/-- The command with a name. -/
def named? : String → Option Builtin
  | ":" | "true" => some fun _ _ _ _ session => session.finish 0
  | "false" => some fun _ _ _ _ session => session.finish 1
  | "echo" => some fun _ streams _ arguments => echo streams arguments
  | "printf" => some fun _ streams line arguments => printf streams line arguments
  | "exit" => some fun _ streams line arguments => exit streams line arguments
  | "cd" => some fun _ streams line arguments => cd streams line arguments
  | "pwd" => some fun _ streams _ _ session =>
    (session.write streams.output
      (Bytes.ofString (Programs.pathOf session.files.workingDirectory ++ "\n"))).finish 0
  | "export" => some fun _ _ _ arguments => exportNames arguments
  | "set" => some fun _ _ _ arguments => set arguments
  | "unset" => some fun _ _ _ arguments => unset arguments
  | "shift" => some fun _ streams line arguments => shift streams line arguments
  | "read" => some fun _ _ _ arguments => readLine arguments
  | "test" => some fun _ streams line arguments => test streams line "test" arguments
  | "[" => some fun _ streams line arguments => test streams line "[" arguments
  | "." => some fun context streams line arguments session =>
    match arguments with
    | [] => session.finish 0
    | file :: _ =>
      match session.files.readBytes file with
      | .ok content => context.script (Bytes.toChars content.toList) streams session
      | .error _ => (session.report streams line 2 s!".: cannot open {file}: No such file").exit 2
  | "eval" => some fun context streams _ arguments session =>
    context.script (Text.joined " " arguments).toList streams session
  | _ => none

end Builtin

end BatchScript.Shell
