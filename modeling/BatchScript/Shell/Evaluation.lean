import BatchScript.Shell.Builtin

/-!
# Evaluation of shell scripts

Commands act on a session one after the other. A pipeline runs its parts from the left, each with
the whole output of the one before as its input. Parts of a pipeline, commands in parentheses and
commands in words run in a shell of their own: what they do to variables and to the working
directory is forgotten.
-/

namespace BatchScript.Shell

/-! ## Redirections -/

/-- A stream of the shell by its descriptor. -/
def Streams.target (streams : Streams) (descriptor : String) : Target :=
  match descriptor with
  | "1" => streams.output
  | "2" => streams.errors
  | _ => .nowhere

/-- Streams of which one goes elsewhere. -/
def Streams.redirect (streams : Streams) (descriptor : Nat) (target : Target) : Streams :=
  match descriptor with
  | 1 => { streams with output := target }
  | 2 => { streams with errors := target }
  | _ => streams

/-- The reason why a file cannot be opened for reading or for writing. -/
def openFault (writing : Bool) : IoFault → String
  | .notFound | .notADirectory => if writing then "Directory nonexistent" else "No such file"
  | fault => fault.reason.1

/-- Opens a file for writing, and empties it unless it is appended to. -/
def openTarget (append : Bool) (path : String) (files : FileSystem) :
    Except IoFault (Target × FileSystem) := do
  let present := match files.resolve path with
    | .ok (_, .file _) => true
    | _ => false
  let files ← if append && present then pure files else files.writeBytes path .empty
  .ok (.file (← files.resolve path).1, files)

/-- Redirects one stream, or reports why that is not possible. -/
def redirectOne (context : Context) (redirection : Redirection) (streams : Streams)
    (session : Session) : Option Streams × Session :=
  let (path, session) := expandText context streams redirection.target session
  let refuse (verb : String) (writing : Bool) (fault : IoFault) : Option Streams × Session :=
    (none, session.report streams redirection.line 2
      s!"cannot {verb} {path}: {openFault writing fault}")
  match redirection.mode with
  | .duplicate =>
    (some (streams.redirect redirection.descriptor (streams.target path)), session)
  | .read =>
    match session.files.readBytes path with
    | .ok content => (some streams, { session with input := content.toList })
    | .error fault => refuse "open" false fault
  | .write | .append =>
    match openTarget (redirection.mode = .append) path session.files with
    | .ok (target, files) =>
      (some (streams.redirect redirection.descriptor target), { session with files })
    | .error fault => refuse "create" true fault

/-- Redirects streams from the left. -/
def redirectAll (context : Context) (redirections : List Redirection) (streams : Streams)
    (session : Session) : Option Streams × Session :=
  redirections.foldl (fun (streams, session) redirection =>
    match streams with
    | some streams => redirectOne context redirection streams session
    | none => (none, session)) (some streams, session)

/-! ## Simple commands -/

/-- Sets variables from the left. -/
def assignAll (context : Context) (streams : Streams) (assignments : List (String × Word))
    (session : Session) : Session :=
  assignments.foldl (fun session (name, word) =>
    let (value, session) := expandText context streams word session
    session.assign name value) session

/-- The search path of a shell whose environment has none. -/
def defaultPath : String :=
  "/usr/local/sbin:/usr/local/bin:/usr/sbin:/usr/bin:/sbin:/bin"

/-- Runs a program. -/
def runProgram (context : Context) (streams : Streams) (line : Nat) (name : String)
    (arguments : List String) (session : Session) : Session :=
  let path := (session.vars.get? "PATH").getD defaultPath
  match if name = "" then .error .permissionDenied else Search.find session.files path name with
  | .error .permissionDenied => session.report streams line 126 s!"{name}: Permission denied"
  | .error _ => session.report streams line 127 s!"{name}: not found"
  | .ok found =>
    match context.program? found with
    | none => session.report streams line 127 s!"{name}: not found"
    | some program =>
      let completion := program
        { arguments, environment := session.environment, files := session.files,
          input := session.input }
      let files :=
        { completion.files with workingDirectory := session.files.workingDirectory }
      (({ session with files }.write streams.output completion.output).write streams.errors
        completion.errors).finish completion.status

/-- Runs a command by its name. Assignments before it hold only for that command, unless the shell
runs it itself. -/
def runNamed (context : Context) (streams : Streams) (line : Nat)
    (assignments : List (String × Word)) (name : String) (arguments : List String)
    (session : Session) : Session :=
  let assigned := assignAll context streams assignments session
  match Builtin.named? name with
  | some builtin => builtin context streams line arguments assigned
  | none =>
    let exported := assignments.foldl (fun session (name, _) => session.exportName name) assigned
    let after := runProgram context streams line name arguments exported
    { after with vars := session.vars, exported := session.exported }

/-- Runs a simple command. -/
def runSimple (context : Context) (streams : Streams) (line : Nat)
    (assignments : List (String × Word)) (words : List Word) (redirections : List Redirection)
    (session : Session) : Session :=
  let before := session
  let (fields, session) := expandWords context streams words { session with substituted := 0 }
  let withInput (after : Session) : Session :=
    if redirections.any (·.mode = .read) then { after with input := before.input } else after
  if session.exited then session
  else match redirectAll context redirections streams session with
    | (none, session) => session
    | (some streams, session) =>
      match fields with
      | [] =>
        let assigned := assignAll context streams assignments session
        withInput (assigned.finish assigned.substituted)
      | ["exec"] => withInput (session.finish 0)
      | "exec" :: name :: arguments =>
        let after := runProgram context streams line name arguments
          (assignAll context streams assignments session)
        after.exit after.status
      | name :: arguments =>
        withInput (runNamed context streams line assignments name arguments session)

/-! ## Commands -/

/-- Repeats a body as long as a test ends as it should, and at most `count` times. -/
def repeated (sense : Bool) (test body : Session → Session) :
    Nat → (status : Nat) → Session → Session
  | 0, status, session => session.finish status
  | count + 1, status, session =>
    let tested := test session
    if tested.exited then tested
    else if (tested.status == 0) == sense then
      let done := body tested
      if done.exited then done else repeated sense test body count done.status done
    else tested.finish status

/-- Runs a body once for each value of a variable. -/
def forEach (name : String) (body : Session → Session) : List String → Session → Session
  | [], session => session
  | value :: rest, session =>
    let after := body (session.assign name value)
    if after.exited then after else forEach name body rest after

/-- The largest number of times that a loop is repeated. -/
def repetitionLimit : Nat := 1000000

/-- Evaluates a command. The failure of a command that is a condition is `awaited`, and never stops
the script. -/
def evaluate (context : Context) (streams : Streams) (awaited : Bool) :
    Command → Session → Session
  | .nothing, session => session
  | .simple line assignments words redirections, session =>
    let after := runSimple context streams line assignments words redirections session
    if awaited then after else after.stopOnFailure
  | .sequence first second, session =>
    let after := evaluate context streams awaited first session
    if after.exited then after else evaluate context streams awaited second after
  | .both first second, session =>
    let after := evaluate context streams true first session
    if after.exited || after.status ≠ 0 then after
    else evaluate context streams awaited second after
  | .either first second, session =>
    let after := evaluate context streams true first session
    if after.exited || after.status = 0 then after
    else evaluate context streams awaited second after
  | .negated command, session =>
    let after := evaluate context streams true command session
    if after.exited then after else after.finish (if after.status = 0 then 1 else 0)
  | .pipe first second, session =>
    let left := evaluate context { streams with output := .output } awaited first
      { session with output := [] }
    let right := evaluate context streams awaited second
      { session.afterSubshell left with output := session.output, input := left.output }
    let after := session.afterSubshell right
    if awaited then after else after.stopOnFailure
  | .subshell command, session =>
    let after := session.afterSubshell (evaluate context streams awaited command session)
    if awaited then after else after.stopOnFailure
  | .redirected command redirections, session =>
    match redirectAll context redirections streams session with
    | (none, after) => after
    | (some inner, redirected) =>
      let after := evaluate context inner awaited command redirected
      if redirections.any (·.mode = .read) then { after with input := session.input } else after
  | .conditional test yes no, session =>
    let tested := evaluate context streams true test session
    if tested.exited then tested
    else if tested.status = 0 then evaluate context streams awaited yes tested
    else evaluate context streams awaited no (tested.finish 0)
  | .loop sense test body, session =>
    repeated sense (evaluate context streams true test) (evaluate context streams awaited body)
      repetitionLimit 0 session
  | .foreach name words body, session =>
    let (values, session) := match words with
      | some words => expandWords context streams words session
      | none => (session.arguments, session)
    forEach name (evaluate context streams awaited body) values (session.finish 0)
  | .choose word patterns body others, session =>
    let (text, session) := expandText context streams word session
    match matchesAny context streams text patterns session with
    | (true, session) => evaluate context streams awaited body (session.finish 0)
    | (false, session) => evaluate context streams awaited others (session.finish 0)

/-! ## The shell as a program -/

/-- What runs a script. -/
abbrev Runner := List Char → Streams → Session → Session

/-- The session in which a shell starts. -/
def start (invocation : Invocation) (name : String) (arguments : List String) : Session :=
  let vars := Bindings.ofList (invocation.environment.toList.filter fun (name, _) =>
    Text.isIdentifier name.toList)
  { name, arguments, vars
    exported := vars.toList.map (·.1)
    files := invocation.files
    input := invocation.input }

/-- The shell as a program, given what runs its script. -/
def programOf (run : Runner) (invocation : Invocation) : Completion :=
  let complete (text : List Char) (name : String) (arguments : List String) : Completion :=
    let after := run text {} (start invocation name arguments)
    { status := after.status
      output := after.output
      errors := after.errors
      files := { after.files with workingDirectory := invocation.files.workingDirectory } }
  match invocation.arguments with
  | [] => complete (Bytes.toChars invocation.input) "sh" []
  | ["-c"] => Programs.refusing 2 "sh: 0: -c requires an argument" invocation
  | "-c" :: script :: rest => complete script.toList (rest.headD "sh") rest.tail
  | file :: rest =>
    match invocation.files.readBytes file with
    | .ok content => complete (Bytes.toChars content.toList) file rest
    | .error fault =>
      Programs.refusing 2 s!"sh: 0: cannot open {file}: {openFault false fault}" invocation

/-- Runs a script in a session; `depth` bounds how many shells start one another. -/
def runScript : (depth : Nat) → Runner
  | 0, _, _, session => session.exit 2
  | depth + 1, text, streams, session =>
    match readScript text with
    | .error malformed =>
      (session.report streams (text.count '\n' + 1) 2 malformed.message).exit 2
    | .ok command =>
      let program? (name : String) : Option Program :=
        if name = "sh" then some (programOf (runScript depth)) else Programs.named? name
      evaluate ⟨program?, runScript depth⟩ streams false command session

/-- How many shells may start one another. -/
def depthLimit : Nat := 64

/-- The shell as a program. -/
def program : Program :=
  programOf (runScript depthLimit)

end BatchScript.Shell
