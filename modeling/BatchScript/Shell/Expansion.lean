import BatchScript.Shell.Arithmetic
import BatchScript.Shell.State

/-!
# Expansion of words

A word becomes fields: references and commands are replaced by values, values that were not quoted
are split at blanks, and a field with an unquoted pattern becomes the names of the files that match.
-/

namespace BatchScript.Shell

/-- A step of an expansion: a character, the end of a field, or a field that may be empty. -/
inductive Atom where
  | char (c : Char) (quoted : Bool)
  | split
  | present

/-- A field with what was quoted in it. -/
abbrev Field := List (Char × Bool)

/-- A value as atoms. -/
def atomsOf (quoted : Bool) (value : String) : List Atom :=
  if quoted then value.toList.map (.char · true) ++ [.present]
  else value.toList.map fun c =>
    if c = ' ' || c = '\t' || c = '\n' then .split else .char c false

/-- The positional parameters as atoms, each a field of its own. -/
def argumentAtoms (quoted : Bool) : List String → List Atom
  | [] => []
  | [last] => atomsOf quoted last
  | first :: rest => atomsOf quoted first ++ .split :: argumentAtoms quoted rest

/-- The text of atoms, with a blank between fields. -/
def textOf (atoms : List Atom) : String :=
  .ofList (atoms.filterMap fun
    | .char c _ => some c
    | .split => some ' '
    | .present => none)

/-- The text of an output that is put into a word: without the line ends at its end. -/
def substituted (output : Bytes) : String :=
  .ofList ((output.toChars.reverse.dropWhile (· = '\n')).reverse.filter (· ≠ '\x00'))

/-- Runs a script in a shell of its own and takes its output. -/
def capture (context : Context) (streams : Streams) (script : List Char) (session : Session) :
    String × Session :=
  let inner := context.script script { streams with output := .output }
    { session with output := [] }
  (substituted inner.output,
    { session.afterSubshell inner with
      output := session.output, status := session.status, substituted := inner.status })

mutual

/-- Expands a piece of a word; `depth` bounds how deep words stand in references. -/
def expandPiece (context : Context) (streams : Streams) :
    (depth : Nat) → Piece → Session → List Atom × Session
  | _, .text chars quoted, session =>
    (atomsOf quoted (.ofList chars), session)
  | _, .command script quoted, session =>
    let (value, session) := capture context streams script session
    (atomsOf quoted value, session)
  | depth, .arithmetic expression quoted, session =>
    match depth with
    | 0 => ([], session)
    | depth + 1 =>
      let (atoms, session) := expandPieces context streams depth (wordOf true expression) session
      let value (name : String) : Int := (Printf.number ((session.parameter? name).getD "")).1
      let text := textOf atoms
      match Arithmetic.evaluate value text.toList with
      | some n => (atomsOf quoted (toString n), session)
      | none =>
        let message := "arithmetic expression: expecting primary: \"" ++ text ++ "\""
        ([], (session.report streams 1 2 message).exit 2)
  | depth, .parameter name modifier quoted, session =>
    let value? := session.parameter? name
    let atoms := if name = "@" || (name = "*" && !quoted) then
        argumentAtoms quoted session.arguments
      else atomsOf quoted (value?.getD "")
    match modifier with
    | .plain => (atoms, session)
    | .length => (atomsOf quoted (toString (value?.getD "").utf8ByteSize), session)
    | .alternative sign orEmpty word =>
      let has := match value? with
        | some value => !(orEmpty && value = "")
        | none => false
      match depth, sign, has with
      | depth + 1, '-', false => expandPieces context streams depth (wordOf quoted word) session
      | depth + 1, '+', true => expandPieces context streams depth (wordOf quoted word) session
      | depth + 1, '=', false =>
        let (atoms, session) := expandPieces context streams depth (wordOf quoted word) session
        (atoms, session.assign name (textOf atoms))
      | _, '?', false =>
        let text := if word ≠ [] then String.ofList word
          else if orEmpty then "parameter not set or null" else "parameter not set"
        ([], (session.report streams 1 2 s!"{name}: {text}").exit 2)
      | _, '+', _ => (if quoted then [.present] else [], session)
      | _, _, _ => (atoms, session)
termination_by depth => (depth, 0)

/-- Expands the pieces of a word. -/
def expandPieces (context : Context) (streams : Streams) (depth : Nat) :
    Word → Session → List Atom × Session
  | [], session => ([], session)
  | piece :: rest, session =>
    let (atoms, session) := expandPiece context streams depth piece session
    let (more, session) := expandPieces context streams depth rest session
    (atoms ++ more, session)
termination_by word => (depth, word.length + 1)

end

/-! ## Fields -/

/-- Joins atoms to fields. -/
def fieldsOf (current : Option Field) : List Atom → List Field
  | [] => current.toList
  | .char c quoted :: rest => fieldsOf (some (current.getD [] ++ [(c, quoted)])) rest
  | .present :: rest => fieldsOf (some (current.getD [])) rest
  | .split :: rest => current.toList ++ fieldsOf none rest

/-- Whether a name matches a pattern, in which unquoted stars and question marks stand for texts and
characters. -/
def matchesPattern : Field → List Char → Bool
  | [], name => name.isEmpty
  | ('*', false) :: pattern, [] => matchesPattern pattern []
  | ('*', false) :: pattern, c :: name =>
    matchesPattern pattern (c :: name) || matchesPattern (('*', false) :: pattern) name
  | _ :: _, [] => false
  | ('?', false) :: pattern, _ :: name => matchesPattern pattern name
  | (d, _) :: pattern, c :: name => d = c && matchesPattern pattern name
termination_by pattern name => (pattern.length, name.length)

/-- The names in a directory. -/
def namesIn (files : FileSystem) (place : Place) : List String :=
  (files.entries.filterMap fun (entry, _) =>
    match entry with
    | name :: parent => if parent = place then some name else none
    | [] => none).mergeSort (· ≤ ·)

/-- The names of files that a field stands for, or the field itself. -/
def filesMatching (files : FileSystem) (field : Field) : List String :=
  let isPattern := field.any fun (c, quoted) => !quoted && (c = '*' || c = '?')
  let name := field.reverse.takeWhile (·.1 ≠ '/') |>.reverse
  let directory := field.take (field.length - name.length)
  let path := String.ofList (directory.map (·.1))
  let text := String.ofList (field.map (·.1))
  if !isPattern then [text]
  else match files.resolve (if path = "" then "." else path) with
    | .ok (place, .directory) =>
      let found := (namesIn files place).filter fun entry =>
        matchesPattern name entry.toList &&
          (!entry.startsWith "." || name.head?.map (·.1) = some '.')
      if found = [] then [text] else found.map (path ++ ·)
    | _ => [text]

/-- How deep words may stand in references. -/
def nestingLimit : Nat := 100

/-- Expands words to fields. -/
def expandWords (context : Context) (streams : Streams) :
    List Word → Session → List String × Session
  | [], session => ([], session)
  | word :: rest, session =>
    let (atoms, session) := expandPieces context streams nestingLimit word session
    let fields := (fieldsOf none atoms).flatMap (filesMatching session.files)
    let (more, session) := expandWords context streams rest session
    (fields ++ more, session)

/-- Whether a text matches one of some patterns. -/
def matchesAny (context : Context) (streams : Streams) (text : String) :
    List Word → Session → Bool × Session
  | [], session => (false, session)
  | pattern :: rest, session =>
    let (atoms, session) := expandPieces context streams nestingLimit pattern session
    let field : Field := atoms.filterMap fun
      | .char c quoted => some (c, quoted)
      | .split => some (' ', false)
      | .present => none
    if matchesPattern field text.toList then (true, session)
    else matchesAny context streams text rest session

/-- Expands a word to one text, which is not split. -/
def expandText (context : Context) (streams : Streams) (word : Word) (session : Session) :
    String × Session :=
  let (atoms, session) := expandPieces context streams nestingLimit word.quoted session
  (textOf atoms, session)

end BatchScript.Shell
