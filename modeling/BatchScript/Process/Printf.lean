import BatchScript.Process.Escape

/-!
# Formats

Formatted output: a format is cut into literal texts and conversions, and used again as long as
arguments are left. An argument that is missing counts as empty, or as zero.
-/

namespace BatchScript.Printf

/-- A conversion: its flags, its width and precision, and the letter that says what is written. -/
structure Conversion where
  flags : List Char
  width : Nat
  precision : Option Nat
  letter : Char

/-- A part of a format. -/
inductive Part where
  | literal (bytes : Bytes)
  | stop
  | conversion (conversion : Conversion)
  | malformed (text : List Char)

/-! ## Reading formats -/

/-- The value of decimal digits. -/
def decimal (digits : List Char) : Nat :=
  digits.foldl (fun n digit => 10 * n + (digit.toNat - '0'.toNat)) 0

/-- Reads what follows a percent sign. -/
def readConversion (text : List Char) : Part × List Char :=
  let isFlag (c : Char) : Bool := ['-', '0', '+', ' ', '#'].contains c
  let afterFlags := text.dropWhile isFlag
  let width := decimal (afterFlags.takeWhile Char.isDigit)
  let afterWidth := afterFlags.dropWhile Char.isDigit
  let (precision, rest) := match afterWidth with
    | '.' :: rest =>
      (some (decimal (rest.takeWhile Char.isDigit)), rest.dropWhile Char.isDigit)
    | rest => (none, rest)
  match rest with
  | [] => (.malformed ('%' :: text), [])
  | letter :: rest =>
    if ['d', 'i', 'o', 'u', 'x', 'X', 'c', 's', 'b'].contains letter then
      (.conversion ⟨text.takeWhile isFlag, width, precision, letter⟩, rest)
    else (.malformed ('%' :: text.take (text.length - rest.length)), [])

/-- Cuts a format into its parts; `fuel` bounds their number. -/
def parts (dialect : Escape.Dialect) : Nat → List Char → List Part
  | 0, _ => []
  | _, [] => []
  | fuel + 1, '\\' :: rest =>
    match Escape.read dialect rest with
    | none => [.stop]
    | some (bytes, rest) => .literal bytes :: parts dialect fuel rest
  | fuel + 1, '%' :: '%' :: rest => .literal [37] :: parts dialect fuel rest
  | fuel + 1, '%' :: rest =>
    let (part, rest) := readConversion rest
    part :: parts dialect fuel rest
  | fuel + 1, c :: rest => .literal (Bytes.ofString c.toString) :: parts dialect fuel rest

/-! ## Arguments -/

/-- The number at the start of an argument, and whether the argument is nothing but that number. A
quote before a character asks for the number of the character. -/
def number (argument : String) : Int × Option Bool :=
  let text := argument.toList.dropWhile (· = ' ')
  match text with
  | [] => (0, some true)
  | '"' :: c :: _ | '\'' :: c :: _ => (c.toNat, some true)
  | _ =>
    let (negative, digits) := match text with
      | '-' :: digits => (true, digits)
      | '+' :: digits => (false, digits)
      | digits => (false, digits)
    let (n, rest) := match digits with
      | '0' :: 'x' :: rest | '0' :: 'X' :: rest =>
        Escape.digits Escape.hexadecimal? 16 rest.length 0 rest
      | '0' :: rest => Escape.digits Escape.octal? 8 rest.length 0 rest
      | rest => (decimal (rest.takeWhile Char.isDigit), rest.dropWhile Char.isDigit)
    (if negative then -(n : Int) else n,
      if rest.length = digits.length then none else some (rest = []))

/-- Fills a text up to the width of a conversion. -/
def fill (conversion : Conversion) (zeros : Bool) (sign : List Char) (body : Bytes) : Bytes :=
  let sign := sign.map fun c => c.toNat.toUInt8
  let missing := conversion.width - (sign.length + body.length)
  if conversion.flags.contains '-' then sign ++ body ++ List.replicate missing 32
  else if zeros && conversion.flags.contains '0' then sign ++ List.replicate missing 48 ++ body
  else List.replicate missing 32 ++ sign ++ body

/-- The digits of a number, with at least as many as a precision asks for. -/
def digitsOf (base n : Nat) (precision : Option Nat) : List Char :=
  let digits := Nat.toDigits base n
  List.replicate (precision.getD 0 - digits.length) '0' ++ digits

/-- A number as a conversion writes it. Without a sign it counts modulo two to the power of 64. -/
def numberBytes (conversion : Conversion) (value : Int) : Bytes :=
  let unsigned := (value % Nat.pow 2 64).toNat
  let (sign, digits) := match conversion.letter with
    | 'o' => ([], digitsOf 8 unsigned conversion.precision)
    | 'u' => ([], digitsOf 10 unsigned conversion.precision)
    | 'x' => ([], digitsOf 16 unsigned conversion.precision)
    | 'X' => ([], (digitsOf 16 unsigned conversion.precision).map Char.toUpper)
    | _ =>
      let sign := if value < 0 then ['-'] else if conversion.flags.contains '+' then ['+']
        else if conversion.flags.contains ' ' then [' '] else []
      (sign, digitsOf 10 value.natAbs conversion.precision)
  fill conversion conversion.precision.isNone sign (digits.map fun c => c.toNat.toUInt8)

/-! ## Output -/

/-- How formatted output differs between programs: the escapes, and the wording of the messages. -/
structure Style where
  inFormat : Escape.Dialect
  inArgument : Escape.Dialect
  notANumber : String → String
  notOnlyANumber : String → String
  badDirective : String → String

/-- What has been written so far, the messages, the arguments that are left, and whether the output
has ended. -/
structure Output where
  bytes : Bytes := []
  messages : List String := []
  arguments : List String
  ended : Bool := false

/-- Writes one conversion. -/
def convert (style : Style) (conversion : Conversion) (output : Output) : Output :=
  let argument := output.arguments.headD ""
  let given := output.arguments ≠ []
  let output := { output with arguments := output.arguments.tail }
  let cut (bytes : Bytes) : Bytes := match conversion.precision with
    | some n => bytes.take n
    | none => bytes
  match conversion.letter with
  | 's' =>
    { output with
      bytes := output.bytes ++ fill conversion false [] (cut (Bytes.ofString argument)) }
  | 'c' =>
    { output with
      bytes := output.bytes ++ fill conversion false [] [(Bytes.ofString argument).headD 0] }
  | 'b' =>
    let (bytes, ended) := Escape.expand style.inArgument argument.toList
    { output with bytes := output.bytes ++ fill conversion false [] (cut bytes), ended }
  | _ =>
    let (value, complete) := number argument
    let messages := if !given then [] else match complete with
      | none => [style.notANumber argument]
      | some false => [style.notOnlyANumber argument]
      | some true => []
    { output with
      bytes := output.bytes ++ numberBytes conversion value
      messages := output.messages ++ messages }

/-- Writes one part of a format. -/
def writePart (style : Style) (output : Output) (part : Part) : Output :=
  if output.ended then output
  else match part with
    | .literal bytes => { output with bytes := output.bytes ++ bytes }
    | .stop => { output with ended := true }
    | .conversion conversion => convert style conversion output
    | .malformed text =>
      { output with
        messages := output.messages ++ [style.badDirective (.ofList text)], ended := true }

/-- Uses a format once and then again for the arguments that are left, of which `fuel` bounds the
number. A format without conversions is used once. -/
def repeatFormat (style : Style) (format : List Part) : Nat → Output → Output
  | 0, output => output
  | fuel + 1, output =>
    let next := format.foldl (writePart style) output
    if next.ended || next.arguments = [] ||
        next.arguments.length = output.arguments.length then next
    else repeatFormat style format fuel next

/-- Formatted output. -/
def run (style : Style) (format : String) (arguments : List String) : Output :=
  repeatFormat style (parts style.inFormat (format.length + 1) format.toList)
    (arguments.length + 1) { arguments }

end BatchScript.Printf
