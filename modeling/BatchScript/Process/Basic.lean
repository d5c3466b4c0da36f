import BatchScript.Bindings
import BatchScript.FileSystem

/-!
# Processes

A program as a function from what it is started with to what it leaves behind. Output is bytes;
where a text is wanted, bytes that are no UTF-8 become replacement characters.
-/

namespace BatchScript

/-- What a program reads and writes. -/
abbrev Bytes := List UInt8

/-- The bytes of a string. -/
def Bytes.ofString (text : String) : Bytes :=
  text.toUTF8.toList

/-- What a program is started with. Its own name is not among the arguments. -/
structure Invocation where
  arguments : List String
  environment : Bindings
  files : FileSystem
  input : Bytes := []

/-- What a program leaves behind. -/
structure Completion where
  status : Nat
  output : Bytes := []
  errors : Bytes := []
  files : FileSystem

/-- A program. -/
abbrev Program := Invocation → Completion

/-! ## Bytes as text -/

namespace Bytes

/-- The number of bytes after the first one of a character, the bounds of the second byte, and the
bits that the first byte gives. -/
def lead? (first : UInt8) : Option (Nat × UInt8 × UInt8 × Nat) :=
  let n := first.toNat
  if n < 0x80 then some (0, 0, 0, n)
  else if 0xC2 ≤ n && n ≤ 0xDF then some (1, 0x80, 0xBF, n % 0x20)
  else if n = 0xE0 then some (2, 0xA0, 0xBF, 0)
  else if n = 0xED then some (2, 0x80, 0x9F, 0xD)
  else if 0xE1 ≤ n && n ≤ 0xEF then some (2, 0x80, 0xBF, n % 0x10)
  else if n = 0xF0 then some (3, 0x90, 0xBF, 0)
  else if n = 0xF4 then some (3, 0x80, 0x8F, 4)
  else if 0xF1 ≤ n && n ≤ 0xF3 then some (3, 0x80, 0xBF, n % 8)
  else none

/-- The character whose bits so far are `bits` and that lacks `missing` bytes, the next one between
two bounds, and the number of bytes that belong to it. A character that is cut off is none. -/
def tail (bits : Nat) (low high : UInt8) : Nat → Bytes → Option Char × Nat
  | 0, _ => (some (.ofNat bits), 0)
  | _ + 1, [] => (none, 0)
  | missing + 1, next :: rest =>
    if low ≤ next && next ≤ high then
      let (char, count) := tail (bits * 64 + next.toNat % 64) 0x80 0xBF missing rest
      (char, count + 1)
    else (none, 0)

/-- The character at the start of bytes, and the number of bytes after the first one that belong to
it. Bytes that start a character but do not complete it belong together. -/
def character (first : UInt8) (rest : Bytes) : Char × Nat :=
  match lead? first with
  | none => ('\ufffd', 0)
  | some (missing, low, high, bits) =>
    let (char, count) := tail bits low high missing rest
    (char.getD '\ufffd', count)

/-- Bytes as characters, with replacement characters for what is no UTF-8. -/
def toChars : Bytes → List Char
  | [] => []
  | first :: rest =>
    let (char, count) := character first rest
    char :: toChars (rest.drop count)
termination_by bytes => bytes.length
decreasing_by
  simp only [List.length_drop, List.length_cons]
  omega

end Bytes

end BatchScript
