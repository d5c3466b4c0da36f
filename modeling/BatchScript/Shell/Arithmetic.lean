import BatchScript.Process.Printf

/-!
# Arithmetic of the shell

Integer expressions with variables. A variable that is not set, or empty, counts as zero; a truth
value is one or zero.
-/

namespace BatchScript.Shell.Arithmetic

/-- A token of an expression. -/
inductive Token where
  | number (value : Int)
  | name (name : String)
  | sign (text : String)
deriving DecidableEq, Repr

/-- The signs, longer ones first. -/
def signs : List String :=
  ["&&", "||", "==", "!=", "<=", ">=", "<<", ">>", "<", ">", "+", "-", "*", "/", "%", "!", "~",
    "&", "|", "^", "(", ")", "?", ":"]

/-- Cuts an expression into tokens; `fuel` bounds their number. -/
def tokens : Nat → List Char → Option (List Token)
  | 0, _ => some []
  | _, [] => some []
  | fuel + 1, c :: rest =>
    if c = ' ' || c = '\t' || c = '\n' then tokens fuel rest
    else if c.isDigit then
      let word := c :: rest.takeWhile Char.isAlphanum
      (tokens fuel (rest.dropWhile Char.isAlphanum)).map
        (.number (Printf.number (.ofList word)).1 :: ·)
    else if c.isAlpha || c = '_' then
      let isNameChar (c : Char) : Bool := c.isAlphanum || c = '_'
      (tokens fuel (rest.dropWhile isNameChar)).map
        (.name (.ofList (c :: rest.takeWhile isNameChar)) :: ·)
    else match signs.find? (fun sign => sign.toList.isPrefixOf (c :: rest)) with
      | some sign => (tokens fuel ((c :: rest).drop sign.length)).map (.sign sign :: ·)
      | none => none

/-- A truth value as a number. -/
def truth (value : Bool) : Int :=
  if value then 1 else 0

/-- The operators that stand between operands, by how tightly they bind, loosest first. -/
def levels : List (List String) :=
  [["||"], ["&&"], ["|"], ["^"], ["&"], ["==", "!="], ["<", "<=", ">", ">="], ["<<", ">>"],
    ["+", "-"], ["*", "/", "%"]]

/-- The value of an operation; a division by zero has none. -/
def apply (sign : String) (a b : Int) : Option Int :=
  match sign with
  | "||" => some (truth (a ≠ 0 || b ≠ 0))
  | "&&" => some (truth (a ≠ 0 && b ≠ 0))
  | "==" => some (truth (a = b))
  | "!=" => some (truth (a ≠ b))
  | "<" => some (truth (a < b))
  | "<=" => some (truth (a ≤ b))
  | ">" => some (truth (b < a))
  | ">=" => some (truth (b ≤ a))
  | "<<" => some (a * Nat.pow 2 b.toNat)
  | ">>" => some (a.fdiv (Nat.pow 2 b.toNat))
  | "+" => some (a + b)
  | "-" => some (a - b)
  | "*" => some (a * b)
  | "/" => if b = 0 then none else some (a.tdiv b)
  | "%" => if b = 0 then none else some (a.tmod b)
  | "|" => some (a.toNat ||| b.toNat)
  | "&" => some (a.toNat &&& b.toNat)
  | "^" => some (a.toNat ^^^ b.toNat)
  | _ => none

mutual

/-- Reads operands that are joined at the levels that are left. -/
def operands (value : String → Int) :
    (fuel : Nat) → List (List String) → List Token → Option (Int × List Token)
  | 0, _, _ => none
  | fuel + 1, [], tokens => operand value fuel tokens
  | fuel + 1, level :: tighter, tokens => do
    let (first, rest) ← operands value fuel tighter tokens
    others value fuel level tighter first rest

/-- Reads the operands after the first of a level. -/
def others (value : String → Int) :
    (fuel : Nat) → List String → List (List String) → Int → List Token → Option (Int × List Token)
  | 0, _, _, _, _ => none
  | fuel + 1, level, tighter, first, tokens =>
    match tokens with
    | .sign sign :: rest =>
      if level.contains sign then do
        let (second, rest) ← operands value fuel tighter rest
        others value fuel level tighter (← apply sign first second) rest
      else some (first, tokens)
    | _ => some (first, tokens)

/-- Reads a number, a variable, a signed operand or one in parentheses. -/
def operand (value : String → Int) : (fuel : Nat) → List Token → Option (Int × List Token)
  | 0, _ => none
  | fuel + 1, tokens =>
    match tokens with
    | .number n :: rest => some (n, rest)
    | .name name :: rest => some (value name, rest)
    | .sign "-" :: rest => (operand value fuel rest).map fun (n, rest) => (-n, rest)
    | .sign "+" :: rest => operand value fuel rest
    | .sign "!" :: rest => (operand value fuel rest).map fun (n, rest) => (truth (n = 0), rest)
    | .sign "~" :: rest => (operand value fuel rest).map fun (n, rest) => (-n - 1, rest)
    | .sign "(" :: rest =>
      match operands value fuel levels rest with
      | some (n, .sign ")" :: rest) => some (n, rest)
      | _ => none
    | _ => none

end

/-- The value of an expression, which wraps around at 64 bits. -/
def evaluate (value : String → Int) (text : List Char) : Option Int := do
  let read ← tokens (text.length + 1) text
  if read = [] then some 0
  else match ← operands value (20 * (read.length + 1)) levels read with
    | (n, []) => some (n.bmod (Nat.pow 2 64))
    | _ => none

end BatchScript.Shell.Arithmetic
