import BatchScript.Process.Basic

/-!
# Backslash escapes

The escapes in the arguments of `echo` and in formats: one letter for a control character, octal
digits for a byte, and `\c`, which ends all output.
-/

namespace BatchScript.Escape

/-- Which escapes are understood: `\c` may end all output, an octal number may have a zero before
its three digits, hexadecimal digits and the escape character may be written, and so may a quote. -/
structure Dialect where
  stop : Bool
  leadingZero : Bool
  hexadecimal : Bool
  quote : Bool

/-- The value of an octal digit. -/
def octal? (c : Char) : Option Nat :=
  if '0' ≤ c && c ≤ '7' then some (c.toNat - '0'.toNat) else none

/-- The value of a hexadecimal digit. -/
def hexadecimal? (c : Char) : Option Nat :=
  if c.isDigit then some (c.toNat - '0'.toNat)
  else if 'a' ≤ c && c ≤ 'f' then some (c.toNat - 'a'.toNat + 10)
  else if 'A' ≤ c && c ≤ 'F' then some (c.toNat - 'A'.toNat + 10)
  else none

/-- A number of at most `count` digits, and the text after it. -/
def digits (digit? : Char → Option Nat) (base : Nat) : Nat → Nat → List Char → Nat × List Char
  | 0, n, text => (n, text)
  | _, n, [] => (n, [])
  | count + 1, n, c :: rest =>
    match digit? c with
    | some d => digits digit? base count (n * base + d) rest
    | none => (n, c :: rest)

/-- The control character that a letter stands for. -/
def control? : Char → Option UInt8
  | 'a' => some 7
  | 'b' => some 8
  | 'f' => some 12
  | 'n' => some 10
  | 'r' => some 13
  | 't' => some 9
  | 'v' => some 11
  | '\\' => some 92
  | _ => none

/-- Reads what follows a backslash: its bytes and the text after it, or nothing if it ends all
output. -/
def read (dialect : Dialect) (text : List Char) : Option (Bytes × List Char) :=
  match text with
  | [] => some ([92], [])
  | c :: rest =>
    if dialect.stop && c = 'c' then none
    else match control? c with
    | some byte => some ([byte], rest)
    | none =>
      if (octal? c).isSome then
        let start := match dialect.leadingZero, c, rest with
          | true, '0', next :: _ => if (octal? next).isSome then rest else text
          | _, _, _ => text
        let (n, rest) := digits octal? 8 3 0 start
        some ([n.toUInt8], rest)
      else if dialect.quote && c = '"' then some ([34], rest)
      else if dialect.hexadecimal && c = 'e' then some ([27], rest)
      else if dialect.hexadecimal && c = 'x' &&
          rest.head?.any (fun d => (hexadecimal? d).isSome) then
        let (n, rest) := digits hexadecimal? 16 2 0 rest
        some ([n.toUInt8], rest)
      else some ([92], text)

theorem length_digits_le (digit? : Char → Option Nat) (base count n : Nat) (text : List Char) :
    (digits digit? base count n text).2.length ≤ text.length := by
  fun_induction digits digit? base count n text with
  | case1 => simp
  | case2 => simp
  | case3 _ _ _ _ _ _ ih => simp; omega
  | case4 => simp

theorem length_of_read {dialect : Dialect} {text rest : List Char} {bytes : Bytes}
    (h : read dialect text = some (bytes, rest)) : rest.length ≤ text.length := by
  unfold read at h
  split at h
  · simp_all
  · split at h
    · simp at h
    split at h
    · cases h; simp
    · split at h
      · simp only [Option.some.injEq, Prod.mk.injEq] at h
        obtain ⟨-, rfl⟩ := h
        refine Nat.le_trans (length_digits_le ..) ?_
        split
        · split <;> simp
        · simp
      · split at h
        · cases h; simp
        · split at h
          · cases h; simp
          · split at h
            · simp only [Option.some.injEq, Prod.mk.injEq] at h
              obtain ⟨-, rfl⟩ := h
              exact Nat.le_succ_of_le (length_digits_le ..)
            · cases h; simp

/-- A text with its escapes as bytes, and whether it ends all output. -/
def expand (dialect : Dialect) : List Char → Bytes × Bool
  | [] => ([], false)
  | '\\' :: rest =>
    match _h : read dialect rest with
    | none => ([], true)
    | some (bytes, rest) =>
      let (more, ended) := expand dialect rest
      (bytes ++ more, ended)
  | c :: rest =>
    let (more, ended) := expand dialect rest
    (Bytes.ofString c.toString ++ more, ended)
termination_by text => text.length
decreasing_by
  · have := length_of_read _h
    simp; omega
  · simp

end BatchScript.Escape
