import BatchScript.Json.Reader
import Mathlib.Tactic.SplitIfs

/-!
# Arrays of strings

The texts of JSON arrays of strings, by the grammar of the format: blanks may stand on both sides of every
string, and a character of a string is spelled as it stands, by an escape of its own, or by the numbers of
its one or two code units of 16 bits. The reader yields the strings of every such text
(`array?_of_arrayText`), and the writer makes such a text of any strings (`arrayText_compact`).
-/

namespace BatchScript.Json

/-! ## Spellings of characters -/

/-- A digit in base sixteen, in either case. -/
inductive HexDigit : Nat → Char → Prop
  | lower {n : Nat} (h : n < 16) : HexDigit n (Nat.digitChar n)
  | upper {n : Nat} (h : n < 16) : HexDigit n (Nat.digitChar n).toUpper

/-- The four digits of a code unit. -/
inductive CodeUnit : Nat → List Char → Prop
  | digits {w x y z : Nat} {a b c d : Char} (ha : HexDigit w a) (hb : HexDigit x b)
      (hc : HexDigit y c) (hd : HexDigit z d) :
      CodeUnit (((w * 16 + x) * 16 + y) * 16 + z) [a, b, c, d]

/-- The letters that can follow a backslash, each with the character that is meant. -/
def escapes : List (Char × Char) :=
  [('"', '"'), ('\\', '\\'), ('/', '/'), ('b', '\x08'), ('f', '\x0c'), ('n', '\n'), ('r', '\r'),
    ('t', '\t')]

/-- The first code unit of a character that has two. -/
def highUnit (c : Char) : Nat :=
  0xD800 + (c.toNat - 0x10000) / 0x400

/-- The second code unit of a character that has two. -/
def lowUnit (c : Char) : Nat :=
  0xDC00 + (c.toNat - 0x10000) % 0x400

/-- The ways to spell a character inside a string. -/
inductive Spelling : Char → List Char → Prop
  | plain {c : Char} (hquote : c ≠ '"') (hslash : c ≠ '\\') (hcontrol : 0x20 ≤ c.toNat) :
      Spelling c [c]
  | escape {letter c : Char} (h : (letter, c) ∈ escapes) : Spelling c ['\\', letter]
  | unit {c : Char} {digits : List Char} (h : CodeUnit c.toNat digits) :
      Spelling c ('\\' :: 'u' :: digits)
  | pair {c : Char} {high low : List Char} (hwide : 0x10000 ≤ c.toNat)
      (hhigh : CodeUnit (highUnit c) high) (hlow : CodeUnit (lowUnit c) low) :
      Spelling c ('\\' :: 'u' :: (high ++ '\\' :: 'u' :: low))

/-- The ways to spell a text between the quotes of a string. -/
inductive Spelled : List Char → List Char → Prop
  | nil : Spelled [] []
  | cons {c : Char} {text spelling written : List Char} (h : Spelling c spelling)
      (hrest : Spelled text written) : Spelled (c :: text) (spelling ++ written)

/-! ## Arrays -/

/-- Blanks of the format. -/
structure Padding where
  chars : List Char
  blank : ∀ c ∈ chars, c ∈ [' ', '\t', '\n', '\r']

/-- The strings of an array from the first one to the closing bracket. -/
inductive Elements : List String → List Char → Prop
  | last {item : String} {written : List Char} (h : Spelled item.toList written) (before : Padding) :
      Elements [item] ('"' :: (written ++ '"' :: (before.chars ++ [']'])))
  | cons {item : String} {items : List String} {written text : List Char}
      (h : Spelled item.toList written) (before after : Padding) (hrest : Elements items text) :
      Elements (item :: items)
        ('"' :: (written ++ '"' :: (before.chars ++ ',' :: (after.chars ++ text))))

/-- The texts of an array of strings. -/
inductive ArrayText : List String → List Char → Prop
  | empty (blanks : Padding) : ArrayText [] ('[' :: (blanks.chars ++ [']']))
  | elements {items : List String} {text : List Char} (blanks : Padding) (h : Elements items text) :
      ArrayText items ('[' :: (blanks.chars ++ text))

/-! ## Reading strings -/

theorem hexValue?_of_hexDigit {n : Nat} {c : Char} (h : HexDigit n c) : hexValue? c = some n := by
  have hdigits : ∀ n < 16, hexValue? (Nat.digitChar n) = some n ∧
      hexValue? (Nat.digitChar n).toUpper = some n := by decide
  cases h with
  | lower h => exact (hdigits n h).1
  | upper h => exact (hdigits n h).2

/-- Four digits are read as the code unit they denote, and there is no other number of them. -/
theorem CodeUnit.read {n : Nat} {digits : List Char} (h : CodeUnit n digits) :
    ∃ a b c d, digits = [a, b, c, d] ∧ hex4? a b c d = some n := by
  cases h with
  | digits ha hb hc hd =>
    refine ⟨_, _, _, _, rfl, ?_⟩
    rw [hex4?, hexValue?_of_hexDigit ha, hexValue?_of_hexDigit hb, hexValue?_of_hexDigit hc,
      hexValue?_of_hexDigit hd]
    rfl

theorem simpleEscape?_of_mem {letter c : Char} (h : (letter, c) ∈ escapes) :
    simpleEscape? letter = some c ∧ letter ≠ 'u' := by
  have hall : ∀ pair ∈ escapes, simpleEscape? pair.1 = some pair.2 ∧ pair.1 ≠ 'u' := by decide
  exact hall _ h

/-- The rest of a string with a character before it. -/
def readBefore (c : Char) (rest : List Char) : Reading (List Char) :=
  (readString rest).map fun (tail, after) => (c :: tail, after)

theorem readString_escape {letter c : Char} (h : (letter, c) ∈ escapes) (rest : List Char) :
    readString ('\\' :: letter :: rest) = readBefore c rest := by
  obtain ⟨hmeant, hletter⟩ := simpleEscape?_of_mem h
  rw [readString.eq_4 letter rest fun _ _ _ _ _ hu _ => hletter hu, hmeant]
  rfl

/-- A character with one code unit is none of the two halves of a pair. -/
theorem readString_unit {c : Char} {digits : List Char} (h : CodeUnit c.toNat digits)
    (rest : List Char) : readString ('\\' :: 'u' :: (digits ++ rest)) = readBefore c rest := by
  obtain ⟨_, _, _, _, rfl, hread⟩ := h.read
  have hvalid : c.toNat < 0xD800 ∨ 0xDFFF < c.toNat ∧ c.toNat < 0x110000 := c.valid
  have hsingle : (decide (c.toNat < 0xD800) || decide (0xE000 ≤ c.toNat)) = true := by
    simp only [Bool.or_eq_true, decide_eq_true_eq]
    omega
  refine (readString.eq_3 _ _ _ _ rest).trans ?_
  rw [hread]
  dsimp only
  rw [if_pos hsingle, Char.ofNat_toNat]
  rfl

theorem readString_pair {c : Char} {high low : List Char} (hwide : 0x10000 ≤ c.toNat)
    (hhigh : CodeUnit (highUnit c) high) (hlow : CodeUnit (lowUnit c) low) (rest : List Char) :
    readString ('\\' :: 'u' :: (high ++ '\\' :: 'u' :: (low ++ rest))) = readBefore c rest := by
  obtain ⟨_, _, _, _, rfl, hreadHigh⟩ := hhigh.read
  obtain ⟨_, _, _, _, rfl, hreadLow⟩ := hlow.read
  have hvalid : c.toNat < 0xD800 ∨ 0xDFFF < c.toNat ∧ c.toNat < 0x110000 := c.valid
  have hhalves : 0xD800 ≤ highUnit c ∧ highUnit c < 0xDC00 ∧ 0xDC00 ≤ lowUnit c ∧
      lowUnit c < 0xE000 := by
    unfold highUnit lowUnit
    omega
  have hboth : 0x10000 + (highUnit c - 0xD800) * 0x400 + (lowUnit c - 0xDC00) = c.toNat := by
    unfold highUnit lowUnit
    omega
  have hnotSingle : ¬(decide (highUnit c < 0xD800) || decide (0xE000 ≤ highUnit c)) = true := by
    simp only [Bool.or_eq_true, decide_eq_true_eq]
    omega
  have hsecond : (decide (0xDC00 ≤ lowUnit c) && decide (lowUnit c < 0xE000)) = true := by
    simp only [Bool.and_eq_true, decide_eq_true_eq]
    omega
  refine (readString.eq_3 _ _ _ _ _).trans ?_
  rw [hreadHigh]
  dsimp only
  rw [if_neg hnotSingle, if_neg (by omega)]
  simp only [List.append_eq, List.cons_append, List.nil_append, hreadLow, if_pos hsecond, hboth,
    Char.ofNat_toNat]
  rfl

theorem readString_of_spelling {c : Char} {spelling : List Char} (h : Spelling c spelling)
    (rest : List Char) : readString (spelling ++ rest) = readBefore c rest := by
  cases h with
  | plain hquote hslash hcontrol =>
    have hkept : ¬(decide (c = '\\') || decide (c.toNat < 0x20)) = true := by
      simp [hslash, Nat.not_lt.2 hcontrol]
    refine (readString.eq_5 c rest hquote (fun _ _ _ _ _ h _ => hslash h)
      fun _ _ h _ => hslash h).trans ?_
    rw [if_neg hkept]
    rfl
  | escape h => exact readString_escape h rest
  | unit h => exact readString_unit h rest
  | pair hwide hhigh hlow =>
    have hpair := readString_pair hwide hhigh hlow rest
    simpa using hpair

/-- Every spelling of a text is read as the text. -/
theorem readString_of_spelled {text written : List Char} (h : Spelled text written)
    (rest : List Char) : readString (written ++ '"' :: rest) = some (text, rest) := by
  induction h with
  | nil => rfl
  | cons h hrest ih =>
    rw [List.append_assoc, readString_of_spelling h, readBefore, ih]
    rfl

/-! ## Reading arrays -/

theorem skipBlanks_padding (padding : Padding) (text : List Char) :
    skipBlanks (padding.chars ++ text) = skipBlanks text :=
  List.dropWhile_append_of_pos fun c hc => by simpa [or_assoc] using padding.blank c hc

theorem readValue_padding (depth : Nat) (padding : Padding) (text : List Char) :
    readValue depth (padding.chars ++ text) = readValue depth text := by
  rw [readValue.eq_def, skipBlanks_padding, ← readValue.eq_def]

theorem readValue_string (depth : Nat) {item : String} {written : List Char}
    (h : Spelled item.toList written) (rest : List Char) :
    readValue depth ('"' :: (written ++ '"' :: rest)) = some (.string item, rest) := by
  have hskip : skipBlanks ('"' :: (written ++ '"' :: rest)) = '"' :: (written ++ '"' :: rest) :=
    List.dropWhile_cons_of_neg (by decide)
  rw [readValue.eq_def, hskip]
  simp only [readString_of_spelled h, Option.map_some, String.ofList_toList]

theorem readElements_padding (depth fuel : Nat) (padding : Padding) (text : List Char) :
    readElements (readValue depth) fuel (padding.chars ++ text) =
      readElements (readValue depth) fuel text := by
  cases fuel with
  | zero => rfl
  | succ fuel => rw [readElements, readElements, readValue_padding]

theorem readElements_of_elements (depth : Nat) {items : List String} {text : List Char}
    (h : Elements items text) {fuel : Nat} (hfuel : text.length ≤ fuel) :
    readElements (readValue depth) fuel text = some (items.map .string, []) := by
  induction h generalizing fuel with
  | last h before =>
    obtain ⟨fuel, rfl⟩ := Nat.exists_eq_add_of_le' (Nat.le_trans (Nat.succ_pos _) hfuel)
    rw [readElements, readValue_string depth h]
    dsimp only
    rw [skipBlanks_padding]
    rfl
  | cons h before after hrest ih =>
    obtain ⟨fuel, rfl⟩ := Nat.exists_eq_add_of_le' (Nat.le_trans (Nat.succ_pos _) hfuel)
    rw [readElements, readValue_string depth h]
    dsimp only
    rw [skipBlanks_padding]
    show (readElements (readValue depth) fuel _).map _ = _
    rw [readElements_padding, ih (by simp at hfuel; omega)]
    rfl

theorem Elements.eq_cons {items : List String} {text : List Char} (h : Elements items text) :
    ∃ tail, text = '"' :: tail := by
  cases h <;> exact ⟨_, rfl⟩

theorem readValue_of_arrayText (depth : Nat) {items : List String} {text : List Char}
    (h : ArrayText items text) :
    readValue (depth + 1) text = some (.array (items.map .string), []) := by
  cases h with
  | empty blanks =>
    show readArray (readValue depth) (blanks.chars ++ [']']) = _
    rw [readArray, skipBlanks_padding]
    rfl
  | elements blanks h =>
    have helements := readElements_of_elements depth h (Nat.le_refl _)
    obtain ⟨tail, rfl⟩ := h.eq_cons
    have hskip : skipBlanks ('"' :: tail) = '"' :: tail := List.dropWhile_cons_of_neg (by decide)
    show readArray (readValue depth) (blanks.chars ++ '"' :: tail) = _
    rw [readArray, skipBlanks_padding, hskip]
    show (readElements (readValue depth) _ ('"' :: tail)).map _ = _
    rw [helements]
    rfl

/-- The strings of an array are read from its text. -/
theorem array?_of_arrayText {items : List String} {text : List Char} (h : ArrayText items text) :
    array? text = some (items.map .string) := by
  have hread : readValue maxDepth text = some (.array (items.map .string), []) :=
    readValue_of_arrayText _ h
  rw [array?, hread]
  rfl

/-! ## Writing -/

theorem hexDigit_mod (n : Nat) : HexDigit (n % 16) (hexDigit n) :=
  .lower (Nat.mod_lt n (by decide))

/-- A written character is spelled in one of the ways of the format. -/
theorem spelling_escaped (c : Char) : Spelling c (escaped c) := by
  unfold escaped
  split_ifs with hquote hslash h h h h h hcontrol
  · subst hquote
    exact .escape (by decide)
  · subst hslash
    exact .escape (by decide)
  iterate 5
    subst h
    exact .escape (by decide)
  · have hunit : CodeUnit (((0 * 16 + 0) * 16 + c.toNat / 16 % 16) * 16 + c.toNat % 16)
        ['0', '0', hexDigit (c.toNat / 16), hexDigit c.toNat] :=
      .digits (hexDigit_mod 0) (hexDigit_mod 0) (hexDigit_mod _) (hexDigit_mod _)
    have hvalue : ((0 * 16 + 0) * 16 + c.toNat / 16 % 16) * 16 + c.toNat % 16 = c.toNat := by omega
    rw [hvalue] at hunit
    exact .unit hunit
  · exact .plain hquote hslash (Nat.not_lt.1 hcontrol)

theorem spelled_flatMap (text : List Char) : Spelled text (text.flatMap escaped) := by
  induction text with
  | nil => exact .nil
  | cons c text ih =>
    rw [List.flatMap_cons]
    exact .cons (spelling_escaped c) ih

/-- No blanks. -/
def Padding.none : Padding :=
  ⟨[], List.forall_mem_nil _⟩

theorem elements_compactElements (item : String) (items : List String) :
    Elements (item :: items) (stringText item ++ compactElements (items.map .string)) := by
  have hspelled := spelled_flatMap item.toList
  induction items generalizing item with
  | nil =>
    have hlast := Elements.last hspelled .none
    simpa [stringText, compactElements, Padding.none] using hlast
  | cons next items ih =>
    have hcons := Elements.cons hspelled .none .none (ih next (spelled_flatMap _))
    simpa [stringText, compactElements, compact, Padding.none] using hcons

/-- The text that is written for an array of strings is one of its texts. -/
theorem arrayText_compact (items : List String) :
    ArrayText items (compact (.array (items.map .string))) := by
  cases items with
  | nil => exact .empty .none
  | cons item items =>
    have h := ArrayText.elements .none (elements_compactElements item items)
    simpa [compact, Padding.none] using h

end BatchScript.Json
