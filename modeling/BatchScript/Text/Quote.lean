import BatchScript.Text.Blank

/-!
# Quotes

A quote is opened by `"` or `'` and closed by the same character; the other kind is ordinary text
inside it. This module strips one pair of quotes around a text and finds and splits at separators
that start outside every quote.
-/

namespace BatchScript.Text

/-- The two characters that open a quote. -/
def isQuote (c : Char) : Bool :=
  c = '"' || c = '\''

/-- The text without one pair of equal quotes around it. -/
def stripQuotes : List Char → List Char
  | [] => []
  | c :: rest => if isQuote c && rest.getLast? == some c then rest.dropLast else c :: rest

/-- A string without one pair of equal quotes around it. -/
def unquoted (text : String) : String :=
  .ofList (stripQuotes text.toList)

/-- The body of a text that is one quoted literal and nothing else. -/
def quotedLiteral? : List Char → Option (List Char)
  | [] => none
  | c :: rest =>
    if isQuote c && rest.getLast? == some c && !rest.dropLast.contains c then some rest.dropLast
    else none

/-- What remains of a text after `start`, if the text starts with it. -/
def after? : (start text : List Char) → Option (List Char)
  | [], text => some text
  | _ :: _, [] => none
  | a :: start, c :: text => if a = c then after? start text else none

/-- The quote that is open after `c`, where `quote` is the one open before it. -/
def quoteAfter (quote : Option Char) (c : Char) : Option Char :=
  match quote with
  | some q => if c = q then none else some q
  | none => if isQuote c then some c else none

/-- Cuts a text at the first `separator` that starts outside quotes, given the quote that is open
at the text's start: the text before it and the text after it. -/
def cutOutside (separator : List Char) : Option Char → List Char → Option (List Char × List Char)
  | _, [] => none
  | quote, c :: rest =>
    match if quote.isNone && !isQuote c then after? separator (c :: rest) else none with
    | some tail => some ([], tail)
    | none =>
      (cutOutside separator (quoteAfter quote c) rest).map fun (front, tail) => (c :: front, tail)

theorem length_of_after? {start text tail : List Char} (h : after? start text = some tail) :
    text.length = start.length + tail.length := by
  induction start generalizing text with
  | nil => simp_all [after?]
  | cons a start ih =>
    cases text with
    | nil => simp [after?] at h
    | cons c text =>
      rw [after?] at h
      split at h
      · rw [List.length_cons, List.length_cons, ih h]; omega
      · contradiction

/-- A cut loses exactly the separator. -/
theorem length_of_cutOutside {separator text front tail : List Char} {quote : Option Char}
    (h : cutOutside separator quote text = some (front, tail)) :
    text.length = front.length + separator.length + tail.length := by
  induction text generalizing quote front with
  | nil => simp [cutOutside] at h
  | cons c text ih =>
    rw [cutOutside] at h
    split at h
    next s hs =>
      obtain ⟨rfl, rfl⟩ : [] = front ∧ s = tail := by simpa using h
      split at hs
      · simpa using length_of_after? hs
      · contradiction
    next =>
      obtain ⟨⟨front', tail'⟩, hcut, heq⟩ := Option.map_eq_some_iff.1 h
      obtain ⟨rfl, rfl⟩ : c :: front' = front ∧ tail' = tail := by simpa using heq
      rw [List.length_cons, ih hcut, List.length_cons]
      omega

/-- Whether a separator starts somewhere outside quotes. -/
def occursOutside (separator text : List Char) : Bool :=
  (cutOutside separator none text).isSome

/-- The pieces of a text between the separators that start outside quotes, cut from the left. A
text without one is a single piece, and so is every text for an empty separator. -/
def splitOutside (separator text : List Char) : List (List Char) :=
  match _h : cutOutside separator none text with
  | none => [text]
  | some (front, tail) =>
    if separator = [] then [text] else front :: splitOutside separator tail
termination_by text.length
decreasing_by
  have hlen := length_of_cutOutside _h
  have : 0 < separator.length := List.length_pos_iff.2 (by assumption)
  omega

/-- Without a separator outside quotes a text is one piece. -/
theorem splitOutside_of_cutOutside_eq_none {separator text : List Char}
    (h : cutOutside separator none text = none) : splitOutside separator text = [text] := by
  rw [splitOutside]
  split
  · rfl
  · simp_all

/-- The first piece ends at the first separator outside quotes. -/
theorem splitOutside_of_cutOutside_eq_some {separator text front tail : List Char}
    (hsep : separator ≠ []) (h : cutOutside separator none text = some (front, tail)) :
    splitOutside separator text = front :: splitOutside separator tail := by
  rw [splitOutside]
  split
  · simp_all
  · next front' tail' h' =>
    obtain ⟨rfl, rfl⟩ : front' = front ∧ tail' = tail := by simpa [h] using h'.symm
    rw [if_neg hsep]

/-- Every piece of a text that was cut at least once is shorter than the text. -/
theorem length_lt_of_mem_splitOutside {separator text piece : List Char}
    (hcut : occursOutside separator text = true) (hsep : separator ≠ [])
    (hmem : piece ∈ splitOutside separator text) : piece.length < text.length := by
  have hpos : 0 < separator.length := List.length_pos_iff.2 hsep
  have hle : ∀ n (t : List Char), t.length ≤ n →
      ∀ p ∈ splitOutside separator t, p.length ≤ t.length := by
    intro n
    induction n with
    | zero =>
      intro t ht p hp
      have : t = [] := List.length_eq_zero_iff.1 (by omega)
      subst this
      rw [splitOutside] at hp
      simp_all [cutOutside]
    | succ n ih =>
      intro t ht p hp
      rw [splitOutside] at hp
      split at hp
      next => simp_all
      next front tail h =>
        have hlen := length_of_cutOutside h
        rw [if_neg hsep] at hp
        rcases List.mem_cons.1 hp with rfl | hp
        · omega
        · have := ih tail (by omega) p hp
          omega
  rw [splitOutside] at hmem
  split at hmem
  next h => simp [occursOutside, h] at hcut
  next front tail h =>
    have hlen := length_of_cutOutside h
    rw [if_neg hsep] at hmem
    rcases List.mem_cons.1 hmem with rfl | hmem
    · omega
    · have := hle _ tail (Nat.le_refl _) piece hmem
      omega

end BatchScript.Text
