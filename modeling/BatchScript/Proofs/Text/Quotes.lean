import BatchScript.Text.Quote
import Mathlib.Data.List.Basic

/-!
# Cuts outside quotes

A scan for a separator carries the quote that is open, so where the scan is in the text behind a front
part depends on that part only through the quote that it leaves open (`quoteEnd`). A separator is not
found exactly if it starts nowhere outside quotes (`cutOutside_eq_none_iff`).

A word between two spaces that stands in none of some texts with their quotes closed is found between them
only, when they are joined by it: cutting the joined text gives the texts back
(`splitOutside_intercalate`).
-/

namespace BatchScript.Text

/-! ## Starts of texts -/

theorem after?_eq_some_iff {start text tail : List Char} :
    after? start text = some tail ↔ text = start ++ tail := by
  induction start generalizing text with
  | nil => simp [after?, eq_comm]
  | cons a start ih =>
    cases text with
    | nil => simp [after?]
    | cons c text =>
      rw [after?, List.cons_append, List.cons.injEq, ← ih]
      split <;> simp_all [eq_comm]

theorem after?_append_self (start tail : List Char) : after? start (start ++ tail) = some tail :=
  after?_eq_some_iff.2 rfl

theorem after?_eq_none_iff {start text : List Char} :
    after? start text = none ↔ ¬ start <+: text := by
  rw [Option.eq_none_iff_forall_ne_some]
  constructor
  · rintro h ⟨tail, htail⟩
    exact h tail (after?_eq_some_iff.2 htail.symm)
  · intro h tail htail
    exact h ⟨tail, (after?_eq_some_iff.1 htail).symm⟩

/-! ## What cuts and splits keep -/

/-- A cut loses the separator and nothing else. -/
theorem eq_append_of_cutOutside {separator text front tail : List Char} {quote : Option Char}
    (h : cutOutside separator quote text = some (front, tail)) : text = front ++ (separator ++ tail) := by
  induction text generalizing quote front with
  | nil => cases h
  | cons c text ih =>
    rw [cutOutside] at h
    split at h
    next rest hrest =>
      obtain ⟨-, hafter⟩ := Option.ite_none_right_eq_some.1 hrest
      cases h
      rw [List.nil_append, after?_eq_some_iff.1 hafter]
    next =>
      obtain ⟨⟨front', tail'⟩, hcut, hpair⟩ := Option.map_eq_some_iff.1 h
      cases hpair
      rw [List.cons_append, ← ih hcut]

theorem splitOutside_ne_nil (separator text : List Char) : splitOutside separator text ≠ [] := by
  fun_cases splitOutside separator text <;> simp

/-- Every piece of a text stands in it. -/
theorem isInfix_of_mem_splitOutside {separator text piece : List Char}
    (h : piece ∈ splitOutside separator text) : piece <:+: text := by
  fun_induction splitOutside separator text with
  | case1 text => exact List.mem_singleton.1 h ▸ List.infix_rfl
  | case2 text => exact List.mem_singleton.1 h ▸ List.infix_rfl
  | case3 text front tail hcut hne ih =>
    have htext := eq_append_of_cutOutside hcut
    rcases List.mem_cons.1 h with rfl | htail
    · exact htext ▸ (List.prefix_append _ _).isInfix
    · refine (ih htail).trans (List.IsSuffix.isInfix ⟨front ++ separator, ?_⟩)
      rw [htext, List.append_assoc]

/-- A separator at which a text is cut stands in it. -/
theorem isInfix_of_occursOutside {separator text : List Char}
    (h : occursOutside separator text = true) : separator <:+: text := by
  obtain ⟨⟨front, tail⟩, hcut⟩ := Option.isSome_iff_exists.1 h
  exact ⟨front, tail, by rw [eq_append_of_cutOutside hcut, List.append_assoc]⟩

/-! ## The quote that is open -/

/-- The quote that is open after a text, where `quote` is the one open before it. -/
def quoteEnd (quote : Option Char) (text : List Char) : Option Char :=
  text.foldl quoteAfter quote

@[simp] theorem quoteEnd_nil (quote : Option Char) : quoteEnd quote [] = quote := rfl

@[simp] theorem quoteEnd_cons (quote : Option Char) (c : Char) (text : List Char) :
    quoteEnd quote (c :: text) = quoteEnd (quoteAfter quote c) text := rfl

@[simp] theorem quoteEnd_append (quote : Option Char) (front back : List Char) :
    quoteEnd quote (front ++ back) = quoteEnd (quoteEnd quote front) back :=
  List.foldl_append

/-- Every quote of a text is closed in it. -/
def Balanced (text : List Char) : Prop :=
  quoteEnd none text = none

instance (text : List Char) : Decidable (Balanced text) :=
  inferInstanceAs (Decidable (quoteEnd none text = none))

theorem Balanced.append {front back : List Char} (h : Balanced front) (h' : Balanced back) :
    Balanced (front ++ back) := by
  rw [Balanced, quoteEnd_append, h, h']

/-- The text has no quote characters. -/
def Plain (text : List Char) : Prop :=
  ∀ c ∈ text, isQuote c = false

instance (text : List Char) : Decidable (Plain text) :=
  List.decidableBAll (fun c => isQuote c = false) text

theorem Plain.append {front back : List Char} (h : Plain front) (h' : Plain back) :
    Plain (front ++ back) :=
  List.forall_mem_append.2 ⟨h, h'⟩

/-- Without a quote character nothing is opened. -/
theorem Plain.balanced {text : List Char} (h : Plain text) : Balanced text := by
  induction text with
  | nil => rfl
  | cons c text ih =>
    obtain ⟨hc, htext⟩ := List.forall_mem_cons.1 h
    rw [Balanced, quoteEnd_cons, quoteAfter, hc]
    exact ih htext

/-- An open quote is closed by its own character only. -/
theorem quoteEnd_some {quote : Char} {text : List Char} (h : quote ∉ text) :
    quoteEnd (some quote) text = some quote := by
  induction text with
  | nil => rfl
  | cons c text ih =>
    obtain ⟨hc, htext⟩ := not_or.1 (List.mem_cons.not.1 h)
    rw [quoteEnd_cons, quoteAfter, if_neg (Ne.symm hc)]
    exact ih htext

/-- The characters of a text that stand outside quotes. -/
def exposed : Option Char → List Char → List Char
  | _, [] => []
  | quote, c :: rest =>
    if quote.isNone && !isQuote c then c :: exposed quote rest else exposed (quoteAfter quote c) rest

theorem quoteAfter_of_outside {quote : Option Char} {c : Char}
    (h : (quote.isNone && !isQuote c) = true) : quoteAfter quote c = quote := by
  cases quote with
  | none =>
    have hc : isQuote c = false := by simpa using h
    rw [quoteAfter, hc]
    rfl
  | some quote => cases h

theorem exposed_append (quote : Option Char) (front back : List Char) :
    exposed quote (front ++ back) = exposed quote front ++ exposed (quoteEnd quote front) back := by
  induction front generalizing quote with
  | nil => rfl
  | cons c front ih =>
    rw [List.cons_append, exposed, exposed, quoteEnd_cons]
    split
    next h => rw [ih, List.cons_append, quoteAfter_of_outside h]
    next => exact ih _

theorem mem_of_mem_exposed {quote : Option Char} {text : List Char} {c : Char}
    (h : c ∈ exposed quote text) : c ∈ text := by
  induction text generalizing quote with
  | nil => cases h
  | cons d text ih =>
    rw [exposed] at h
    split at h
    next => exact List.mem_cons.2 ((List.mem_cons.1 h).imp_right ih)
    next => exact List.mem_cons_of_mem _ (ih h)

/-- Without a quote character everything stands outside quotes. -/
theorem Plain.exposed_eq {text : List Char} (h : Plain text) : exposed none text = text := by
  induction text with
  | nil => rfl
  | cons c text ih =>
    obtain ⟨hc, htext⟩ := List.forall_mem_cons.1 h
    rw [exposed, if_pos (by simp [hc]), ih htext]

/-- Nothing stands outside quotes before an open quote is closed. -/
theorem exposed_some {quote : Char} {text : List Char} (h : quote ∉ text) :
    exposed (some quote) text = [] := by
  induction text with
  | nil => rfl
  | cons c text ih =>
    obtain ⟨hc, htext⟩ := not_or.1 (List.mem_cons.not.1 h)
    rw [exposed, if_neg (by simp), quoteAfter, if_neg (Ne.symm hc)]
    exact ih htext

/-- What stands outside quotes, by its place in the text. -/
theorem mem_exposed_of_eq {quote : Option Char} {before after : List Char} {c : Char}
    (hquote : quoteEnd quote before = none) (hc : isQuote c = false) :
    c ∈ exposed quote (before ++ c :: after) := by
  rw [exposed_append, hquote, exposed, if_pos (by simp [hc])]
  exact List.mem_append_right _ List.mem_cons_self

/-! ## Cutting behind a front part -/

variable {separator : List Char} {quote : Option Char}

/-- If no separator starts in the front part, a text is cut behind it or not at all. -/
theorem cutOutside_append {front back : List Char}
    (h : ∀ before c after, front = before ++ c :: after → quoteEnd quote before = none →
      isQuote c = false → after? separator (c :: (after ++ back)) = none) :
    cutOutside separator quote (front ++ back) =
      (cutOutside separator (quoteEnd quote front) back).map fun (piece, rest) =>
        (front ++ piece, rest) := by
  induction front generalizing quote with
  | nil => cases hcut : cutOutside separator quote back <;> simp [hcut]
  | cons c front ih =>
    have hhere : (if quote.isNone && !isQuote c then after? separator (c :: (front ++ back))
        else none) = none := by
      split
      next hout =>
        obtain ⟨hquote, hc⟩ := Bool.and_eq_true_iff.1 hout
        exact h [] c front rfl (Option.isNone_iff_eq_none.1 hquote) (by simpa using hc)
      next => rfl
    have hrest := ih fun before d after hfront => h (c :: before) d after (congrArg _ hfront)
    rw [List.cons_append, cutOutside, hhere, hrest, Option.map_map]
    rfl

/-- Nothing is cut exactly if no separator starts outside quotes. -/
theorem cutOutside_eq_none_iff {text : List Char} :
    cutOutside separator quote text = none ↔
      ∀ before c after, text = before ++ c :: after → quoteEnd quote before = none →
        isQuote c = false → after? separator (c :: after) = none := by
  constructor
  · intro h before c after htext hquote hc
    induction before generalizing quote text with
    | nil =>
      rw [htext, List.nil_append, cutOutside] at h
      split at h
      next => cases h
      next hhere =>
        have hout : (quote.isNone && !isQuote c) = true := by simp_all
        rwa [if_pos hout] at hhere
    | cons d before ih =>
      rw [htext, List.cons_append, cutOutside] at h
      split at h
      next => cases h
      next => exact ih (Option.map_eq_none_iff.1 h) rfl hquote
  · intro h
    have hcut := @cutOutside_append separator quote text [] fun before c after htext hquote hc => by
      rw [List.append_nil]
      exact h before c after htext hquote hc
    rwa [List.append_nil] at hcut

/-- Where nothing is cut, nothing is cut in a front part either. -/
theorem cutOutside_eq_none_of_append_left {front back : List Char}
    (h : cutOutside separator quote (front ++ back) = none) :
    cutOutside separator quote front = none := by
  refine cutOutside_eq_none_iff.2 fun before c after hfront hquote hc => ?_
  have hlong := cutOutside_eq_none_iff.1 h before c (after ++ back) (by simp [hfront]) hquote hc
  rw [after?_eq_none_iff] at hlong ⊢
  exact fun hstart => hlong (hstart.trans (List.prefix_append (c :: after) back))

/-- Where nothing is cut, nothing is cut behind a front part either. -/
theorem cutOutside_eq_none_of_append_right {front back : List Char}
    (h : cutOutside separator quote (front ++ back) = none) :
    cutOutside separator (quoteEnd quote front) back = none := by
  refine cutOutside_eq_none_iff.2 fun before c after hback hquote hc => ?_
  refine cutOutside_eq_none_iff.1 h (front ++ before) c after (by simp [hback]) ?_ hc
  rwa [quoteEnd_append]

/-- A separator does not start where its first character does not stand outside quotes. -/
theorem cutOutside_append_of_not_exposed {first : Char} {front back : List Char}
    (h : first ∉ exposed quote front) :
    cutOutside (first :: separator) quote (front ++ back) =
      (cutOutside (first :: separator) (quoteEnd quote front) back).map fun (piece, rest) =>
        (front ++ piece, rest) := by
  refine cutOutside_append fun before c after hfront hquote hc => ?_
  rw [after?, if_neg]
  rintro rfl
  exact h (hfront ▸ mem_exposed_of_eq hquote hc)

/-- A separator without quotes does not start where one of its characters does not stand outside
quotes. -/
theorem cutOutside_eq_none_of_not_exposed {text : List Char} {c : Char}
    (hplain : Plain separator) (hc : c ∈ separator) (h : c ∉ exposed quote text) :
    cutOutside separator quote text = none := by
  refine cutOutside_eq_none_iff.2 fun before d after htext hquote _ => ?_
  rw [after?_eq_none_iff]
  rintro ⟨tail, htail⟩
  refine h ?_
  rw [htext, ← htail, exposed_append, hquote, exposed_append, hplain.exposed_eq]
  exact List.mem_append_right _ (List.mem_append_left _ hc)

/-! ## Words between spaces -/

/-- A word with a space before it and a space after it. -/
def spaced (word : List Char) : List Char :=
  ' ' :: (word ++ [' '])

/-- A word between spaces is not found in a text with fewer than two spaces. -/
theorem cutOutside_spaced_eq_none (word : List Char) {text : List Char} (h : text.count ' ' < 2) :
    cutOutside (spaced word) quote text = none := by
  refine cutOutside_eq_none_iff.2 fun before c after htext _ _ => ?_
  rw [after?_eq_none_iff]
  rintro ⟨tail, htail⟩
  rw [htext, ← htail] at h
  simp [spaced] at h
  omega

/-- Outside quotes, the word does not stand between spaces in the text, the two ends of the text
counting as spaces. -/
def Lacks (word text : List Char) : Prop :=
  cutOutside (spaced word) none (' ' :: (text ++ [' '])) = none

instance (word text : List Char) : Decidable (Lacks word text) :=
  inferInstanceAs (Decidable (cutOutside (spaced word) none (' ' :: (text ++ [' '])) = none))

variable {word : List Char} (hword : ' ' ∉ word)

include hword

/-- A word and the space after it do not reach beyond the next space. -/
theorem after?_append_space {front : List Char} (h : after? (word ++ [' ']) (front ++ [' ']) = none)
    (back : List Char) : after? (word ++ [' ']) (front ++ ' ' :: back) = none := by
  induction word generalizing front with
  | nil =>
    cases front with
    | nil => cases h
    | cons c front =>
      rw [List.nil_append, List.cons_append, after?] at h ⊢
      split at h
      · cases h
      · rw [if_neg ‹_›]
  | cons a word ih =>
    obtain ⟨ha, hword⟩ := not_or.1 (List.mem_cons.not.1 hword)
    cases front with
    | nil => exact if_neg (Ne.symm ha)
    | cons c front =>
      rw [List.cons_append, List.cons_append, after?] at h ⊢
      split at h
      · rw [if_pos ‹_›]
        exact ih hword h
      · rw [if_neg ‹_›]

/-- A word between spaces that is not found before a space is not found to start there. -/
theorem cutOutside_append_space {front : List Char}
    (h : cutOutside (spaced word) quote (front ++ [' ']) = none) (back : List Char) :
    cutOutside (spaced word) quote (front ++ ' ' :: back) =
      (cutOutside (spaced word) (quoteEnd quote front) (' ' :: back)).map fun (piece, rest) =>
        (front ++ piece, rest) := by
  refine cutOutside_append fun before c after hfront hquote hc => ?_
  have hshort := cutOutside_eq_none_iff.1 h before c (after ++ [' ']) (by simp [hfront]) hquote hc
  rw [spaced, after?] at hshort ⊢
  split at hshort
  · rw [if_pos ‹_›]
    exact after?_append_space hword hshort back
  · rw [if_neg ‹_›]

/-- The word is not found where two texts that lack it stand with a space between them. -/
theorem Lacks.append_space {front back : List Char} (hfront : Lacks word front)
    (hbalanced : Balanced front) (hback : Lacks word back) :
    Lacks word (front ++ ' ' :: back) := by
  have hlong : cutOutside (spaced word) none ((' ' :: front) ++ [' ']) = none := hfront
  have hcut := cutOutside_append_space hword hlong (back ++ [' '])
  have hquote : quoteEnd none (' ' :: front) = none := hbalanced
  rw [hquote, hback] at hcut
  rw [Lacks, List.append_assoc]
  exact hcut

omit hword in
/-- The word is not found inside a text that lacks it. -/
theorem Lacks.cutOutside_eq_none {text : List Char} (h : Lacks word text) :
    cutOutside (spaced word) none text = none ∧
      cutOutside (spaced word) none (text ++ [' ']) = none :=
  have hspaced : cutOutside (spaced word) none ([' '] ++ (text ++ [' '])) = none := h
  have hlong : cutOutside (spaced word) none (text ++ [' ']) = none :=
    cutOutside_eq_none_of_append_right hspaced
  ⟨cutOutside_eq_none_of_append_left hlong, hlong⟩

omit hword in
theorem Lacks.occursOutside_eq_false {text : List Char} (h : Lacks word text) :
    occursOutside (spaced word) text = false :=
  congrArg Option.isSome h.cutOutside_eq_none.1

/-- A text with its quotes closed is cut off by the first word that follows it. -/
theorem cutOutside_spaced {front : List Char} (hbalanced : Balanced front) (hfront : Lacks word front)
    (back : List Char) :
    cutOutside (spaced word) none (front ++ (spaced word ++ back)) = some (front, back) := by
  have hhere : cutOutside (spaced word) none (spaced word ++ back) = some ([], back) := by
    have hafter := after?_append_self (spaced word) back
    rw [spaced, List.cons_append] at hafter ⊢
    rw [cutOutside, if_pos (by decide), hafter]
  have hcut := cutOutside_append_space hword hfront.cutOutside_eq_none.2 (word ++ [' '] ++ back)
  have hquote : quoteEnd none front = none := hbalanced
  rw [hquote] at hcut
  have hall : ' ' :: (word ++ [' '] ++ back) = spaced word ++ back := rfl
  rw [hall, hhere] at hcut
  exact hcut.trans (by simp)

/-- Two texts that are joined by a word they lack are cut there. -/
theorem cutOutside_intercalate {first : List Char} (hbalanced : Balanced first)
    (hfirst : Lacks word first) (next : List Char) (rest : List (List Char)) :
    cutOutside (spaced word) none ((spaced word).intercalate (first :: next :: rest)) =
      some (first, (spaced word).intercalate (next :: rest)) := by
  rw [List.intercalate_cons_cons, List.append_assoc, cutOutside_spaced hword hbalanced hfirst]

/-- Texts that are joined by a word they lack are the pieces of the joined text. -/
theorem splitOutside_intercalate {pieces : List (List Char)} (hpieces : pieces ≠ [])
    (h : ∀ piece ∈ pieces, Balanced piece ∧ Lacks word piece) :
    splitOutside (spaced word) ((spaced word).intercalate pieces) = pieces := by
  induction pieces with
  | nil => exact absurd rfl hpieces
  | cons piece rest ih =>
    obtain ⟨⟨hbalanced, hlacks⟩, hrest⟩ := List.forall_mem_cons.1 h
    cases rest with
    | nil =>
      rw [List.intercalate_singleton]
      exact splitOutside_of_cutOutside_eq_none hlacks.cutOutside_eq_none.1
    | cons next rest =>
      have hspaced : spaced word ≠ [] := List.cons_ne_nil _ _
      rw [splitOutside_of_cutOutside_eq_some hspaced
        (cutOutside_intercalate hword hbalanced hlacks next rest), ih (List.cons_ne_nil _ _) hrest]

end BatchScript.Text
