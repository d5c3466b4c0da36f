import BatchScript.Condition
import BatchScript.Proofs.Text.Blanks
import BatchScript.Proofs.Text.Quotes

/-!
# The scans that a condition goes through

A condition is scanned for one construct after the other. For each of the scans before the comparisons,
this module says which texts it leaves to the scans that follow: a text with a space or with a mark of a
comparison spells no truth value (`literal?_eq_none_of_mem`), and a test for a file takes no text in which
a logical operator stands outside quotes (`readExists?_eq_none_of_cut`).
-/

namespace BatchScript

namespace Text

theorem isQuote_of_isBlank {c : Char} (h : isBlank c = true) : isQuote c = false := by
  rw [isQuote, Bool.or_eq_false_iff, decide_eq_false_iff_not, decide_eq_false_iff_not]
  constructor <;> rintro rfl <;> exact absurd h (by decide)

theorem plain_of_isBlank {text : List Char} (h : ∀ c ∈ text, isBlank c = true) : Plain text :=
  fun c hc => isQuote_of_isBlank (h c hc)

/-- The blanks that a text starts with open no quote. -/
theorem quoteEnd_takeWhile_isBlank (text : List Char) :
    quoteEnd none (text.takeWhile isBlank) = none :=
  (plain_of_isBlank fun _ => List.mem_takeWhile_imp).balanced

theorem Balanced.trimStart {text : List Char} (h : Balanced text) : Balanced (trimStart text) := by
  have hwhole : quoteEnd none text = none := h
  rwa [← takeWhile_append_trimStart text, quoteEnd_append, quoteEnd_takeWhile_isBlank] at hwhole

theorem mem_exposed_of_trimStart {text : List Char} {c : Char}
    (h : c ∈ exposed none (trimStart text)) : c ∈ exposed none text := by
  rw [← takeWhile_append_trimStart text, exposed_append, quoteEnd_takeWhile_isBlank]
  exact List.mem_append_right _ h

theorem mem_exposed_of_trimEnd {text : List Char} {c : Char}
    (h : c ∈ exposed none (trimEnd text)) : c ∈ exposed none text := by
  rw [← trimEnd_append_rtakeWhile text, exposed_append]
  exact List.mem_append_left _ h

/-- A separator that does not start in a text does not start in the trimmed text. -/
theorem cutOutside_trim_eq_none {separator text : List Char}
    (h : cutOutside separator none text = none) : cutOutside separator none (trim text) = none := by
  rw [← takeWhile_append_trimStart text] at h
  have hstart := cutOutside_eq_none_of_append_right h
  rw [quoteEnd_takeWhile_isBlank, ← trimEnd_append_rtakeWhile (Text.trimStart text)] at hstart
  exact cutOutside_eq_none_of_append_left hstart

/-- A quoted literal is a body without its quote between two of them. -/
theorem quotedLiteral?_eq_some {text body : List Char} (h : quotedLiteral? text = some body) :
    ∃ quote, isQuote quote = true ∧ quote ∉ body ∧ text = quote :: (body ++ [quote]) := by
  cases text with
  | nil => cases h
  | cons quote rest =>
    obtain ⟨hcond, hbody⟩ := Option.ite_none_right_eq_some.1 h
    simp only [Bool.and_eq_true, beq_iff_eq, Bool.not_eq_true', List.contains_eq_mem,
      decide_eq_false_iff_not] at hcond
    obtain ⟨⟨hquote, hlast⟩, hfree⟩ := hcond
    cases hbody
    obtain ⟨front, rfl⟩ := List.getLast?_eq_some_iff.1 hlast
    exact ⟨quote, hquote, hfree, by simp⟩

/-- A quoted literal hides its body. -/
theorem exposed_quoted {quote : Char} {body : List Char} (hquote : isQuote quote = true)
    (hbody : quote ∉ body) (back : List Char) :
    exposed none (quote :: (body ++ [quote]) ++ back) = exposed none back := by
  rw [List.cons_append, List.append_assoc, exposed, if_neg (by simp [hquote]), quoteAfter,
    if_pos hquote, exposed_append, exposed_some hbody, quoteEnd_some hbody]
  simp [exposed, quoteAfter]

end Text

namespace Condition

open Text

/-- No spelling of a truth value has a space or a mark of a comparison in it. -/
theorem literal?_eq_none_of_mem {c : Char} (hc : c ∈ [' ', '=', '!', '<', '>']) {text : List Char}
    (h : c ∈ text) : literal? text = none := by
  have hown : (c.toNat < 0x80 ∧ c.toLower = c) ∧
      ∀ word ∈ ["true", "1", "yes", "false", "0", "no", "", "\"\"", "''"], c ∉ word.toList := by
    simp only [List.mem_cons, List.not_mem_nil, or_false] at hc
    rcases hc with rfl | rfl | rfl | rfl | rfl <;> decide
  obtain ⟨⟨hascii, hlower⟩, hfree⟩ := hown
  have hne : ∀ word ∈ ["true", "1", "yes", "false", "0", "no", "", "\"\"", "''"],
      String.ofList (lower text) ≠ word := by
    rintro word hword rfl
    exact hfree _ hword (by simpa using mem_lower hascii hlower h)
  simp [literal?, hne]

/-- What stands outside quotes in a lone test for a file. -/
theorem exposed_exists {inner path : List Char} (hlast : inner.getLast? = some ')')
    (hpath : quotedLiteral? (trim inner.dropLast) = some path) :
    ∀ c ∈ exposed none (existsWord ++ inner), c ∈ existsWord ∨ isBlank c = true ∨ c = ')' := by
  obtain ⟨argument, rfl⟩ := List.getLast?_eq_some_iff.1 hlast
  rw [List.dropLast_concat] at hpath
  obtain ⟨quote, hquote, hfree, htrim⟩ := quotedLiteral?_eq_some hpath
  obtain ⟨front, back, hargument, hfront, hback⟩ := exists_eq_append_trim argument
  have hword : Plain existsWord := by decide
  have hplain : Plain (existsWord ++ front) := hword.append (plain_of_isBlank hfront)
  have hplain' : Plain (back ++ [')']) := (plain_of_isBlank hback).append (by decide)
  have hsplit : existsWord ++ (argument ++ [')']) =
      (existsWord ++ front) ++ (quote :: (path ++ [quote]) ++ (back ++ [')'])) := by
    rw [hargument, htrim]
    simp only [List.append_assoc]
  intro c hc
  rw [hsplit, exposed_append, hplain.exposed_eq, hplain.balanced, exposed_quoted hquote hfree,
    hplain'.exposed_eq] at hc
  simp only [List.mem_append, List.mem_singleton] at hc
  rcases hc with (hc | hc) | hc | hc
  · exact .inl hc
  · exact .inr (.inl (hfront c hc))
  · exact .inr (.inl (hback c hc))
  · exact .inr (.inr hc)

/-- A separator with a character of its own does not start in a lone test for a file. -/
theorem occursOutside_exists_eq_false {separator inner path : List Char} {c : Char}
    (hlast : inner.getLast? = some ')') (hpath : quotedLiteral? (trim inner.dropLast) = some path)
    (hplain : Plain separator) (hc : c ∈ separator)
    (hown : c ∉ existsWord ∧ isBlank c = false ∧ c ≠ ')') :
    occursOutside separator (existsWord ++ inner) = false := by
  have hexposed : c ∉ exposed none (existsWord ++ inner) := by
    intro h
    rcases exposed_exists hlast hpath c h with h | h | h
    · exact hown.1 h
    · exact Bool.false_ne_true (hown.2.1.symm.trans h)
    · exact hown.2.2 h
  rw [occursOutside, cutOutside_eq_none_of_not_exposed hplain hc hexposed, Option.isSome_none]

/-- A text in which a logical operator stands outside quotes is not read as a test for a file. -/
theorem readExists?_eq_none_of_cut {text : List Char}
    (h : (occursOutside andWord text || occursOutside orWord text) = true) :
    readExists? text = none := by
  unfold readExists?
  split
  next => rfl
  next inner hinner =>
    rw [after?_eq_some_iff.1 hinner] at h ⊢
    have hargument : (if inner.getLast? = some ')' then quotedLiteral? (trim inner.dropLast)
        else none) = none := by
      refine Option.eq_none_iff_forall_ne_some.2 fun path hpath => ?_
      obtain ⟨hlast, hpath⟩ := Option.ite_none_right_eq_some.1 hpath
      have hand : occursOutside andWord (existsWord ++ inner) = false :=
        occursOutside_exists_eq_false (c := 'a') hlast hpath (by decide) (by decide) (by decide)
      have hor : occursOutside orWord (existsWord ++ inner) = false :=
        occursOutside_exists_eq_false (c := 'o') hlast hpath (by decide) (by decide) (by decide)
      rw [hand, hor] at h
      cases h
    simp only [hargument, h, if_true]

/-- A text that does not start like a test for a file is not read as one. -/
theorem readExists?_eq_none_of_not_starts {text : List Char} (h : ¬ existsWord <+: text) :
    readExists? text = none := by
  rw [readExists?, after?_eq_none_iff.2 h]

/-- A text that nothing before the comparisons takes is read as a comparison or for its own truth. -/
theorem read_eq_readAtom {raw text : List Char} (htrim : trim raw = text)
    (hliteral : literal? text = none) (hexists : ¬ existsWord <+: text)
    (hand : cutOutside andWord none text = none) (hor : cutOutside orWord none text = none)
    (hnot : ¬ notWord <+: text) : read raw = readAtom text := by
  rw [read_eq, htrim, hliteral, readExists?_eq_none_of_not_starts hexists, occursOutside, hand,
    occursOutside, hor, after?_eq_none_iff.2 hnot]
  rfl

end Condition

end BatchScript
