import BatchScript.Condition
import BatchScript.Proofs.Text.Quotes
import Mathlib.Order.Bounds.Basic

/-!
# The operands of a chain

A chain of conditions is cut at its logical operators, and the scan for the next one begins anew behind
each cut. Where an operator starts outside quotes is told by one scan of the whole text (`starts`). Since
no quote is open where an operator starts, and none of its characters opens one, a scan that begins
behind it sees what the scan of the whole text sees there (`add_mem_starts_iff`), so the cuts are made at
the first place where an operator starts, and then at the first one behind the last cut each
(`isLeast_cut`).
-/

namespace BatchScript

namespace Text

/-- The positions of a text at which a separator starts and no quote is open, where `quote` is the one
that is open before the text. -/
def starts (separator : List Char) (quote : Option Char) (text : List Char) : Set Nat :=
  {position | quoteEnd quote (text.take position) = none ∧ separator <+: text.drop position}

variable {separator text : List Char} {quote : Option Char}

theorem succ_mem_starts_cons_iff {c : Char} {position : Nat} :
    position + 1 ∈ starts separator quote (c :: text) ↔
      position ∈ starts separator (quoteAfter quote c) text :=
  Iff.rfl

/-- Behind a front part a separator starts where it starts in the rest of the text, read with the quote
that the front part leaves open. -/
theorem add_mem_starts_iff {front back : List Char} {position : Nat} :
    front.length + position ∈ starts separator quote (front ++ back) ↔
      position ∈ starts separator (quoteEnd quote front) back := by
  change _ = none ∧ _ <+: _ ↔ _ = none ∧ _ <+: _
  rw [List.take_length_add_append, List.drop_length_add_append, quoteEnd_append]

/-! ## Cuts -/

section Cut

variable (hne : separator ≠ []) (hplain : Plain separator)

include hne hplain

/-- A text is cut where the separator starts first. -/
theorem isLeast_of_cutOutside {front tail : List Char}
    (h : cutOutside separator quote text = some (front, tail)) :
    IsLeast (starts separator quote text) front.length := by
  induction text generalizing quote front with
  | nil => cases h
  | cons c text ih =>
    rw [cutOutside] at h
    split at h
    next rest hrest =>
      obtain ⟨hout, hafter⟩ := Option.ite_none_right_eq_some.1 hrest
      cases h
      have hquote : quote = none := by simp_all
      exact ⟨⟨hquote, tail, (after?_eq_some_iff.1 hafter).symm⟩, fun _ _ => Nat.zero_le _⟩
    next hhere =>
      obtain ⟨⟨front, tail⟩, hcut, hpair⟩ := Option.map_eq_some_iff.1 h
      cases hpair
      obtain ⟨hmem, hleast⟩ := ih hcut
      refine ⟨succ_mem_starts_cons_iff.2 hmem, fun position hposition => ?_⟩
      cases position with
      | zero =>
        -- At the first character the separator would have been found.
        obtain ⟨rfl, hstart⟩ : quote = none ∧ separator <+: c :: text := hposition
        obtain ⟨a, rest, rfl⟩ := List.exists_cons_of_ne_nil hne
        obtain ⟨rfl, -⟩ := List.cons_prefix_cons.1 hstart
        have hquote : isQuote a = false := hplain a List.mem_cons_self
        rw [if_pos (by simp [hquote]), after?_eq_none_iff] at hhere
        exact absurd hstart hhere
      | succ position =>
        exact Nat.succ_le_succ (hleast (succ_mem_starts_cons_iff.1 hposition))

/-- A text is not cut exactly if the separator starts nowhere outside quotes. -/
theorem cutOutside_eq_none_iff_starts :
    cutOutside separator quote text = none ↔ starts separator quote text = ∅ := by
  constructor
  · intro h
    refine Set.eq_empty_of_forall_notMem fun position ⟨hquote, hstart⟩ => ?_
    obtain ⟨a, rest, rfl⟩ := List.exists_cons_of_ne_nil hne
    obtain ⟨tail, htail⟩ := hstart
    have htext : text = text.take position ++ a :: (rest ++ tail) := by
      rw [← List.cons_append, htail, List.take_append_drop]
    have hnone := cutOutside_eq_none_iff.1 h _ _ _ htext hquote (hplain a List.mem_cons_self)
    exact after?_eq_none_iff.1 hnone (List.prefix_append (a :: rest) tail)
  · intro h
    refine Option.eq_none_iff_forall_ne_some.2 fun ⟨front, tail⟩ hcut => ?_
    have hmem := (isLeast_of_cutOutside hne hplain hcut).1
    exact Set.notMem_empty _ (h ▸ hmem)

omit hplain in
theorem lt_length_of_mem_starts {position : Nat} (h : position ∈ starts separator quote text) :
    position < text.length := by
  have hlength := h.2.length_le
  have hpos := List.length_pos_iff.2 hne
  rw [List.length_drop] at hlength
  omega

omit hplain in
/-- A separator that starts in a front part starts there in the whole text. -/
theorem mem_starts_append {front : List Char} {position : Nat}
    (h : position ∈ starts separator quote front) (back : List Char) :
    position ∈ starts separator quote (front ++ back) := by
  have hle := Nat.le_of_lt (lt_length_of_mem_starts hne h)
  obtain ⟨hquote, hstart⟩ := h
  refine ⟨by rwa [List.take_append_of_le_length hle], ?_⟩
  rw [List.drop_append_of_le_length hle]
  exact hstart.trans (List.prefix_append _ _)

omit hne in
/-- No quote is open behind a separator that starts outside quotes. -/
theorem quoteEnd_take_add {position : Nat} (h : position ∈ starts separator quote text) :
    quoteEnd quote (text.take (position + separator.length)) = none := by
  obtain ⟨hquote, tail, htail⟩ := h
  have htake : text.take (position + separator.length) = text.take position ++ separator := by
    rw [List.take_add, ← htail, List.take_left]
  rw [htake, quoteEnd_append, hquote]
  exact hplain.balanced

/-! ## Pieces -/

omit hne hplain in
/-- The pieces of a text, joined by the separator, are the text. -/
theorem intercalate_splitOutside (separator text : List Char) :
    separator.intercalate (splitOutside separator text) = text := by
  fun_induction splitOutside separator text with
  | case1 text hcut => exact List.intercalate_singleton
  | case2 text => exact List.intercalate_singleton
  | case3 text front tail hcut hne ih =>
    obtain ⟨next, rest, hrest⟩ := List.exists_cons_of_ne_nil (splitOutside_ne_nil separator tail)
    rw [hrest] at ih ⊢
    rw [List.intercalate_cons_cons, ih, List.append_assoc, ← eq_append_of_cutOutside hcut]

omit hplain in
/-- A text in which the separator occurs is cut. -/
theorem two_le_length_splitOutside (h : occursOutside separator text = true) :
    2 ≤ (splitOutside separator text).length := by
  obtain ⟨⟨front, tail⟩, hcut⟩ := Option.isSome_iff_exists.1 h
  have hpos := List.length_pos_iff.2 (splitOutside_ne_nil separator tail)
  rw [splitOutside_of_cutOutside_eq_some hne hcut, List.length_cons]
  omega

/-- Outside the quotes of a piece, the separator starts nowhere. -/
theorem starts_of_mem_splitOutside {piece : List Char} (h : piece ∈ splitOutside separator text) :
    starts separator none piece = ∅ := by
  fun_induction splitOutside separator text with
  | case1 text hcut =>
    rw [List.mem_singleton.1 h]
    exact (cutOutside_eq_none_iff_starts hne hplain).1 hcut
  | case2 text => contradiction
  | case3 text front tail hcut _ ih =>
    rcases List.mem_cons.1 h with rfl | h
    · refine Set.eq_empty_of_forall_notMem fun position hposition => ?_
      have hlt := lt_length_of_mem_starts hne hposition
      have htext := mem_starts_append hne hposition (separator ++ tail)
      rw [← eq_append_of_cutOutside hcut] at htext
      exact Nat.not_le_of_lt hlt ((isLeast_of_cutOutside hne hplain hcut).2 htext)
    · exact ih h

omit hplain in
theorem exists_cut_of_splitOutside {front next : List Char} {rest : List (List Char)}
    (h : splitOutside separator text = front :: next :: rest) :
    ∃ tail, cutOutside separator none text = some (front, tail) ∧
      splitOutside separator tail = next :: rest := by
  cases hcut : cutOutside separator none text with
  | none =>
    rw [splitOutside_of_cutOutside_eq_none hcut] at h
    cases h
  | some cut =>
    obtain ⟨first, tail⟩ := cut
    rw [splitOutside_of_cutOutside_eq_some hne hcut] at h
    obtain ⟨rfl, hrest⟩ := List.cons.inj h
    exact ⟨tail, rfl, hrest⟩

/-- Each piece that has others behind it ends at the first place behind the last cut where the
separator starts, told by one scan of the whole text. -/
theorem isLeast_cut {before after : List (List Char)} {piece next : List Char}
    (h : splitOutside separator text = before ++ piece :: next :: after) :
    IsLeast
      {position | position ∈ starts separator none text ∧
        (before.flatMap (· ++ separator)).length ≤ position}
      ((before.flatMap (· ++ separator)).length + piece.length) := by
  induction before generalizing text with
  | nil =>
    obtain ⟨tail, hcut, -⟩ := exists_cut_of_splitOutside hne h
    have hleast := isLeast_of_cutOutside hne hplain hcut
    simpa using hleast
  | cons first before ih =>
    obtain ⟨second, others, hothers⟩ := List.exists_cons_of_ne_nil
      (List.append_ne_nil_of_right_ne_nil before (List.cons_ne_nil piece (next :: after)))
    rw [List.cons_append, hothers] at h
    obtain ⟨tail, hcut, hsplit⟩ := exists_cut_of_splitOutside hne h
    obtain ⟨⟨hmem, hle⟩, hleast⟩ := ih (hsplit.trans hothers.symm)
    have hshift : ∀ position, (first ++ separator).length + position ∈ starts separator none text ↔
        position ∈ starts separator none tail := by
      intro position
      have hfirst := (isLeast_of_cutOutside hne hplain hcut).1.1
      rw [eq_append_of_cutOutside hcut, List.take_left] at hfirst
      have hquote : quoteEnd none (first ++ separator) = none := by
        rw [quoteEnd_append, hfirst]
        exact hplain.balanced
      rw [eq_append_of_cutOutside hcut, ← List.append_assoc, add_mem_starts_iff, hquote]
    have hdone : ((first :: before).flatMap (· ++ separator)).length =
        (first ++ separator).length + (before.flatMap (· ++ separator)).length := by
      rw [List.flatMap_cons, List.length_append]
    rw [hdone, Nat.add_assoc]
    refine ⟨⟨(hshift _).2 hmem, Nat.add_le_add_left hle _⟩, fun position ⟨hposition, hbehind⟩ => ?_⟩
    obtain ⟨offset, rfl⟩ := Nat.exists_eq_add_of_le (Nat.le_of_add_right_le hbehind)
    refine Nat.add_le_add_left (hleast ⟨(hshift offset).1 hposition, ?_⟩) _
    exact Nat.le_of_add_le_add_left hbehind

end Cut

end Text

namespace Condition

open Text

/-- The logical operators that join operands. -/
theorem joiners_plain {word : List Char} (h : word ∈ [andWord, orWord]) : word ≠ [] ∧ Plain word := by
  rcases List.mem_pair.1 h with rfl | rfl <;> decide

/-- A text is cut at a logical operator exactly if the operator starts somewhere outside quotes, the
quotes being told by one scan from the start of the whole text. The pieces, joined by the operator,
are the text, and the operator does not start outside the quotes of any of them. Each cut is made at the
first place behind the last one where the operator starts, and before the operator and behind it no quote
of the whole text is open. -/
theorem splitOutside_exact {word : List Char} (hword : word ∈ [andWord, orWord]) (text : List Char) :
    (occursOutside word text = false ↔ starts word none text = ∅) ∧
      (occursOutside word text = false → splitOutside word text = [text]) ∧
      (occursOutside word text = true →
        2 ≤ (splitOutside word text).length ∧
        word.intercalate (splitOutside word text) = text ∧
        (∀ piece ∈ splitOutside word text, starts word none piece = ∅) ∧
        ∀ before piece next after, splitOutside word text = before ++ piece :: next :: after →
          let done := before.flatMap (· ++ word)
          let cut := done.length + piece.length
          IsLeast {position | position ∈ starts word none text ∧ done.length ≤ position} cut ∧
          quoteEnd none (text.take cut) = none ∧
          quoteEnd none (text.take (cut + word.length)) = none) := by
  obtain ⟨hne, hplain⟩ := joiners_plain hword
  refine ⟨?_, fun hnone => ?_, fun hcut => ⟨?_, ?_, ?_, ?_⟩⟩
  · rw [occursOutside, Option.isSome_eq_false_iff, Option.isNone_iff_eq_none,
      cutOutside_eq_none_iff_starts hne hplain]
  · rw [occursOutside, Option.isSome_eq_false_iff, Option.isNone_iff_eq_none] at hnone
    exact splitOutside_of_cutOutside_eq_none hnone
  · exact two_le_length_splitOutside hne hcut
  · exact intercalate_splitOutside word text
  · exact fun piece hpiece => starts_of_mem_splitOutside hne hplain hpiece
  · intro before piece next after hpieces done cut
    have hleast := isLeast_cut hne hplain hpieces
    exact ⟨hleast, hleast.1.1.1, quoteEnd_take_add hplain hleast.1.1⟩

/-- Operators that overlap, and one in a quote that is not closed. -/
theorem splitOutside_exact_sample :
    let text := "a and and b and 'c and d".toList
    splitOutside andWord text = ["a".toList, "and b".toList, "'c and d".toList] ∧
      andWord.intercalate ["a".toList, "and b".toList, "'c and d".toList] = text ∧
      IsLeast {position | position ∈ starts andWord none text ∧ 6 ≤ position} 11 ∧
      quoteEnd none (text.take 16) = none := by
  intro text
  have hne : andWord ≠ [] := by decide
  have hfirst : cutOutside andWord none text = some ("a".toList, "and b and 'c and d".toList) := by
    decide +kernel
  have hsecond : cutOutside andWord none "and b and 'c and d".toList =
      some ("and b".toList, "'c and d".toList) := by
    decide +kernel
  have hpieces : splitOutside andWord text = ["a".toList, "and b".toList, "'c and d".toList] := by
    rw [splitOutside_of_cutOutside_eq_some hne hfirst,
      splitOutside_of_cutOutside_eq_some hne hsecond,
      splitOutside_of_cutOutside_eq_none (by decide +kernel)]
  have hword : andWord ∈ [andWord, orWord] := List.mem_cons_self
  obtain ⟨-, -, hcuts⟩ := splitOutside_exact hword text
  obtain ⟨-, hjoined, -, hcut⟩ := hcuts (congrArg Option.isSome hfirst)
  obtain ⟨hleast, -, hquote⟩ := hcut ["a".toList] "and b".toList "'c and d".toList [] hpieces
  rw [hpieces] at hjoined
  exact ⟨hpieces, hjoined, hleast, hquote⟩

end Condition

end BatchScript
