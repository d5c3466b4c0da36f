import BatchScript.Proofs.Text.Blanks
import BatchScript.Proofs.Variables.References

/-!
# Substitution goes through a text once

The references of a text are found by one scan from its left end, and no reference reaches across a
dollar sign (`parts_append_dollar`). So a text may be taken apart at any reference in it: what stands
before the reference and what stands after it are substituted by themselves, and between them stands the
value of the name, as it is (`Variables.resolveExcept_composes`).
-/

namespace BatchScript

namespace Text

/-! ## Parts of a text in their order -/

theorem written_of_reference? {text rest : List Char} {part : Part}
    (h : reference? text = some (part, rest)) : part.written ++ rest = '$' :: text := by
  unfold reference? at h
  split at h
  next inner =>
    split at h
    next tail heq =>
      obtain ⟨-, hpair⟩ := Option.ite_none_right_eq_some.1 h
      cases hpair
      have hinner : inner.takeWhile isNameChar ++ inner.dropWhile isNameChar = inner :=
        List.takeWhile_append_dropWhile
      rw [heq] at hinner
      simp [Part.written, hinner]
    next => cases h
  next =>
    obtain ⟨-, hpair⟩ := Option.ite_none_right_eq_some.1 h
    cases hpair
    simp [Part.written]

/-- The parts of a text, as they are written, are the text. -/
theorem flatMap_written_parts (text : List Char) : (parts text).flatMap Part.written = text := by
  induction hsize : text.length using Nat.strongRecOn generalizing text with
  | ind size ih =>
  subst hsize
  cases text with
  | nil => rw [parts_nil, List.flatMap_nil]
  | cons c rest =>
    rw [parts_cons]
    split
    next part tail hpart =>
      obtain ⟨rfl, href⟩ := Option.ite_none_right_eq_some.1 hpart
      have htail := ih _ (Nat.lt_succ_of_le (length_of_reference? href)) tail rfl
      rw [List.flatMap_cons, htail, written_of_reference? href]
    next =>
      rw [List.flatMap_cons, ih _ (Nat.lt_succ_self _) rest rfl]
      rfl

/-- Without a brace at its start, a text begins a reference if it begins with an identifier. -/
theorem reference?_of_head?_ne {text : List Char} (h : text.head? ≠ some '{') :
    reference? text =
      if isIdentifier (text.takeWhile isNameChar) then
        some (.reference (text.takeWhile isNameChar) false, text.dropWhile isNameChar)
      else none := by
  unfold reference?
  split
  · exact absurd rfl h
  · rfl

/-! ## Scanning up to a dollar sign -/

/-- A reference ends before the next dollar sign. -/
theorem reference?_append_dollar (text back : List Char) :
    reference? (text ++ '$' :: back) =
      (reference? text).map fun (part, rest) => (part, rest ++ '$' :: back) := by
  have hdollar : isNameChar '$' = false := by decide
  by_cases hbrace : text.head? = some '{'
  · obtain ⟨inner, rfl⟩ := List.head?_eq_some_iff.1 hbrace
    simp only [List.cons_append, reference?, takeWhile_append_cons hdollar,
      dropWhile_append_cons hdollar]
    rcases inner.dropWhile isNameChar with _ | ⟨close, tail⟩
    · rfl
    · by_cases hclose : close = '}'
      · subst hclose
        simp only [List.cons_append]
        split <;> rfl
      · simp [hclose]
  · have hlong : (text ++ '$' :: back).head? ≠ some '{' := by
      cases text with
      | nil => exact fun h => absurd (Option.some.inj h) (by decide)
      | cons c rest => exact hbrace
    rw [reference?_of_head?_ne hbrace, reference?_of_head?_ne hlong, takeWhile_append_cons hdollar,
      dropWhile_append_cons hdollar]
    split <;> rfl

/-- The parts of a text are those before a dollar sign and those from it on. -/
theorem parts_append_dollar (front back : List Char) :
    parts (front ++ '$' :: back) = parts front ++ parts ('$' :: back) := by
  induction hsize : front.length using Nat.strongRecOn generalizing front with
  | ind size ih =>
  subst hsize
  cases front with
  | nil => rw [parts_nil, List.nil_append, List.nil_append]
  | cons c rest =>
    rw [List.cons_append, parts_cons, parts_cons, reference?_append_dollar]
    by_cases hc : c = '$'
    · rw [if_pos hc, if_pos hc]
      cases href : reference? rest with
      | none => exact congrArg _ (ih _ (Nat.lt_succ_self _) rest rfl)
      | some found =>
        exact congrArg _ (ih _ (Nat.lt_succ_of_le (length_of_reference? href)) found.2 rfl)
    · rw [if_neg hc, if_neg hc]
      exact congrArg _ (ih _ (Nat.lt_succ_self _) rest rfl)

/-! ## Scanning from a reference on -/

variable {name : List Char}

theorem all_isNameChar_of_isIdentifier (h : isIdentifier name = true) :
    ∀ c ∈ name, isNameChar c = true := by
  cases name with
  | nil => cases h
  | cons first rest =>
    obtain ⟨hfirst, hrest⟩ := Bool.and_eq_true_iff.1 h
    refine List.forall_mem_cons.2 ⟨?_, List.all_eq_true.1 hrest⟩
    rw [isNameChar, hfirst, Bool.true_or]

theorem parts_braced (h : isIdentifier name = true) (back : List Char) :
    parts ('$' :: '{' :: (name ++ '}' :: back)) = .reference name true :: parts back := by
  have hchars := all_isNameChar_of_isIdentifier h
  have hbrace : isNameChar '}' = false := by decide
  have htake : name.takeWhile isNameChar = name := List.takeWhile_eq_self_iff.2 hchars
  have hdrop : name.dropWhile isNameChar = [] := List.dropWhile_eq_nil_iff.2 hchars
  have href : reference? ('{' :: (name ++ '}' :: back)) = some (.reference name true, back) := by
    simp only [reference?, takeWhile_append_cons hbrace, dropWhile_append_cons hbrace, htake, hdrop,
      List.nil_append, h, if_true]
  rw [parts_cons, if_pos rfl, href]

/-- An unbraced reference ends before the first character that is not part of a name. -/
theorem parts_unbraced (h : isIdentifier name = true) {back : List Char}
    (hback : ∀ c ∈ back.head?, isNameChar c = false) :
    parts ('$' :: (name ++ back)) = .reference name false :: parts back := by
  have hchars := all_isNameChar_of_isIdentifier h
  have htake : (name ++ back).takeWhile isNameChar = name := by
    rw [List.takeWhile_append_of_pos hchars]
    cases back with
    | nil => exact List.append_nil _
    | cons c rest => rw [List.takeWhile_cons_of_neg (by simp [hback c rfl]), List.append_nil]
  have hdrop : (name ++ back).dropWhile isNameChar = back := by
    rw [List.dropWhile_append_of_pos hchars]
    cases back with
    | nil => rfl
    | cons c rest => exact List.dropWhile_cons_of_neg (by simp [hback c rfl])
  have hhead : (name ++ back).head? ≠ some '{' := by
    cases name with
    | nil => cases h
    | cons first rest =>
      rintro hfirst
      obtain rfl : first = '{' := Option.some.inj hfirst
      exact absurd (hchars '{' List.mem_cons_self) (by decide)
  have href : reference? (name ++ back) = some (.reference name false, back) := by
    rw [reference?_of_head?_ne hhead, htake, hdrop, if_pos h]
  rw [parts_cons, if_pos rfl, href]

end Text

namespace Variables

variable (vars : Variables) (kept : List String)

/-! ## Substituting part by part -/

theorem resolveExcept_append_dollar (front back : List Char) :
    vars.resolveExcept kept (front ++ '$' :: back) =
      vars.resolveExcept kept front ++ vars.resolveExcept kept ('$' :: back) := by
  unfold resolveExcept Text.substitute
  rw [Text.parts_append_dollar, List.flatMap_append]

/-- A reference becomes the value of its name, or stays as it is written if its name is kept. -/
theorem resolveExcept_of_parts {text back : List Char} {name : String} {braced : Bool}
    (h : Text.parts text = .reference name.toList braced :: Text.parts back) :
    vars.resolveExcept kept text =
      (if name ∈ kept then (Text.Part.reference name.toList braced).written
        else (vars.get name "").toList) ++ vars.resolveExcept kept back := by
  unfold resolveExcept Text.substitute
  rw [h, List.flatMap_cons, Text.Part.expand, String.ofList_toList]
  by_cases hkept : name ∈ kept <;> simp [hkept]

/-- A text without references stays as it is. -/
theorem resolveExcept_of_no_reference {text : List Char}
    (h : ∀ name braced, .reference name braced ∉ Text.parts text) :
    vars.resolveExcept kept text = text := by
  refine Eq.trans (List.flatMap_congr fun part hpart => ?_) (Text.flatMap_written_parts text)
  cases part with
  | char c => rfl
  | reference name braced => exact absurd hpart (h name braced)

/-- Substitution goes through a text once and part by part. Around a reference, with or without braces,
the text before it and the text after it are substituted by themselves, and in between stands the value
of the name, copied as it is, or the reference as it is written if its name is kept; an unbraced
reference reaches as far as its name can. A text in which no reference is written stays as it is. -/
theorem resolveExcept_composes :
    (∀ (front back : List Char) (name : String), validName name = true →
      vars.resolveExcept kept (front ++ '$' :: '{' :: (name.toList ++ '}' :: back)) =
        vars.resolveExcept kept front ++
          (if name ∈ kept then '$' :: '{' :: (name.toList ++ ['}']) else (vars.get name "").toList) ++
          vars.resolveExcept kept back) ∧
    (∀ (front back : List Char) (name : String), validName name = true →
      (∀ c ∈ back.head?, Text.isNameChar c = false) →
      vars.resolveExcept kept (front ++ '$' :: (name.toList ++ back)) =
        vars.resolveExcept kept front ++
          (if name ∈ kept then '$' :: name.toList else (vars.get name "").toList) ++
          vars.resolveExcept kept back) ∧
    ∀ text : List Char,
      (∀ (front back : List Char) (name : String), validName name = true →
        text ≠ front ++ '$' :: '{' :: (name.toList ++ '}' :: back) ∧
        text ≠ front ++ '$' :: (name.toList ++ back)) →
      vars.resolveExcept kept text = text := by
  refine ⟨fun front back name hname => ?_, fun front back name hname hback => ?_,
    fun text htext => ?_⟩
  · rw [resolveExcept_append_dollar,
      resolveExcept_of_parts vars kept (Text.parts_braced hname back), List.append_assoc]
    rfl
  · rw [resolveExcept_append_dollar,
      resolveExcept_of_parts vars kept (Text.parts_unbraced hname hback), List.append_assoc]
    rfl
  · refine vars.resolveExcept_of_no_reference kept fun name braced hpart => ?_
    obtain ⟨before, after, hparts⟩ := List.append_of_mem hpart
    have hname : validName (.ofList name) = true := by
      rw [validName, String.toList_ofList]
      exact Text.isIdentifier_of_mem_parts hpart
    have hwritten := Text.flatMap_written_parts text
    rw [hparts, List.flatMap_append, List.flatMap_cons] at hwritten
    obtain ⟨hbraced, hunbraced⟩ := htext (before.flatMap Text.Part.written)
      (after.flatMap Text.Part.written) (.ofList name) hname
    rw [String.toList_ofList] at hbraced hunbraced
    cases braced with
    | true => exact hbraced (by simpa [Text.Part.written] using hwritten.symm)
    | false => exact hunbraced hwritten.symm

/-! ### A sample -/

/-- A variable whose value looks like a reference to the other one. -/
def Sample.referring : Variables where
  script := (Bindings.empty.insert "A" "$B").insert "B" "b"
  environment := .ofProcess .isolated .empty

/-- A dollar sign before a digit begins no reference, and neither does the one in a value. -/
theorem resolveExcept_composes_sample :
    Sample.referring.resolveExcept ["K"] ['$', '5', '$', '{', 'A', '}', '$', 'K', '-'] =
      ['$', '5', '$', 'B', '$', 'K', '-'] := by
  obtain ⟨hbraced, hunbraced, hplain⟩ := Sample.referring.resolveExcept_composes ["K"]
  have hnone : ∀ c ≠ '$', ∀ front rest : List Char, [c] ≠ front ++ '$' :: rest := by
    intro c hc front rest h
    have hmem : '$' ∈ [c] := h ▸ List.mem_append_right front List.mem_cons_self
    exact hc (List.mem_singleton.1 hmem).symm
  have hfront : Sample.referring.resolveExcept ["K"] ['$', '5'] = ['$', '5'] := by
    refine hplain _ fun front back name hname => ⟨fun h => ?_, fun h => ?_⟩
    · rcases List.cons_eq_append_iff.1 h with ⟨-, hrest⟩ | ⟨front, -, hrest⟩
      · cases hrest
      · exact hnone '5' (by decide) front _ hrest
    · rcases List.cons_eq_append_iff.1 h with ⟨-, hrest⟩ | ⟨front, -, hrest⟩
      · have hfirst := congrArg (·.tail.head?) hrest
        rw [validName] at hname
        cases hchars : name.toList with
        | nil => simp [hchars, Text.isIdentifier] at hname
        | cons c rest =>
          obtain rfl : c = '5' := by simpa [hchars] using hfirst
          simp [hchars, Text.isIdentifier, Text.isNameStart] at hname
      · exact hnone '5' (by decide) front _ hrest
  have hback : Sample.referring.resolveExcept ["K"] ['-'] = ['-'] :=
    hplain _ fun front back name _ => ⟨hnone '-' (by decide) front _, hnone '-' (by decide) front _⟩
  have hempty : Sample.referring.resolveExcept ["K"] [] = [] :=
    hplain [] fun front back name _ => ⟨by simp, by simp⟩
  have hvalue : (Sample.referring.get "A" "").toList = ['$', 'B'] := by decide +kernel
  have hinner := hbraced ['$', '5'] [] "A" (by decide)
  rw [hfront, hempty, if_neg (by decide), hvalue] at hinner
  have hend : ∀ c ∈ ['-'].head?, Text.isNameChar c = false := by
    rintro _ ⟨⟩
    decide
  have hwhole := hunbraced ['$', '5', '$', '{', 'A', '}'] ['-'] "K" (by decide) hend
  rw [hback, if_pos (by decide)] at hwhole
  exact hwhole.trans (congrArg (· ++ ['$', 'K'] ++ ['-']) hinner)

end Variables

end BatchScript
