import BatchScript.Proofs.Condition.Reading
import BatchScript.Proofs.Variables.Substitution

/-!
# What a condition depends on

Everything that a condition is made of stands in its text: keywords, operators, tests for files and the
texts of its leaves (`Condition.read_writtenIn`). Values are put in when it is evaluated, and only for
names that are written in a leaf (`Condition.evaluate_congr`). So the variables reach the result of a
condition through the values of the names in its text and in no other way (`Condition.holds_depends`).
-/

namespace BatchScript

open Text

namespace Variables

/-- The name of a reference stands in the text. -/
theorem isInfix_of_mem_references {text : List Char} {name : String} (h : name ∈ references text) :
    name.toList <:+: text := by
  obtain ⟨part, hpart, hname⟩ := List.mem_filterMap.1 h
  have hwritten : part.written <:+: text := by
    conv_rhs => rw [← flatMap_written_parts text]
    exact List.infix_of_mem_flatten (List.mem_map_of_mem hpart)
  cases part with
  | char c => cases hname
  | reference chars braced =>
    cases hname
    rw [String.toList_ofList]
    refine List.IsInfix.trans ?_ hwritten
    cases braced with
    | true => exact ⟨['$', '{'], ['}'], rfl⟩
    | false => exact ⟨['$'], [], by simp [Part.written]⟩

/-- Two stores give the names that are written in the text the same values. -/
def AgreeIn (text : List Char) (vars other : Variables) : Prop :=
  ∀ name, validName name = true → name.toList <:+: text → vars.get name "" = other.get name ""

variable {vars other : Variables} {text leaf : List Char}

theorem AgreeIn.mono (h : AgreeIn text vars other) (hleaf : leaf <:+: text) :
    AgreeIn leaf vars other :=
  fun name hname hin => h name hname (hin.trans hleaf)

theorem AgreeIn.resolve_eq (h : AgreeIn text vars other) : vars.resolve text = other.resolve text :=
  resolveExcept_congr
    (fun name hname => h name (validName_of_mem_references hname) (isInfix_of_mem_references hname)) []

end Variables

namespace Condition

/-! ## What a condition is made of -/

/-- The condition is made of what is written in a text: its keywords, its operators between their
operands, its tests for files and the texts of its leaves. -/
def WrittenIn (text : List Char) : Condition → Prop
  | .literal value => ∃ word, word <:+: text ∧ literal? word = some value
  | .exists path => ∃ front back, existsWord ++ (front ++ path ++ back) <:+: text
  | .malformedExists call => call <:+: text
  | .and left right => andWord <:+: text ∧ left.WrittenIn text ∧ right.WrittenIn text
  | .or left right => orWord <:+: text ∧ left.WrittenIn text ∧ right.WrittenIn text
  | .not operand => notWord <:+: text ∧ operand.WrittenIn text
  | .compare operator left right => left ++ (operator.symbol.toList ++ right) <:+: text
  | .truth leaf => leaf <:+: text

variable {text longer : List Char}

theorem WrittenIn.mono {condition : Condition} (h : condition.WrittenIn text)
    (hlonger : text <:+: longer) : condition.WrittenIn longer := by
  induction condition with
  | literal value =>
    obtain ⟨word, hword, hvalue⟩ := h
    exact ⟨word, hword.trans hlonger, hvalue⟩
  | «exists» path =>
    obtain ⟨front, back, hcall⟩ := h
    exact ⟨front, back, hcall.trans hlonger⟩
  | malformedExists call => exact List.IsInfix.trans h hlonger
  | and left right hleft hright =>
    exact ⟨h.1.trans hlonger, hleft h.2.1, hright h.2.2⟩
  | or left right hleft hright =>
    exact ⟨h.1.trans hlonger, hleft h.2.1, hright h.2.2⟩
  | not operand hoperand => exact ⟨h.1.trans hlonger, hoperand h.2⟩
  | compare operator left right => exact List.IsInfix.trans h hlonger
  | truth leaf => exact List.IsInfix.trans h hlonger

/-- A chain is made of its operands and of what joins them. -/
theorem writtenIn_chain {join : Condition → Condition → Condition}
    (hjoin : ∀ left right, left.WrittenIn text → right.WrittenIn text → (join left right).WrittenIn text)
    {operands : List Condition} (hne : operands ≠ [])
    (h : ∀ operand ∈ operands, operand.WrittenIn text) : (chain join operands).WrittenIn text := by
  induction operands with
  | nil => exact absurd rfl hne
  | cons first rest ih =>
    obtain ⟨hfirst, hrest⟩ := List.forall_mem_cons.1 h
    cases rest with
    | nil => exact hfirst
    | cons next rest => exact hjoin _ _ hfirst (ih (List.cons_ne_nil _ _) hrest)

/-! ## Reading -/

theorem readExists?_writtenIn {condition : Condition} (h : readExists? text = some condition) :
    condition.WrittenIn text := by
  unfold readExists? at h
  split at h
  next => cases h
  next inner hinner =>
    have htext := after?_eq_some_iff.1 hinner
    dsimp only at h
    split at h
    next path hpath =>
      cases h
      obtain ⟨-, hliteral⟩ := Option.ite_none_right_eq_some.1 hpath
      obtain ⟨quote, -, -, htrim⟩ := quotedLiteral?_eq_some hliteral
      have hin : [quote] ++ path ++ [quote] <:+: inner := by
        have hdrop : inner.dropLast <:+: inner := (List.dropLast_prefix inner).isInfix
        simpa [htrim] using (isInfix_trim inner.dropLast).trans hdrop
      obtain ⟨front, back, hinner⟩ := hin
      refine ⟨front ++ [quote], [quote] ++ back, ?_⟩
      rw [htext, ← hinner]
      simp
    next =>
      split at h
      · cases h
      · cases h
        exact List.infix_rfl

theorem readAtom_writtenIn (text : List Char) : (readAtom text).WrittenIn text := by
  unfold readAtom
  split
  next operator left right hfind =>
    obtain ⟨found, -, hcut⟩ := List.exists_of_findSome?_eq_some hfind
    obtain ⟨⟨front, tail⟩, hfront, hpair⟩ := Option.map_eq_some_iff.1 hcut
    cases hpair
    exact eq_append_of_cutOutside hfront ▸ List.infix_rfl
  next => exact List.infix_rfl

/-- A condition is made of what is written in its text. -/
theorem read_writtenIn (raw : List Char) : (read raw).WrittenIn raw := by
  induction hlength : raw.length using Nat.strongRecOn generalizing raw with
  | ind length ih =>
  subst hlength
  have htrim := isInfix_trim raw
  have hshort := length_trim_le raw
  have hpieces : ∀ separator ≠ [], occursOutside separator (trim raw) = true →
      ∀ operand ∈ (splitOutside separator (trim raw)).map read, operand.WrittenIn raw := by
    intro separator hne hcut operand hoperand
    obtain ⟨piece, hpiece, rfl⟩ := List.mem_map.1 hoperand
    have hlt := length_lt_of_mem_splitOutside hcut hne hpiece
    exact (ih piece.length (by omega) piece rfl).mono ((isInfix_of_mem_splitOutside hpiece).trans htrim)
  rw [read_eq]
  split
  next value _ hvalue => exact ⟨_, htrim, hvalue⟩
  next test _ htest => exact (readExists?_writtenIn htest).mono htrim
  next =>
    split_ifs with hand hor
    · refine writtenIn_chain (fun left right hleft hright => ?_) ?_ (hpieces _ (by decide) hand)
      · exact ⟨(isInfix_of_occursOutside hand).trans htrim, hleft, hright⟩
      · simp [splitOutside_ne_nil]
    · refine writtenIn_chain (fun left right hleft hright => ?_) ?_ (hpieces _ (by decide) hor)
      · exact ⟨(isInfix_of_occursOutside hor).trans htrim, hleft, hright⟩
      · simp [splitOutside_ne_nil]
    · split
      next operand hoperand =>
        have htext := after?_eq_some_iff.1 hoperand
        have hlt := length_of_after? hoperand
        have hword : notWord.length = 4 := rfl
        refine ⟨(htext ▸ (List.prefix_append _ _).isInfix).trans htrim, ?_⟩
        refine (ih operand.length (by omega) operand rfl).mono (List.IsInfix.trans ?_ htrim)
        exact htext ▸ (List.suffix_append _ _).isInfix
      next => exact (readAtom_writtenIn _).mono htrim

/-! ## Evaluation -/

section Evaluation

variable {vars other : Variables}

theorem operand_eq_of_agreeIn (h : Variables.AgreeIn text vars other) :
    operand vars text = operand other text := by
  have htrim := h.mono (isInfix_trim text)
  unfold operand
  by_cases hname : isIdentifier (trim text) = true
  · have hvalue := htrim (.ofList (trim text)) (by simpa [Variables.validName] using hname) (by simp)
    simp only [hname, if_true, hvalue]
  · simp only [if_neg hname, htrim.resolve_eq]

theorem evaluate_congr (pathExists : String → Bool) {condition : Condition}
    (hwritten : condition.WrittenIn text) (h : Variables.AgreeIn text vars other) :
    condition.evaluate pathExists vars = condition.evaluate pathExists other := by
  induction condition with
  | literal value => rfl
  | «exists» path =>
    obtain ⟨front, back, hcall⟩ := hwritten
    have hpath : path <:+: text :=
      List.IsInfix.trans ⟨existsWord ++ front, back, by simp⟩ hcall
    rw [evaluate, evaluate, (h.mono hpath).resolve_eq]
  | malformedExists call => rfl
  | and left right hleft hright =>
    rw [evaluate, evaluate, hleft hwritten.2.1, hright hwritten.2.2]
  | or left right hleft hright =>
    rw [evaluate, evaluate, hleft hwritten.2.1, hright hwritten.2.2]
  | not operand hoperand => rw [evaluate, evaluate, hoperand hwritten.2]
  | compare operator left right =>
    have hleft : left <:+: text := (List.prefix_append _ _).isInfix.trans hwritten
    have hright : right <:+: text :=
      List.IsInfix.trans ⟨left ++ operator.symbol.toList, [], by simp⟩ hwritten
    rw [evaluate, evaluate, operand_eq_of_agreeIn (h.mono hleft), operand_eq_of_agreeIn (h.mono hright)]
  | truth leaf => rw [evaluate, evaluate, (h.mono hwritten).resolve_eq]

/-- A condition depends on the variables only through the names that are written in it. One tree, made of
what is written in the text, is evaluated whatever the variables are, so nothing in a value becomes a
keyword, an operator or a test for a file. And two stores that give the same values to the names that stand
in the text give it the same result or the same fault, so nothing in a value is looked up as a name. -/
theorem holds_depends (text : String) :
    ∃ condition : Condition, condition.WrittenIn text.toList ∧
      (∀ pathExists vars, holds pathExists vars text = condition.evaluate pathExists vars) ∧
      ∀ (pathExists : String → Bool) (vars other : Variables),
        (∀ name, Variables.validName name = true → name.toList <:+: text.toList →
          vars.get name "" = other.get name "") →
        holds pathExists vars text = holds pathExists other text :=
  ⟨read text.toList, read_writtenIn _, fun _ _ => rfl,
    fun pathExists _ _ h => evaluate_congr pathExists (read_writtenIn _) h⟩

/-- Variables of which one has the name of another as its value. -/
def Sample.naming (value : String) : Variables where
  script := ((Bindings.empty.insert "A" "C").insert "B" "1").insert "C" value
  environment := .ofProcess .isolated .empty

/-- The name that stands in a value is not looked up. -/
theorem holds_depends_sample :
    (∀ name, Variables.validName name = true → name.toList <:+: "A > B".toList →
        (Sample.naming "5").get name "" = (Sample.naming "no").get name "") ∧
      holds (fun _ => false) (Sample.naming "5") "A > B" =
        holds (fun _ => false) (Sample.naming "no") "A > B" ∧
      holds (fun _ => false) (Sample.naming "no") "A > B" = .error (.nonNumeric ">" "C" "1") := by
  have hagree : ∀ name, Variables.validName name = true → name.toList <:+: "A > B".toList →
      (Sample.naming "5").get name "" = (Sample.naming "no").get name "" := by
    intro name _ hin
    have hne : name ≠ "C" := by
      rintro rfl
      exact absurd (hin.subset (List.mem_singleton_self 'C')) (by decide)
    simp [Variables.get, Sample.naming, Bindings.get?_insert, hne]
  obtain ⟨_, _, _, hdepends⟩ := holds_depends "A > B"
  refine ⟨hagree, hdepends _ _ _ hagree, ?_⟩
  rw [holds, show read "A > B".toList = .compare .greater ['A', ' '] [' ', 'B'] by
    rw [read_eq]; decide +kernel]
  decide +kernel

end Evaluation

end Condition

end BatchScript
