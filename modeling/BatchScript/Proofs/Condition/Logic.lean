import BatchScript.Proofs.Condition.Reading

/-!
# The logical structure of conditions

Texts in which no logical operator stands outside quotes are put together by ` or ` into conjuncts, and
these by ` and `. However the scans go, the whole is read as it was put together (`read_intercalate_and`,
`read_intercalate_or`), so it holds as the conjunction of the disjunctions of its atoms does, evaluated
from the left until it is settled (`Condition.holds_joined`).
-/

namespace BatchScript

/-! ## Scans that stop at an error -/

section Except

variable {α ε : Type} {p : α → Except ε Bool}

/-- The first item that is not passed is the first one of all or comes after it. -/
theorem exists_split_cons_iff {passes stops : α → Prop} {first : α} {rest : List α} :
    (∃ before item after, first :: rest = before ++ item :: after ∧
        (∀ other ∈ before, passes other) ∧ stops item) ↔
      stops first ∨ passes first ∧ ∃ before item after, rest = before ++ item :: after ∧
        (∀ other ∈ before, passes other) ∧ stops item := by
  constructor
  · rintro ⟨before, item, after, hsplit, hbefore, hitem⟩
    cases before with
    | nil =>
      obtain ⟨rfl, -⟩ := List.cons.inj hsplit
      exact .inl hitem
    | cons other before =>
      obtain ⟨rfl, hrest⟩ := List.cons.inj hsplit
      obtain ⟨hother, hbefore⟩ := List.forall_mem_cons.1 hbefore
      exact .inr ⟨hother, before, item, after, hrest, hbefore, hitem⟩
  · rintro (hfirst | ⟨hfirst, before, item, after, rfl, hbefore, hitem⟩)
    · exact ⟨[], first, rest, rfl, by simp, hfirst⟩
    · exact ⟨first :: before, item, after, rfl, List.forall_mem_cons.2 ⟨hfirst, hbefore⟩, hitem⟩

/-- A conjunction fails with what the first operand that is not true fails with. -/
theorem allM_eq_error_iff {items : List α} {fault : ε} :
    items.allM p = .error fault ↔
      ∃ before item after, items = before ++ item :: after ∧
        (∀ other ∈ before, p other = .ok true) ∧ p item = .error fault := by
  induction items with
  | nil => simp [pure, Except.pure]
  | cons item rest ih =>
    rw [exists_split_cons_iff, ← ih, List.allM_cons]
    cases p item with
    | error => simp [bind, Except.bind]
    | ok value => cases value <;> simp [bind, Except.bind, pure, Except.pure]

/-- A disjunction fails with what the first operand that is not false fails with. -/
theorem anyM_eq_error_iff {items : List α} {fault : ε} :
    items.anyM p = .error fault ↔
      ∃ before item after, items = before ++ item :: after ∧
        (∀ other ∈ before, p other = .ok false) ∧ p item = .error fault := by
  induction items with
  | nil => simp [pure, Except.pure]
  | cons item rest ih =>
    rw [exists_split_cons_iff, ← ih, List.anyM_cons]
    cases p item with
    | error => simp [bind, Except.bind]
    | ok value => cases value <;> simp [bind, Except.bind, pure, Except.pure]

end Except

namespace Condition

open Text

/-! ## Chains -/

section Chain

variable {α : Type} {pathExists : String → Bool} {vars : Variables} {tree : α → Condition}
  {p : α → Except EvaluationFault Bool} {items : List α}

theorem evaluate_chain_and (h : ∀ item ∈ items, evaluate pathExists vars (tree item) = p item) :
    evaluate pathExists vars (chain .and (items.map tree)) = items.allM p := by
  induction items with
  | nil => rfl
  | cons item rest ih =>
    obtain ⟨hitem, hrest⟩ := List.forall_mem_cons.1 h
    rw [List.allM_cons, ← hitem]
    cases rest with
    | nil =>
      cases htree : evaluate pathExists vars (tree item) with
      | error => exact htree
      | ok value => cases value <;> exact htree
    | cons next rest =>
      rw [List.map_cons, List.map_cons, chain, evaluate, ← List.map_cons, ih hrest]
      · cases evaluate pathExists vars (tree item) with
        | error => rfl
        | ok value => cases value <;> rfl
      · exact List.cons_ne_nil _ _

theorem evaluate_chain_or (hitems : items ≠ [])
    (h : ∀ item ∈ items, evaluate pathExists vars (tree item) = p item) :
    evaluate pathExists vars (chain .or (items.map tree)) = items.anyM p := by
  induction items with
  | nil => exact absurd rfl hitems
  | cons item rest ih =>
    obtain ⟨hitem, hrest⟩ := List.forall_mem_cons.1 h
    rw [List.anyM_cons, ← hitem]
    cases rest with
    | nil =>
      cases htree : evaluate pathExists vars (tree item) with
      | error => exact htree
      | ok value => cases value <;> exact htree
    | cons next rest =>
      rw [List.map_cons, List.map_cons, chain, evaluate, ← List.map_cons,
        ih (List.cons_ne_nil _ _) hrest]
      · cases evaluate pathExists vars (tree item) with
        | error => rfl
        | ok value => cases value <;> rfl
      · exact List.cons_ne_nil _ _

end Chain

/-! ## Atoms and conjuncts -/

/-- A trimmed text that is not empty, with its quotes closed and without ` and ` outside them, where its
ends count as spaces. -/
structure IsConjunct (text : List Char) : Prop where
  nonempty : text ≠ []
  trimmed : trim text = text
  balanced : Balanced text
  lacksAnd : Lacks ['a', 'n', 'd'] text

/-- A conjunct that is without ` or ` outside quotes too. -/
structure IsAtom (text : List Char) : Prop extends IsConjunct text where
  lacksOr : Lacks ['o', 'r'] text

theorem isAtom_iff {text : List Char} :
    IsAtom text ↔ text ≠ [] ∧ trim text = text ∧ Balanced text ∧ Lacks ['a', 'n', 'd'] text ∧
      Lacks ['o', 'r'] text :=
  ⟨fun h => ⟨h.nonempty, h.trimmed, h.balanced, h.lacksAnd, h.lacksOr⟩,
    fun ⟨hne, htrim, hbalanced, hand, hor⟩ => ⟨⟨hne, htrim, hbalanced, hand⟩, hor⟩⟩

instance (text : List Char) : Decidable (IsAtom text) :=
  decidable_of_iff' _ isAtom_iff

/-- An atom before a conjunct makes a longer conjunct. -/
theorem IsAtom.or_append {atom tail : List Char} (hatom : IsAtom atom) (htail : IsConjunct tail) :
    IsConjunct (atom ++ (orWord ++ tail)) where
  nonempty := List.append_ne_nil_of_left_ne_nil hatom.nonempty _
  trimmed := trim_eq_self_of_ends hatom.trimmed hatom.nonempty htail.trimmed htail.nonempty _
  balanced := hatom.balanced.append (Balanced.append (by decide) htail.balanced)
  lacksAnd :=
    have hor : Lacks ['a', 'n', 'd'] ['o', 'r'] := by decide
    hatom.lacksAnd.append_space (by decide) hatom.balanced
      (hor.append_space (by decide) (by decide) htail.lacksAnd)

theorem IsConjunct.intercalate {atoms : List (List Char)} (hatoms : atoms ≠ [])
    (h : ∀ atom ∈ atoms, IsAtom atom) : IsConjunct (orWord.intercalate atoms) :=
  intercalate_induction hatoms (fun atom hatom => (h atom hatom).toIsConjunct)
    fun atom hatom _ htail => (h atom hatom).or_append htail

/-- Conjuncts are still trimmed when they are joined. -/
theorem IsConjunct.trim_intercalate {conjuncts : List (List Char)} (hconjuncts : conjuncts ≠ [])
    (h : ∀ conjunct ∈ conjuncts, IsConjunct conjunct) (separator : List Char) :
    trim (separator.intercalate conjuncts) = separator.intercalate conjuncts :=
  Text.trim_intercalate hconjuncts
    (fun conjunct hmem => ⟨(h conjunct hmem).nonempty, (h conjunct hmem).trimmed⟩) separator

/-! ## Reading -/

/-- A text in which a logical operator stands outside quotes is taken apart at it. -/
theorem read_of_cut {text : List Char} (htrim : trim text = text)
    (h : (occursOutside andWord text || occursOutside orWord text) = true) :
    read text =
      if occursOutside andWord text then chain .and ((splitOutside andWord text).map read)
      else chain .or ((splitOutside orWord text).map read) := by
  have hspace : ' ' ∈ text := by
    by_contra hno
    have hexposed : ' ' ∉ exposed none text := fun hmem => hno (mem_of_mem_exposed hmem)
    rw [occursOutside, occursOutside,
      cutOutside_eq_none_of_not_exposed (c := ' ') (by decide) (by decide) hexposed,
      cutOutside_eq_none_of_not_exposed (c := ' ') (by decide) (by decide) hexposed] at h
    cases h
  rw [read_eq, htrim, literal?_eq_none_of_mem (by decide) hspace, readExists?_eq_none_of_cut h]
  cases hand : occursOutside andWord text with
  | true => rfl
  | false =>
    rw [hand, Bool.false_or] at h
    simp only [h, if_true]

theorem read_intercalate_and {conjuncts : List (List Char)} (hconjuncts : conjuncts ≠ [])
    (h : ∀ conjunct ∈ conjuncts, IsConjunct conjunct) :
    read (andWord.intercalate conjuncts) = chain .and (conjuncts.map read) := by
  match conjuncts with
  | [] => exact absurd rfl hconjuncts
  | [conjunct] => rw [List.intercalate_singleton, List.map_singleton, chain]
  | first :: next :: rest =>
    obtain ⟨hfirst, -⟩ := List.forall_mem_cons.1 h
    have hcut : occursOutside andWord (andWord.intercalate (first :: next :: rest)) = true :=
      congrArg Option.isSome (cutOutside_intercalate (by decide) hfirst.balanced hfirst.lacksAnd
        next rest)
    have hpieces : splitOutside andWord (andWord.intercalate (first :: next :: rest)) =
        first :: next :: rest :=
      splitOutside_intercalate (by decide) hconjuncts fun conjunct hmem =>
        ⟨(h conjunct hmem).balanced, (h conjunct hmem).lacksAnd⟩
    rw [read_of_cut (IsConjunct.trim_intercalate hconjuncts h _) (by rw [hcut, Bool.true_or]),
      if_pos hcut, hpieces]

theorem read_intercalate_or {atoms : List (List Char)} (hatoms : atoms ≠ [])
    (h : ∀ atom ∈ atoms, IsAtom atom) :
    read (orWord.intercalate atoms) = chain .or (atoms.map read) := by
  have hconjunct := IsConjunct.intercalate hatoms h
  match atoms with
  | [] => exact absurd rfl hatoms
  | [atom] => rw [List.intercalate_singleton, List.map_singleton, chain]
  | first :: next :: rest =>
    obtain ⟨hfirst, -⟩ := List.forall_mem_cons.1 h
    have hand : occursOutside andWord (orWord.intercalate (first :: next :: rest)) = false :=
      hconjunct.lacksAnd.occursOutside_eq_false
    have hcut : occursOutside orWord (orWord.intercalate (first :: next :: rest)) = true :=
      congrArg Option.isSome (cutOutside_intercalate (by decide) hfirst.balanced hfirst.lacksOr
        next rest)
    have hpieces : splitOutside orWord (orWord.intercalate (first :: next :: rest)) =
        first :: next :: rest :=
      splitOutside_intercalate (by decide) hatoms fun atom hmem =>
        ⟨(h atom hmem).balanced, (h atom hmem).lacksOr⟩
    rw [read_of_cut hconjunct.trimmed (by rw [hcut, Bool.or_true]), hand, if_neg Bool.false_ne_true,
      hpieces]

/-- An atom behind the word of a negation is what is negated. -/
theorem read_not_append {atom : List Char} (h : IsAtom atom) :
    read (notWord ++ atom) = .not (read atom) := by
  have htrim : trim (notWord ++ atom) = notWord ++ atom :=
    trim_eq_self_of_ends (show trim ['n', 'o', 't'] = ['n', 'o', 't'] by decide) (by decide)
      h.trimmed h.nonempty [' ']
  have hlacks : ∀ word, ' ' ∉ word → Lacks word ['n', 'o', 't'] → Lacks word atom →
      occursOutside (spaced word) (notWord ++ atom) = false := fun word hword hnot hatom =>
    (hnot.append_space hword (by decide) hatom).occursOutside_eq_false
  have hand : occursOutside andWord (notWord ++ atom) = false :=
    hlacks ['a', 'n', 'd'] (by decide) (by decide) h.lacksAnd
  have hor : occursOutside orWord (notWord ++ atom) = false :=
    hlacks ['o', 'r'] (by decide) (by decide) h.lacksOr
  have hspace : ' ' ∈ notWord ++ atom := List.mem_append_left _ (by decide)
  have hexists : readExists? (notWord ++ atom) = none :=
    readExists?_eq_none_of_not_starts fun ⟨_, htext⟩ =>
      absurd (List.cons.inj htext).1 (by decide)
  rw [read_eq, htrim, literal?_eq_none_of_mem (by decide) hspace, hexists, hand, hor,
    after?_append_self]
  rfl

/-! ## Evaluation -/

section Evaluation

variable (pathExists : String → Bool) (vars : Variables)

/-- Atoms that are joined by ` or ` hold as their disjunction does. -/
theorem holds_joined_or {atoms : List String} (hatoms : atoms ≠ [])
    (h : ∀ atom ∈ atoms, IsAtom atom.toList) :
    holds pathExists vars (joined " or " atoms) = atoms.anyM (holds pathExists vars) := by
  have hor : " or ".toList = orWord := rfl
  rw [holds, toList_joined, hor,
    read_intercalate_or (mt List.map_eq_nil_iff.1 hatoms) (List.forall_mem_map.2 h), List.map_map]
  exact evaluate_chain_or hatoms fun _ _ => rfl

/-- Disjunctions that are joined by ` and ` hold as their conjunction does. -/
theorem holds_joined_and {rows : List (List String)} (hrows : rows ≠ [])
    (h : ∀ row ∈ rows, row ≠ [] ∧ ∀ atom ∈ row, IsAtom atom.toList) :
    holds pathExists vars (joined " and " (rows.map (joined " or "))) =
      rows.allM fun row => row.anyM (holds pathExists vars) := by
  have hconjunct : ∀ text ∈ (rows.map (joined " or ")).map String.toList, IsConjunct text := by
    refine List.forall_mem_map.2 (List.forall_mem_map.2 fun row hrow => ?_)
    obtain ⟨hne, hatoms⟩ := h row hrow
    rw [toList_joined]
    exact .intercalate (mt List.map_eq_nil_iff.1 hne) (List.forall_mem_map.2 hatoms)
  have hand : " and ".toList = andWord := rfl
  rw [holds, toList_joined, hand, read_intercalate_and (by simpa using hrows) hconjunct,
    List.map_map, List.map_map]
  exact evaluate_chain_and fun row hrow => holds_joined_or pathExists vars (h row hrow).1 (h row hrow).2

/-- An atom behind ` not ` holds if the atom does not. -/
theorem holds_not_append {atom : String} (h : IsAtom atom.toList) :
    holds pathExists vars ("not " ++ atom) = (holds pathExists vars atom).map (!·) := by
  have hnot : "not ".toList = notWord := rfl
  rw [holds, String.toList_append, hnot, read_not_append h, evaluate, holds]
  cases evaluate pathExists vars (read atom.toList) <;> rfl

/-- However the scans for operators go, atoms that are joined by ` or ` and then by ` and ` hold as the
conjunction of their disjunctions does. The atoms are evaluated from the left until the result is settled,
so what an atom fails with is the outcome exactly if the disjunctions before its own are true and the atoms
before it in its own are false. A negated atom holds if the atom does not, and fails as it does. -/
theorem holds_joined :
    (∀ rows : List (List String), rows ≠ [] →
      (∀ row ∈ rows, row ≠ [] ∧ ∀ atom ∈ row, IsAtom atom.toList) →
      holds pathExists vars (joined " and " (rows.map (joined " or "))) =
          rows.allM (fun row => row.anyM (holds pathExists vars)) ∧
        ∀ fault,
          holds pathExists vars (joined " and " (rows.map (joined " or "))) = .error fault ↔
            ∃ before row after, rows = before ++ row :: after ∧
              (∀ other ∈ before, other.anyM (holds pathExists vars) = .ok true) ∧
              ∃ front atom back, row = front ++ atom :: back ∧
                (∀ other ∈ front, holds pathExists vars other = .ok false) ∧
                holds pathExists vars atom = .error fault) ∧
      ∀ atom : String, IsAtom atom.toList →
        holds pathExists vars ("not " ++ atom) = (holds pathExists vars atom).map (!·) := by
  refine ⟨fun rows hrows h => ?_, fun atom hatom => holds_not_append pathExists vars hatom⟩
  have hwhole := holds_joined_and pathExists vars hrows h
  refine ⟨hwhole, fun fault => ?_⟩
  simp only [hwhole, allM_eq_error_iff, anyM_eq_error_iff]

/-- The second atom is not come to, operators in quotes are text, and nothing behind the failure is
evaluated. -/
theorem holds_joined_sample :
    let vars := Variables.ofEnvironment (.ofProcess .isolated .empty)
    holds (fun _ => true) vars "yes or 5 > abc and exists('x and y') and 1 > \"a or b\" and no" =
        .error (.nonNumeric ">" "1" "a or b") ∧
      holds (fun _ => true) vars "not yes" = .ok false := by
  intro vars
  have hyes : holds (fun _ => true) vars "yes" = .ok true := by
    rw [holds, show read "yes".toList = .literal true by rw [read_eq]; decide +kernel]
    rfl
  have hexists : holds (fun _ => true) vars "exists('x and y')" = .ok true := by
    rw [holds, show read "exists('x and y')".toList = .exists "x and y".toList by
      rw [read_eq]; decide +kernel]
    rfl
  have hfails : holds (fun _ => true) vars "1 > \"a or b\"" = .error (.nonNumeric ">" "1" "a or b") := by
    rw [holds, show read "1 > \"a or b\"".toList = .compare .greater ['1', ' '] " \"a or b\"".toList by
      rw [read_eq]; decide +kernel]
    decide +kernel
  obtain ⟨hjoined, hnot⟩ := holds_joined (fun _ => true) vars
  constructor
  · have hrows := (hjoined
      [["yes", "5 > abc"], ["exists('x and y')"], ["1 > \"a or b\""], ["no"]] (by decide)
      (by decide +kernel)).2 (.nonNumeric ">" "1" "a or b")
    refine hrows.2 ⟨[["yes", "5 > abc"], ["exists('x and y')"]], _, _, rfl, ?_, [], _, [], rfl, ?_, hfails⟩
    · refine List.forall_mem_cons.2 ⟨?_, List.forall_mem_singleton.2 ?_⟩
      · rw [List.anyM_cons, hyes]
        rfl
      · rw [List.anyM_cons, hexists]
        rfl
    · simp
  · rw [show "not yes" = "not " ++ "yes" from rfl, hnot "yes" (by decide +kernel), hyes]
    rfl

end Evaluation

end Condition

end BatchScript
