import BatchScript.Command
import BatchScript.Line
import BatchScript.Proofs.Text.Blanks
import BatchScript.Proofs.Text.ShellWords

/-!
# Command lines

A line that is not blank and neither a comment nor a directive is read as the words that its text has
when `#` is an ordinary character, and there is at least one of them. If its text cannot be split, the
line is passed over with one warning (`read_words`).

A command without quotes and backslashes in its words is read back from the way it is shown, whatever
blanks and hashes are in them (`read_display`): a word that is shown in quotes and a word that is shown
as it stands are both read as they were, so the words of the whole line follow one by one.
-/

namespace BatchScript

open Text Text.ShellWords

/-! ## Reading -/

namespace Line

/-- A line that is not blank and neither a comment nor a directive is read as its words, in which a hash
is an ordinary character. -/
theorem readContent_eq {text : List Char} (hne : trim text ≠ [])
    (hcomment : (trim text).head? ≠ some '#') (hdirective : (trim text).head? ≠ some '@') :
    readContent text =
      match split? false (trim text) with
      | some (name :: args) => (.command (.ofList name) (args.map .ofList), none)
      | some [] => (.comment, none)
      | none => (.comment, some (.untokenizable (.ofList (trim text)))) := by
  rw [readContent]
  split
  next hblank => exact absurd hblank hne
  next hhash => exact absurd (congrArg List.head? hhash) hcomment
  next hat => exact absurd (congrArg List.head? hat) hdirective
  next => exact split?_escapeHashes (trim text) ▸ rfl

/-- If there is anything on a line, there is a first word. -/
theorem exists_eq_cons_of_split? {text : List Char} (hne : trim text ≠ []) {words : List (List Char)}
    (h : split? false (trim text) = some words) : ∃ name args, words = name :: args := by
  cases words with
  | cons name args => exact ⟨name, args, rfl⟩
  | nil =>
    have hblank : ∀ c ∈ trim text, isBlank c = true := fun c hc =>
      isBlank_of_isSeparator (isSeparator_of_split?_eq_nil h c hc)
    exact absurd ((trim_trim text).symm.trans (trim_eq_nil hblank)) hne

/-- Only a line that begins with a hash is passed over without a warning. -/
theorem head?_of_readContent {text : List Char} (h : readContent text = (.comment, none)) :
    (trim text).head? = some '#' := by
  rw [readContent] at h
  split at h
  next => cases h
  next hcomment => rw [hcomment]; rfl
  next => simp [readDirective] at h
  next hne _ _ =>
    rw [split?_escapeHashes] at h
    split at h
    next => cases h
    next hwords =>
      -- The text is trimmed, so it is not made of separators alone.
      obtain ⟨name, args, hcons⟩ := exists_eq_cons_of_split? hne hwords
      cases hcons
    next => cases h

/-- A line that is not blank and neither a comment nor a directive has the words that its text has when
comments are not read, and at least one; where the text leaves a quote open or a backslash without a
character, the line is passed over with a warning. -/
theorem read_words (number : Nat) (raw : String) :
    (trim raw.toList ≠ [] → (trim raw.toList).head? ≠ some '#' →
      (trim raw.toList).head? ≠ some '@' →
      (∀ words, split? false (trim raw.toList) = some words →
        ∃ name args, words = name :: args ∧
          read number raw =
            (⟨number, raw, .command (.ofList name) (args.map .ofList)⟩, none)) ∧
      (split? false (trim raw.toList) = none →
        read number raw =
          (⟨number, raw, .comment⟩,
            some (.warning number (.untokenizable (.ofList (trim raw.toList))))))) ∧
    (split? false (trim raw.toList) = none ↔
      (Place.first.afterAll (trim raw.toList)).quote.isSome = true ∨
        (Place.first.afterAll (trim raw.toList)).escaped = true) ∧
    ((read number raw).1.content = .comment → (read number raw).2 = none →
      (trim raw.toList).head? = some '#') := by
  refine ⟨fun hne hcomment hdirective => ?_, split?_eq_none_iff, fun hcontent hfault => ?_⟩
  · have hread := readContent_eq hne hcomment hdirective
    constructor
    · intro words hwords
      obtain ⟨name, args, rfl⟩ := exists_eq_cons_of_split? hne hwords
      rw [hwords] at hread
      exact ⟨name, args, rfl, by rw [read, hread]; rfl⟩
    · intro hnone
      rw [hnone] at hread
      rw [read, hread]
      rfl
  · exact head?_of_readContent (Prod.ext hcontent (Option.map_eq_none_iff.1 hfault))

/-- Hashes that begin an argument, stand in a quote and stand behind one, and a quote that is not
closed. -/
theorem read_words_sample :
    read 3 "tag #a '# #'b#" = (⟨3, "tag #a '# #'b#", .command "tag" ["#a", "# #b#"]⟩, none) ∧
      read 4 "tag '#a" = (⟨4, "tag '#a", .comment⟩, some (.warning 4 (.untokenizable "tag '#a"))) := by
  have hwords := ((read_words 3 "tag #a '# #'b#").1 (by decide) (by decide) (by decide)).1
  have hnone := ((read_words 4 "tag '#a").1 (by decide) (by decide) (by decide)).2
  obtain ⟨name, args, hcons, hread⟩ :=
    hwords ["tag".toList, "#a".toList, "# #b#".toList] (by decide)
  cases hcons
  exact ⟨by simpa using hread, hnone (by decide)⟩

end Line

/-! ## Showing -/

namespace Command

/-- A word is shown in quotes, or as it stands if there is something in it and no blank. -/
theorem toList_displayWord (word : String) :
    (displayWord word).toList = '"' :: (word.toList ++ ['"']) ∨
      (displayWord word).toList = word.toList ∧ word.toList ≠ [] ∧
        ∀ c ∈ word.toList, isBlank c = false := by
  by_cases hquoted : (word = "" || word.toList.any isBlank) = true
  · left
    rw [displayWord, if_pos hquoted]
    simp
  · right
    rw [displayWord, if_neg hquoted]
    simpa using hquoted

/-- A word that is shown is read as it was, whatever follows it. -/
theorem scan_displayWord {word : String} (h : Verbatim word.toList) (rest : List Char) :
    scan false (.bare false) ((displayWord word).toList ++ rest) =
      (scan false (.bare true) rest).map (word.toList.foldr pushFirst ·) := by
  rcases toList_displayWord word with hshown | ⟨hshown, hne, hblank⟩
  · rw [hshown, List.cons_append, List.append_assoc, List.singleton_append, scan_quoted h]
  · have hseparator : ∀ c ∈ word.toList, isSeparator c = false := fun c hc =>
      Bool.eq_false_iff.2 fun hc' => by simpa [isBlank_of_isSeparator hc'] using hblank c hc
    have hbegun : (false || !word.toList.isEmpty) = true := by simpa using hne
    rw [hshown, scan_bare h hseparator, hbegun]

theorem split?_displayWord {word : String} (h : Verbatim word.toList) :
    split? false (displayWord word).toList = some [word.toList] := by
  have hscan := scan_displayWord h []
  rw [List.append_nil] at hscan
  rw [split?, hscan]
  simp [scan, Mode.last?, foldr_pushFirst_cons]

theorem split?_displayWord_append {word : String} (h : Verbatim word.toList) (rest : List Char) :
    split? false ((displayWord word).toList ++ ' ' :: rest) =
      (split? false rest).map (word.toList :: ·) := by
  rw [split?, scan_displayWord h, scan_separator (by decide)]
  simp [foldr_pushFirst_cons, Function.comp_def]

/-- The words of a command that is shown are read one after the other. -/
theorem split?_displayWords {words : List String} (hne : words ≠ [])
    (h : ∀ word ∈ words, Verbatim word.toList) :
    split? false ([' '].intercalate (words.map fun word => (displayWord word).toList)) =
      some (words.map String.toList) := by
  induction words with
  | nil => exact absurd rfl hne
  | cons word words ih =>
    obtain ⟨hword, hwords⟩ := List.forall_mem_cons.1 h
    cases words with
    | nil =>
      rw [List.map_singleton, List.intercalate_singleton, List.map_singleton]
      exact split?_displayWord hword
    | cons next words =>
      have hrest := ih (List.cons_ne_nil _ _) hwords
      rw [List.map_cons] at hrest
      rw [List.map_cons, List.map_cons, List.intercalate_cons_cons, List.append_assoc,
        List.singleton_append, split?_displayWord_append hword, hrest]
      rfl

theorem displayWord_trimmed (word : String) :
    (displayWord word).toList ≠ [] ∧ trim (displayWord word).toList = (displayWord word).toList := by
  rcases toList_displayWord word with hshown | ⟨hshown, hne, hblank⟩
  · have hquote : isBlank '"' = false := by decide
    rw [hshown]
    refine ⟨List.cons_ne_nil _ _, trim_eq_self_of_not_blank (by simpa using hquote) ?_⟩
    rw [← List.cons_append, List.getLast?_concat]
    simpa using hquote
  · rw [hshown]
    exact ⟨hne, trim_eq_self_of_not_blank (fun c hc => hblank c (List.mem_of_mem_head? hc))
      fun c hc => hblank c (List.mem_of_mem_getLast? hc)⟩

/-- A word that is shown begins with a quote or with what the word begins with. -/
theorem head?_displayWord {word : String} {c : Char} (hquote : c ≠ '"')
    (hword : word.toList.any isBlank = false → word.toList.head? ≠ some c) :
    (displayWord word).toList.head? ≠ some c := by
  rcases toList_displayWord word with hshown | ⟨hshown, -, hblank⟩
  · simpa [hshown] using hquote.symm
  · rw [hshown]
    exact hword (List.any_eq_false.2 fun c hc => by simp [hblank c hc])

/-- A command without quotes and backslashes in its words is read back from the way it is shown, unless
its name is shown as it stands and makes the line a comment or a directive. -/
theorem read_display (number : Nat) (name : String) (args : List String)
    (hwords : ∀ word ∈ name :: args, Verbatim word.toList)
    (hname : name.toList.any isBlank = false →
      name.toList.head? ≠ some '#' ∧ name.toList.head? ≠ some '@') :
    Line.read number (display name args) =
      (⟨number, display name args, .command name args⟩, none) := by
  have htext : (display name args).toList =
      [' '].intercalate ((name :: args).map fun word => (displayWord word).toList) := by
    rw [display, toList_joined, List.map_map]
    rfl
  have htrim : trim (display name args).toList = (display name args).toList := by
    rw [htext]
    refine trim_intercalate (by simp) (fun piece hpiece => ?_) _
    obtain ⟨word, -, rfl⟩ := List.mem_map.1 hpiece
    exact displayWord_trimmed word
  have hhead : (display name args).toList.head? = (displayWord name).toList.head? := by
    rw [htext, List.map_cons, head?_intercalate (displayWord_trimmed name).1]
  have hsplit : split? false (trim (display name args).toList) =
      some (name.toList :: args.map String.toList) := by
    rw [htrim, htext, split?_displayWords (List.cons_ne_nil _ _) hwords, List.map_cons]
  have hne : trim (display name args).toList ≠ [] := by
    rw [htrim, ne_eq, ← List.head?_eq_none_iff, hhead, List.head?_eq_none_iff]
    exact (displayWord_trimmed name).1
  have hcomment : (trim (display name args).toList).head? ≠ some '#' := by
    rw [htrim, hhead]
    exact head?_displayWord (by decide) fun h => (hname h).1
  have hdirective : (trim (display name args).toList).head? ≠ some '@' := by
    rw [htrim, hhead]
    exact head?_displayWord (by decide) fun h => (hname h).2
  have hread := Line.readContent_eq hne hcomment hdirective
  rw [hsplit] at hread
  rw [Line.read, hread]
  simp

/-- A name with a hash and a blank, an empty argument, a hash, and a blank that separates no words. -/
theorem read_display_sample :
    (∀ word ∈ ["#a b", "", "#c", "d\u00A0e"], Verbatim word.toList) ∧
      Line.read 2 (display "#a b" ["", "#c", "d\u00A0e"]) =
        (⟨2, display "#a b" ["", "#c", "d\u00A0e"], .command "#a b" ["", "#c", "d\u00A0e"]⟩, none) := by
  have hwords : ∀ word ∈ ["#a b", "", "#c", "d\u00A0e"], Verbatim word.toList := by
    simp [Verbatim]
  exact ⟨hwords, read_display 2 "#a b" ["", "#c", "d\u00A0e"] hwords (by decide)⟩

end Command

end BatchScript
