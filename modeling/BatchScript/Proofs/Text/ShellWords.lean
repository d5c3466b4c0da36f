import BatchScript.Text.ShellWords

/-!
# Splitting with comments and without

The scan that puts a backslash before hashes and the scan that reads the words are two machines that walk
over the same text. They stay in step (`Tracks.after`): a hash gets a backslash only where it would be an
ordinary character if comments were not read, and every hash that would begin a comment gets one. So
reading the escaped text with comments is reading the text without them (`split?_escapeHashes`), and a text
has no words exactly if the first machine ends in a quote or behind a backslash
(`split?_eq_none_iff`).
-/

namespace BatchScript.Text.ShellWords

theorem scan_cons (comments : Bool) (mode : Mode) (c : Char) (rest : List Char) :
    scan comments mode (c :: rest) =
      (scan comments (mode.step comments c).1 rest).map fun later =>
        if mode = .bare true && (mode.step comments c).1 = .bare false then [] :: later
        else (mode.step comments c).2.foldr pushFirst later :=
  rfl

/-! ## The two machines in step -/

/-- The scan for hashes is at the same kind of place as the scan for words. Where no word is begun, one
could begin. -/
inductive Tracks : Place → Mode → Prop
  | bare {begun wordStart : Bool} (h : begun = false → wordStart = true) :
    Tracks ⟨none, false, wordStart⟩ (.bare begun)
  | escaped {wordStart : Bool} : Tracks ⟨none, true, wordStart⟩ .escaped
  | single {wordStart : Bool} : Tracks ⟨some '\'', false, wordStart⟩ .single
  | double {wordStart : Bool} : Tracks ⟨some '"', false, wordStart⟩ .double
  | doubleEscaped {wordStart : Bool} : Tracks ⟨some '"', true, wordStart⟩ .doubleEscaped

theorem tracks_first : Tracks .first (.bare false) :=
  .bare fun _ => rfl

theorem isSeparator_iff {c : Char} : isSeparator c = true ↔ c = ' ' ∨ c = '\t' ∨ c = '\n' := by
  simp [isSeparator, or_assoc]

theorem isBlank_of_isSeparator {c : Char} (h : isSeparator c = true) : isBlank c = true := by
  rcases isSeparator_iff.1 h with rfl | rfl | rfl <;> rfl

variable {place : Place} {mode : Mode}

/-- A character that is read without comments keeps the two scans in step. -/
theorem Tracks.after (h : Tracks place mode) (c : Char) :
    Tracks (place.after c) (mode.step false c).1 := by
  cases h with
  | bare h =>
    by_cases hseparator : isSeparator c = true
    · rcases isSeparator_iff.1 hseparator with rfl | rfl | rfl
      all_goals exact .bare fun _ => rfl
    by_cases hdouble : c = '"'
    · exact hdouble ▸ .double
    by_cases hsingle : c = '\''
    · exact hsingle ▸ .single
    by_cases hescape : c = '\\'
    · exact hescape ▸ .escaped
    · simp only [Place.after, Mode.step, isQuote, hseparator, hdouble, hsingle, hescape]
      exact .bare nofun
  | escaped => exact .bare nofun
  | single =>
    by_cases hsingle : c = '\''
    · subst hsingle
      exact .bare nofun
    · simp only [Place.after, Mode.step, hsingle]
      exact .single
  | double =>
    by_cases hdouble : c = '"'
    · subst hdouble
      exact .bare nofun
    by_cases hescape : c = '\\'
    · exact hescape ▸ .doubleEscaped
    · simp only [Place.after, Mode.step, hdouble, hescape]
      exact .double
  | doubleEscaped => exact .double

/-- A character that begins no comment is read alike with comments and without. -/
theorem Tracks.step_eq (h : Tracks place mode) {c : Char} (hc : place.opensComment c = false) :
    mode.step true c = mode.step false c := by
  cases h with
  | @bare begun wordStart h =>
    cases begun with
    | true => rfl
    | false =>
      have hhash : c ≠ '#' := by
        rintro rfl
        simp [Place.opensComment, h] at hc
      simp [Mode.step, hhash]
  | escaped | single | double | doubleEscaped => rfl

/-- A comment would begin outside quotes, with a hash. -/
theorem Tracks.eq_of_opensComment (h : Tracks place mode) {c : Char}
    (hc : place.opensComment c = true) : c = '#' ∧ ∃ begun, mode = .bare begun := by
  cases h with
  | bare =>
    simp only [Place.opensComment, Bool.and_eq_true, decide_eq_true_eq] at hc
    exact ⟨hc.2, _, rfl⟩
  | escaped | single | double | doubleEscaped => simp [Place.opensComment] at hc

/-! ## Reading the escaped text -/

theorem scan_hash (begun : Bool) (rest : List Char) :
    scan false (.bare begun) ('#' :: rest) = (scan false (.bare true) rest).map (pushFirst '#') := by
  simp [scan, Mode.step, isSeparator]

/-- A hash behind a backslash is read with comments as a hash is read without. -/
theorem scan_escaped_hash (begun : Bool) (rest : List Char) :
    scan true (.bare begun) ('\\' :: '#' :: rest) =
      (scan true (.bare true) rest).map (pushFirst '#') := by
  simp [scan, Mode.step, isSeparator, Function.comp_def]

/-- With comments, the escaped text has the words that the text has without them. -/
theorem scan_escapeFrom (h : Tracks place mode) (text : List Char) :
    scan true mode (escapeFrom place text) = scan false mode text := by
  induction text generalizing place mode with
  | nil => rfl
  | cons c rest ih =>
    rw [escapeFrom]
    by_cases hc : place.opensComment c = true
    · obtain ⟨rfl, begun, rfl⟩ := h.eq_of_opensComment hc
      have hbehind : Tracks (place.after '#') (.bare true) := h.after '#'
      rw [if_pos hc, scan_escaped_hash, scan_hash, ih hbehind]
    · rw [if_neg hc, scan_cons, scan_cons, h.step_eq (by simpa using hc)]
      simp only [ih (h.after c)]

theorem escapeFrom_eq_self {text : List Char} (h : '#' ∉ text) : escapeFrom place text = text := by
  induction text generalizing place with
  | nil => rfl
  | cons c rest ih =>
    obtain ⟨hc, hrest⟩ := not_or.1 (mt List.mem_cons.2 h)
    rw [escapeFrom, if_neg (by simp [Place.opensComment, Ne.symm hc]), ih hrest]

/-- Reading the escaped text with comments is reading the text without them. -/
theorem split?_escapeHashes (text : List Char) :
    split? true (escapeHashes text) = split? false text := by
  have hscan := scan_escapeFrom tracks_first text
  by_cases h : '#' ∈ text
  · rwa [escapeHashes, if_pos (by simpa using h)]
  · rw [escapeFrom_eq_self h] at hscan
    rwa [escapeHashes, if_neg (by simpa using h)]

/-! ## Texts without words -/

/-- The place behind a text. -/
def Place.afterAll (place : Place) (text : List Char) : Place :=
  text.foldl Place.after place

theorem scan_eq_none_iff (h : Tracks place mode) (text : List Char) :
    scan false mode text = none ↔
      (place.afterAll text).quote.isSome = true ∨ (place.afterAll text).escaped = true := by
  induction text generalizing place mode with
  | nil => cases h <;> simp [scan, Mode.last?, Place.afterAll]
  | cons c rest ih => rw [scan_cons, Option.map_eq_none_iff, ih (h.after c)]; rfl

/-- A text cannot be split exactly if it leaves a quote open or ends with a backslash that escapes
nothing. -/
theorem split?_eq_none_iff {text : List Char} :
    split? false text = none ↔
      (Place.first.afterAll text).quote.isSome = true ∨ (Place.first.afterAll text).escaped = true :=
  scan_eq_none_iff tracks_first text

/-! ## Texts of no words -/

theorem foldr_pushFirst_cons (front word : List Char) (later : List (List Char)) :
    front.foldr pushFirst (word :: later) = (front ++ word) :: later := by
  induction front with
  | nil => rfl
  | cons c front ih => rw [List.foldr_cons, ih]; rfl

/-- Only a separator leads to where no word is begun. -/
theorem Tracks.eq_bare_of_step (h : Tracks place mode) {c : Char}
    (hstep : (mode.step false c).1 = .bare false) :
    ∃ begun, mode = .bare begun ∧ isSeparator c = true := by
  cases h with
  | @bare begun => exact ⟨begun, rfl, by grind [Mode.step]⟩
  | escaped | doubleEscaped => simp [Mode.step] at hstep
  | single | double => grind [Mode.step]

/-- Nothing is read only where no word is begun and nothing but separators follows. -/
theorem Tracks.eq_bare_of_scan (h : Tracks place mode) {text : List Char}
    (hscan : scan false mode text = some []) :
    mode = .bare false ∧ ∀ c ∈ text, isSeparator c = true := by
  induction text generalizing place mode with
  | nil => cases h <;> simp_all [scan, Mode.last?]
  | cons c rest ih =>
    rw [scan_cons] at hscan
    obtain ⟨later, hlater, hwords⟩ := Option.map_eq_some_iff.1 hscan
    cases later with
    | cons word later =>
      -- Whatever the character adds, a word that comes behind it stays.
      rw [foldr_pushFirst_cons] at hwords
      split at hwords <;> cases hwords
    | nil =>
      obtain ⟨hnext, hrest⟩ := ih (h.after c) hlater
      obtain ⟨begun, rfl, hc⟩ := h.eq_bare_of_step hnext
      cases begun with
      | true => simp [hnext] at hwords
      | false => exact ⟨rfl, List.forall_mem_cons.2 ⟨hc, hrest⟩⟩

/-- A text without words is made of separators. -/
theorem isSeparator_of_split?_eq_nil {text : List Char} (h : split? false text = some []) :
    ∀ c ∈ text, isSeparator c = true :=
  (tracks_first.eq_bare_of_scan h).2

/-! ## Words that are read as they stand -/

/-- A word of no character that quotes or escapes. -/
def Verbatim (word : List Char) : Prop :=
  ∀ c ∈ word, c ≠ '"' ∧ c ≠ '\'' ∧ c ≠ '\\'

/-- Outside quotes such a word is read as it stands if there are no separators in it. -/
theorem scan_bare {word : List Char} (h : Verbatim word) (hword : ∀ c ∈ word, isSeparator c = false)
    (begun : Bool) (rest : List Char) :
    scan false (.bare begun) (word ++ rest) =
      (scan false (.bare (begun || !word.isEmpty)) rest).map (word.foldr pushFirst ·) := by
  induction word generalizing begun with
  | nil => simp
  | cons c word ih =>
    obtain ⟨⟨hdouble, hsingle, hescape⟩, h⟩ := List.forall_mem_cons.1 h
    obtain ⟨hc, hword⟩ := List.forall_mem_cons.1 hword
    have hstep : Mode.step false (.bare begun) c = (.bare true, [c]) := by
      simp [Mode.step, hc, hdouble, hsingle, hescape]
    rw [List.cons_append, scan_cons, hstep]
    simp [ih h hword, Function.comp_def]

/-- In double quotes it is read as it stands up to the quote that closes it. -/
theorem scan_double {word : List Char} (h : Verbatim word) (rest : List Char) :
    scan false .double (word ++ '"' :: rest) =
      (scan false (.bare true) rest).map (word.foldr pushFirst ·) := by
  induction word with
  | nil => simp [scan, Mode.step]
  | cons c word ih =>
    obtain ⟨⟨hdouble, hsingle, hescape⟩, h⟩ := List.forall_mem_cons.1 h
    have hstep : Mode.step false .double c = (.double, [c]) := by
      simp [Mode.step, hdouble, hescape]
    rw [List.cons_append, scan_cons, hstep]
    simp [ih h, Function.comp_def]

theorem scan_quoted {word : List Char} (h : Verbatim word) (begun : Bool) (rest : List Char) :
    scan false (.bare begun) ('"' :: (word ++ '"' :: rest)) =
      (scan false (.bare true) rest).map (word.foldr pushFirst ·) := by
  rw [← scan_double h]
  simp [scan_cons, Mode.step, isSeparator]

theorem scan_separator {c : Char} (hc : isSeparator c = true) (rest : List Char) :
    scan false (.bare true) (c :: rest) = (split? false rest).map ([] :: ·) := by
  simp [scan_cons, Mode.step, hc, split?]

end BatchScript.Text.ShellWords
