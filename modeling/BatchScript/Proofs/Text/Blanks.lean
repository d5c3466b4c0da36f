import BatchScript.Text.Blank
import BatchScript.Text.Lowercase
import Mathlib.Data.List.DropRight

/-!
# Blanks at the ends of texts

Scans that stop at a character which stands inside a text do not look past it, so trimming a text that
is not blank trims its two ends apart from each other. A text is trimmed when it neither begins nor ends
with a blank, and it is one word when it has none at all.
-/

namespace BatchScript.Text

/-! ## Scans that stop -/

variable {p : Char → Bool} {c : Char}

theorem takeWhile_append_cons (h : p c = false) (front back : List Char) :
    (front ++ c :: back).takeWhile p = front.takeWhile p := by
  induction front with
  | nil => exact List.takeWhile_cons_of_neg (by simp [h])
  | cons a front ih => rw [List.cons_append, List.takeWhile_cons, List.takeWhile_cons, ih]

theorem dropWhile_append_cons (h : p c = false) (front back : List Char) :
    (front ++ c :: back).dropWhile p = front.dropWhile p ++ c :: back := by
  rw [List.dropWhile_append]
  split
  next hempty =>
    rw [List.isEmpty_iff.1 hempty]
    exact List.dropWhile_cons_of_neg (by simp [h])
  next => rfl

/-! ## Trimming -/

theorem trimStart_append (front back : List Char) :
    trimStart (front ++ back) =
      if trimStart front = [] then trimStart back else trimStart front ++ back := by
  rw [trimStart, List.dropWhile_append]
  exact if_congr List.isEmpty_iff rfl rfl

theorem trimEnd_append (front back : List Char) :
    trimEnd (front ++ back) =
      if trimEnd back = [] then trimEnd front else front ++ trimEnd back := by
  induction front with
  | nil =>
    rw [List.nil_append]
    split
    next h => exact h
    next => rfl
  | cons c front ih =>
    rw [List.cons_append, trimEnd, ih]
    by_cases h : trimEnd back = []
    · rw [if_pos h, if_pos h]
      rfl
    · rw [if_neg h, if_neg h]
      cases hend : front ++ trimEnd back with
      | nil => exact absurd (List.append_eq_nil_iff.1 hend).2 h
      | cons => rw [List.cons_append, hend]

theorem trimEnd_cons (c : Char) (text : List Char) :
    trimEnd (c :: text) = if trimEnd text = [] then trimEnd [c] else c :: trimEnd text :=
  trimEnd_append [c] text

theorem trimEnd_eq_rdropWhile (text : List Char) : trimEnd text = text.rdropWhile isBlank := by
  induction text using List.reverseRecOn with
  | nil => rfl
  | append_singleton text c ih =>
    rw [trimEnd_append, List.rdropWhile_concat, ← ih]
    cases hc : isBlank c <;> simp [trimEnd, hc]

theorem trim_cons_of_isBlank {c : Char} (h : isBlank c = true) (text : List Char) :
    trim (c :: text) = trim text := by
  rw [trim, trimStart, List.dropWhile_cons_of_pos h]
  rfl

@[simp] theorem trim_trimStart (text : List Char) : trim (trimStart text) = trim text := by
  rw [trim, trim, trimStart, trimStart, List.dropWhile_idempotent]

@[simp] theorem trim_trimEnd (text : List Char) : trim (trimEnd text) = trim text := by
  induction text with
  | nil => rfl
  | cons c text ih =>
    cases hc : isBlank c with
    | true =>
      rw [trim_cons_of_isBlank hc, ← ih, trimEnd_cons]
      split
      next h => simp [h, trimEnd, hc]
      next => exact trim_cons_of_isBlank hc _
    | false =>
      have hstart : ∀ back, trimStart (c :: back) = c :: back := fun _ =>
        List.dropWhile_cons_of_neg (by simp [hc])
      obtain ⟨back, hback⟩ : ∃ back, trimEnd (c :: text) = c :: back := by
        rw [trimEnd_cons]
        split <;> simp [trimEnd, hc]
      rw [trim, trim, hstart, hback, hstart, ← hback, trimEnd_eq_rdropWhile, trimEnd_eq_rdropWhile,
        List.rdropWhile_idempotent]

@[simp] theorem trim_trim (text : List Char) : trim (trim text) = trim text :=
  (trim_trimEnd (trimStart text)).trans (trim_trimStart text)

theorem trim_eq_nil {text : List Char} (h : ∀ c ∈ text, isBlank c = true) : trim text = [] := by
  rw [trim, trimStart, List.dropWhile_eq_nil_iff.2 h]
  rfl

theorem trim_concat_of_isBlank {c : Char} (h : isBlank c = true) (text : List Char) :
    trim (text ++ [c]) = trim text := by
  rw [← trim_trimEnd, trimEnd_append, if_pos (by simp [trimEnd, h]), trim_trimEnd]

/-! ## Trimmed texts -/

theorem trimStart_eq_self {text : List Char} (h : trim text = text) : trimStart text = text := by
  refine (List.dropWhile_suffix isBlank).eq_of_length (Nat.le_antisymm (length_trimStart_le _) ?_)
  calc text.length = (trim text).length := by rw [h]
    _ ≤ (trimStart text).length := length_trimEnd_le _

theorem trimEnd_eq_self {text : List Char} (h : trim text = text) : trimEnd text = text := by
  rwa [trim, trimStart_eq_self h] at h

/-- A trimmed text inside a text is not touched when the whole text is trimmed. -/
theorem trim_append_append {middle : List Char} (h : trim middle = middle) (hne : middle ≠ [])
    (front back : List Char) :
    trim (front ++ middle ++ back) = trimStart front ++ middle ++ trimEnd back := by
  have hstart : trimStart (front ++ middle ++ back) = trimStart front ++ middle ++ back := by
    rw [trimStart_append, trimStart_append, trimStart_eq_self h]
    split <;> simp_all
  rw [trim, hstart, trimEnd_append, trimEnd_append, trimEnd_eq_self h]
  split <;> simp_all

/-- Between two trimmed texts anything may stand. -/
theorem trim_eq_self_of_ends {front back : List Char} (hfront : trim front = front)
    (hfront_ne : front ≠ []) (hback : trim back = back) (hback_ne : back ≠ []) (middle : List Char) :
    trim (front ++ (middle ++ back)) = front ++ (middle ++ back) := by
  have hwhole := trim_append_append hfront hfront_ne [] (middle ++ back)
  have hend : trimEnd (middle ++ back) = middle ++ back := by
    rw [trimEnd_append, trimEnd_eq_self hback, if_neg hback_ne]
  rwa [hend, List.nil_append] at hwhole

/-- A text that neither begins nor ends with a blank is trimmed. -/
theorem trim_eq_self_of_not_blank {text : List Char} (hfirst : ∀ c ∈ text.head?, isBlank c = false)
    (hlast : ∀ c ∈ text.getLast?, isBlank c = false) : trim text = text := by
  have hstart : trimStart text = text := by
    cases text with
    | nil => rfl
    | cons c text => exact List.dropWhile_cons_of_neg (by simp [hfirst c rfl])
  rw [trim, hstart, trimEnd_eq_rdropWhile, List.rdropWhile_eq_self_iff]
  intro hne
  simp [hlast _ (List.getLast_mem_getLast? hne)]

/-- A text without blanks is trimmed. -/
theorem trim_eq_self_of_word {word : List Char} (h : ∀ c ∈ word, isBlank c = false) :
    trim word = word :=
  trim_eq_self_of_not_blank (fun c hc => h c (List.mem_of_mem_head? hc))
    fun c hc => h c (List.mem_of_mem_getLast? hc)

/-- Blanks around a trimmed text are taken away. -/
theorem trim_blanks_append {front middle back : List Char} (hfront : ∀ c ∈ front, isBlank c = true)
    (h : trim middle = middle) (hback : ∀ c ∈ back, isBlank c = true) :
    trim (front ++ middle ++ back) = middle := by
  by_cases hne : middle = []
  · subst hne
    refine trim_eq_nil fun c hc => ?_
    rw [List.append_nil] at hc
    exact (List.mem_append.1 hc).elim (hfront c) (hback c)
  · have hend : trimEnd back = [] := by
      rw [trimEnd_eq_rdropWhile, List.rdropWhile_eq_nil_iff]
      exact hback
    rw [trim_append_append h hne, trimStart, List.dropWhile_eq_nil_iff.2 hfront, hend,
      List.nil_append, List.append_nil]

/-! ## Strings -/

/-- A text that is not empty and neither begins nor ends with a blank. -/
def IsTrimmed (text : String) : Prop :=
  text ≠ "" ∧ trimmed text = text
deriving Decidable

/-- A text that is not empty and has no blank in it. -/
def IsWord (text : String) : Prop :=
  text ≠ "" ∧ ∀ c ∈ text.toList, isBlank c = false

instance (text : String) : Decidable (IsWord text) :=
  decidable_of_iff (text ≠ "" ∧ text.toList.all (!isBlank ·) = true) (by simp [IsWord])

theorem toList_ne_nil {text : String} (h : text ≠ "") : text.toList ≠ [] :=
  fun hnil => h (String.toList_eq_nil_iff.1 hnil)

theorem trim_toList {text : String} (h : trimmed text = text) : trim text.toList = text.toList := by
  have hlist := congrArg String.toList h
  rwa [trimmed, String.toList_ofList] at hlist

/-! ## Pieces -/

theorem pieces_ne_nil (cut : Char → Bool) (text : List Char) : pieces cut text ≠ [] := by
  cases text with
  | nil => simp [pieces]
  | cons c rest =>
    rw [pieces]
    split
    · simp
    · cases pieces cut rest <;> simp [pushFirst]

/-- A text without a separator is one piece. -/
theorem pieces_eq_singleton {cut : Char → Bool} {text : List Char} (h : ∀ c ∈ text, cut c = false) :
    pieces cut text = [text] := by
  induction text with
  | nil => rfl
  | cons c rest ih =>
    obtain ⟨hc, hrest⟩ := List.forall_mem_cons.1 h
    rw [pieces, hc, ih hrest]
    rfl

/-- A separator parts the pieces before it from those after it. -/
theorem pieces_append_of_cut {cut : Char → Bool} {c : Char} (hc : cut c = true)
    (front back : List Char) :
    pieces cut (front ++ c :: back) = pieces cut front ++ pieces cut back := by
  induction front with
  | nil => simp [pieces, hc]
  | cons a front ih =>
    rw [List.cons_append, pieces, pieces, ih]
    split
    · rfl
    · cases hfront : pieces cut front with
      | nil => exact absurd hfront (pieces_ne_nil cut front)
      | cons => rfl

/-- The first piece ends at the first separator. -/
theorem pieces_append_cons {cut : Char → Bool} {piece : List Char} (h : ∀ c ∈ piece, cut c = false)
    {c : Char} (hc : cut c = true) (rest : List Char) :
    pieces cut (piece ++ c :: rest) = piece :: pieces cut rest := by
  rw [pieces_append_of_cut hc, pieces_eq_singleton h, List.singleton_append]

/-! ## Words -/

/-- A text without blanks is one word. -/
theorem words_eq_singleton {word : List Char} (hne : word ≠ []) (h : ∀ c ∈ word, isBlank c = false) :
    words word = [word] := by
  rw [words, pieces_eq_singleton h]
  exact List.filter_cons_of_pos (by simpa using hne)

/-- The scan for a word ends at the first blank, or with the text. -/
theorem takeWhile_word_append {word tail : List Char} (hword : ∀ c ∈ word, isBlank c = false)
    (htail : ∀ c ∈ tail.head?, isBlank c = true) :
    (word ++ tail).takeWhile (!isBlank ·) = word := by
  rw [List.takeWhile_append_of_pos fun c hc => by simp [hword c hc]]
  cases tail with
  | nil => rw [List.takeWhile_nil, List.append_nil]
  | cons c tail => rw [List.takeWhile_cons_of_neg (by simp [htail c rfl]), List.append_nil]

theorem dropWhile_word_append {word tail : List Char} (hword : ∀ c ∈ word, isBlank c = false)
    (htail : ∀ c ∈ tail.head?, isBlank c = true) :
    (word ++ tail).dropWhile (!isBlank ·) = tail := by
  rw [List.dropWhile_append_of_pos fun c hc => by simp [hword c hc]]
  cases tail with
  | nil => rfl
  | cons c tail => exact List.dropWhile_cons_of_neg (by simp [htail c rfl])

/-! ## Runs of blanks -/

/-- A run of blanks, which may be empty. -/
structure Blanks where
  chars : List Char
  blank : ∀ c ∈ chars, isBlank c = true

/-- No blanks. -/
def Blanks.none : Blanks :=
  ⟨[], List.forall_mem_nil _⟩

/-- The characters that are given, all of which are blanks. -/
def Blanks.ofAll (chars : List Char) (h : chars.all isBlank = true) : Blanks :=
  ⟨chars, List.all_eq_true.1 h⟩

/-- Blanks that keep two words apart. -/
structure Gap extends Blanks where
  ne_nil : chars ≠ []

/-- A text behind a gap; without a text there is no gap either. -/
def Gap.before (gap : Gap) (text : List Char) : List Char :=
  if text = [] then [] else gap.chars ++ text

theorem Gap.head? (gap : Gap) (text : List Char) :
    ∀ c ∈ (gap.chars ++ text).head?, isBlank c = true := by
  intro c hc
  rw [List.head?_append_of_ne_nil _ gap.ne_nil] at hc
  exact gap.blank c (List.mem_of_mem_head? hc)

theorem Gap.head?_before (gap : Gap) (text : List Char) :
    ∀ c ∈ (gap.before text).head?, isBlank c = true := by
  unfold before
  split
  · simp
  · exact gap.head? text

theorem Gap.trim_before (gap : Gap) {text : List Char} (h : trim text = text) :
    trim (gap.before text) = text := by
  unfold before
  split
  next hnil => rw [hnil]; rfl
  next =>
    have htrim := trim_blanks_append gap.blank h (List.forall_mem_nil _)
    rwa [List.append_nil] at htrim

/-! ## What trimming takes away -/

theorem takeWhile_append_trimStart (text : List Char) :
    text.takeWhile isBlank ++ trimStart text = text :=
  List.takeWhile_append_dropWhile

theorem trimEnd_append_rtakeWhile (text : List Char) :
    trimEnd text ++ text.rtakeWhile isBlank = text := by
  rw [trimEnd_eq_rdropWhile, List.rdropWhile_append_rtakeWhile]

/-- What trimming takes away are blanks. -/
theorem exists_eq_append_trim (text : List Char) :
    ∃ front back, text = front ++ trim text ++ back ∧ (∀ c ∈ front, isBlank c = true) ∧
      ∀ c ∈ back, isBlank c = true := by
  refine ⟨text.takeWhile isBlank, (trimStart text).rtakeWhile isBlank, ?_,
    fun _ => List.mem_takeWhile_imp, fun _ => List.mem_rtakeWhile_imp⟩
  rw [List.append_assoc, trim, trimEnd_append_rtakeWhile, takeWhile_append_trimStart]

theorem isInfix_trim (text : List Char) : trim text <:+: text := by
  obtain ⟨front, back, htext, -, -⟩ := exists_eq_append_trim text
  exact ⟨front, back, htext.symm⟩

/-! ## Joined texts -/

theorem toList_joined (separator : String) (texts : List String) :
    (joined separator texts).toList = separator.toList.intercalate (texts.map String.toList) := by
  fun_induction joined separator texts with
  | case1 => rfl
  | case2 => simp
  | case3 first rest hrest ih =>
    obtain ⟨next, rest, rfl⟩ := List.exists_cons_of_ne_nil hrest
    simp only [List.map_cons, List.intercalate_cons_cons] at ih ⊢
    rw [String.toList_append, String.toList_append, ih]

theorem head?_intercalate {piece : List Char} (h : piece ≠ []) (separator : List Char)
    (pieces : List (List Char)) :
    (separator.intercalate (piece :: pieces)).head? = piece.head? := by
  cases pieces with
  | nil => rw [List.intercalate_singleton]
  | cons next pieces =>
    rw [List.intercalate_cons_cons, List.append_assoc, List.head?_append_of_ne_nil _ h]

/-- What holds of the pieces and is kept when a piece is put before a joined text holds of the texts
that are joined from them. -/
theorem intercalate_induction {motive : List Char → Prop} {separator : List Char}
    {pieces : List (List Char)} (hpieces : pieces ≠ []) (piece : ∀ piece ∈ pieces, motive piece)
    (join : ∀ piece ∈ pieces, ∀ tail, motive tail → motive (piece ++ (separator ++ tail))) :
    motive (separator.intercalate pieces) := by
  induction pieces with
  | nil => exact absurd rfl hpieces
  | cons first rest ih =>
    obtain ⟨hfirst, hrest⟩ := List.forall_mem_cons.1 piece
    obtain ⟨hjoin, hjoins⟩ := List.forall_mem_cons.1 join
    cases rest with
    | nil =>
      rw [List.intercalate_singleton]
      exact hfirst
    | cons next rest =>
      rw [List.intercalate_cons_cons, List.append_assoc]
      exact hjoin _ (ih (List.cons_ne_nil _ _) hrest hjoins)

/-- Trimmed texts are still trimmed when they are joined. -/
theorem trim_intercalate {pieces : List (List Char)} (hpieces : pieces ≠ [])
    (h : ∀ piece ∈ pieces, piece ≠ [] ∧ trim piece = piece) (separator : List Char) :
    trim (separator.intercalate pieces) = separator.intercalate pieces := by
  have hboth : separator.intercalate pieces ≠ [] ∧
      trim (separator.intercalate pieces) = separator.intercalate pieces :=
    intercalate_induction (motive := fun text => text ≠ [] ∧ trim text = text) hpieces h
      fun piece hmem tail ⟨hne, htrim⟩ =>
        ⟨List.append_ne_nil_of_left_ne_nil (h piece hmem).1 _,
          trim_eq_self_of_ends (h piece hmem).2 (h piece hmem).1 htrim hne _⟩
  exact hboth.2

/-! ## Lower case -/

/-- A character that is its own lower-case form is kept. -/
theorem mem_lower {c : Char} (hascii : c.toNat < 0x80) (hlower : c.toLower = c) {text : List Char}
    (h : c ∈ text) : c ∈ lower text := by
  have hkept : ∀ before text, c ∈ text → c ∈ lowerAfter before text := by
    intro before text h
    induction text generalizing before with
    | nil => cases h
    | cons d text ih =>
      rw [lowerAfter]
      refine List.mem_append.2 ?_
      rcases List.mem_cons.1 h with rfl | h
      · have hsigma : c ≠ 'Σ' := by rintro rfl; revert hascii; decide
        left
        rw [if_neg hsigma, lowerChar, if_pos hascii, hlower]
        exact List.mem_singleton_self c
      · exact .inr (ih _ h)
  exact hkept [] text h

/-- In ASCII text the lower-case form is that of each character. -/
theorem lower_eq_map_toLower {text : List Char} (h : ∀ c ∈ text, c.toNat < 0x80) :
    lower text = text.map Char.toLower := by
  have hmap : ∀ before, lowerAfter before text = text.map Char.toLower := by
    induction text with
    | nil => exact fun _ => rfl
    | cons c text ih =>
      obtain ⟨hc, htext⟩ := List.forall_mem_cons.1 h
      have hsigma : c ≠ 'Σ' := by rintro rfl; revert hc; decide
      intro before
      rw [lowerAfter, if_neg hsigma, lowerChar, if_pos hc, ih htext]
      rfl
  exact hmap []

end BatchScript.Text
