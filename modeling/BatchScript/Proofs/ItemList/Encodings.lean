import BatchScript.ItemList
import BatchScript.Proofs.Json.Arrays
import BatchScript.Proofs.Text.Blanks

/-!
# Encodings of lists

A list of items can be written as a JSON array of strings, with commas between its items, or with blanks
between them. A list that is written in one of these ways is read back as the list (`expand_encoded`).
Any strings can be items of an array. Between commas and blanks an item has to be told apart from what
surrounds it, and quotes around it would be taken off; and the whole must not happen to be an array.
-/

namespace BatchScript.ItemList

open Text

/-! ## Encodings -/

/-- An item that has one pair of equal quotes around it. -/
def IsWrapped (item : String) : Prop :=
  ∃ quote inner, isQuote quote = true ∧ item.toList = quote :: inner ++ [quote]

/-- An item that can stand between commas. -/
structure FitsCommas (item : String) : Prop where
  isTrimmed : IsTrimmed item
  no_comma : ',' ∉ item.toList
  not_isWrapped : ¬ IsWrapped item

/-- An item that can stand between blanks. -/
structure FitsBlanks (item : String) : Prop where
  isWord : IsWord item
  no_comma : ',' ∉ item.toList
  not_isWrapped : ¬ IsWrapped item

/-- Quotes are taken off exactly the items that are wrapped. -/
theorem stripQuotes_eq_self_iff {item : String} :
    stripQuotes item.toList = item.toList ↔ ¬ IsWrapped item := by
  constructor
  · rintro hstrip ⟨quote, inner, hquote, hchars⟩
    have hinner : stripQuotes (quote :: inner ++ [quote]) = inner := by
      simp [stripQuotes, hquote]
    have hlength := congrArg List.length (hinner.symm.trans (hchars ▸ hstrip))
    rw [List.cons_append, List.length_cons, List.length_append, List.length_singleton] at hlength
    omega
  · intro h
    cases hchars : item.toList with
    | nil => rfl
    | cons quote rest =>
      rw [stripQuotes, if_neg]
      intro hboth
      rw [Bool.and_eq_true, beq_iff_eq] at hboth
      obtain ⟨inner, hrest⟩ := List.getLast?_eq_some_iff.1 hboth.2
      exact h ⟨quote, inner, hboth.1, by rw [hchars, hrest]; rfl⟩

instance (item : String) : Decidable (IsWrapped item) :=
  decidable_of_iff (stripQuotes item.toList ≠ item.toList)
    ((not_congr stripQuotes_eq_self_iff).trans not_not)

instance (item : String) : Decidable (FitsCommas item) :=
  decidable_of_iff (IsTrimmed item ∧ ',' ∉ item.toList ∧ ¬ IsWrapped item)
    ⟨fun ⟨htrimmed, hcomma, hwrapped⟩ => ⟨htrimmed, hcomma, hwrapped⟩,
      fun h => ⟨h.isTrimmed, h.no_comma, h.not_isWrapped⟩⟩

instance (item : String) : Decidable (FitsBlanks item) :=
  decidable_of_iff (IsWord item ∧ ',' ∉ item.toList ∧ ¬ IsWrapped item)
    ⟨fun ⟨hword, hcomma, hwrapped⟩ => ⟨hword, hcomma, hwrapped⟩,
      fun h => ⟨h.isWord, h.no_comma, h.not_isWrapped⟩⟩

/-- Items with a comma between neighbours, and with blanks around the commas. -/
inductive CommaJoined : List String → List Char → Prop
  | last (item : String) : CommaJoined [item] item.toList
  | cons (item : String) (before after : Blanks) {items : List String} {text : List Char}
      (hrest : CommaJoined items text) :
      CommaJoined (item :: items) (item.toList ++ (before.chars ++ ',' :: (after.chars ++ text)))

/-- Items with blanks between neighbours. -/
inductive BlankJoined : List String → List Char → Prop
  | nil : BlankJoined [] []
  | last (item : String) : BlankJoined [item] item.toList
  | cons (item : String) (gap : Gap) {next : String} {items : List String} {text : List Char}
      (hrest : BlankJoined (next :: items) text) :
      BlankJoined (item :: next :: items) (item.toList ++ (gap.chars ++ text))

/-! ## Reading -/

theorem expand_append_blanks {text : List Char} (h : trim text = text) (front back : Blanks) :
    expand (front.chars ++ text ++ back.chars) = expand text := by
  rw [expand, expand, trim_blanks_append front.blank h back.blank, h]

theorem expand_eq_plainItems {text : List Char} (h : trim text = text)
    (harray : Json.array? text = none) : expand text = plainItems text := by
  rw [expand, h, harray, ite_self]

/-! ## Arrays -/

theorem getLast?_of_elements {items : List String} {text : List Char}
    (h : Json.Elements items text) : text.getLast? = some ']' := by
  induction h with
  | last h before => simp [List.getLast?_cons, List.getLast?_append]
  | cons h before after hrest ih =>
    simp [List.getLast?_cons, List.getLast?_append, ih]

theorem ends_of_arrayText {items : List String} {text : List Char}
    (h : Json.ArrayText items text) : text.head? = some '[' ∧ text.getLast? = some ']' := by
  cases h with
  | empty blanks => simp [List.getLast?_cons, List.getLast?_append]
  | elements blanks h => simp [List.getLast?_cons, List.getLast?_append, getLast?_of_elements h]

theorem trim_arrayText {items : List String} {text : List Char} (h : Json.ArrayText items text) :
    trim text = text := by
  obtain ⟨hfirst, hlast⟩ := ends_of_arrayText h
  have hbrackets : isBlank '[' = false ∧ isBlank ']' = false := by decide
  refine trim_eq_self_of_not_blank ?_ ?_
  · rw [hfirst]
    simpa using hbrackets.1
  · rw [hlast]
    simpa using hbrackets.2

theorem expand_arrayText {items : List String} {text : List Char} (h : Json.ArrayText items text) :
    expand text = items := by
  rw [expand, trim_arrayText h, if_pos (ends_of_arrayText h).1, Json.array?_of_arrayText h]
  simp [ofElement, Function.comp_def]

/-! ## Commas -/

theorem trim_commaJoined {items : List String} {text : List Char} (h : CommaJoined items text)
    (hitems : ∀ item ∈ items, FitsCommas item) : trim text = text ∧ text ≠ [] := by
  induction h with
  | last item =>
    obtain ⟨hne, htrim⟩ := (hitems item (List.mem_singleton_self _)).isTrimmed
    exact ⟨trim_toList htrim, toList_ne_nil hne⟩
  | cons item before after hrest ih =>
    obtain ⟨hitem, hitems⟩ := List.forall_mem_cons.1 hitems
    obtain ⟨hne, htrim⟩ := hitem.isTrimmed
    have hends := trim_eq_self_of_ends (trim_toList htrim) (toList_ne_nil hne) (ih hitems).1
      (ih hitems).2 (before.chars ++ ',' :: after.chars)
    exact ⟨by simpa using hends, List.append_ne_nil_of_left_ne_nil (toList_ne_nil hne) _⟩

theorem not_isComma_of_isBlank {c : Char} (h : isBlank c = true) : (c == ',') = false := by
  rw [beq_eq_false_iff_ne]
  rintro rfl
  revert h
  decide

/-- The item of a piece between commas: the piece is trimmed, and no quotes are taken off. -/
theorem stripQuotes_trim_piece {item : String} (h : FitsCommas item) (before after : Blanks) :
    stripQuotes (trim (before.chars ++ item.toList ++ after.chars)) = item.toList := by
  rw [trim_blanks_append before.blank (trim_toList h.isTrimmed.2) after.blank,
    stripQuotes_eq_self_iff.2 h.not_isWrapped]

theorem no_comma_piece {item : String} (h : FitsCommas item) (before after : Blanks) :
    ∀ c ∈ before.chars ++ item.toList ++ after.chars, (c == ',') = false := by
  intro c hc
  rcases List.mem_append.1 hc with hc | hc
  · rcases List.mem_append.1 hc with hc | hc
    · exact not_isComma_of_isBlank (before.blank c hc)
    · exact beq_eq_false_iff_ne.2 fun heq => h.no_comma (heq ▸ hc)
  · exact not_isComma_of_isBlank (after.blank c hc)

/-- The induction carries blanks that stand before the first item, since a comma leaves those behind it
to the next piece. -/
theorem map_pieces_commaJoined {items : List String} {text : List Char} (h : CommaJoined items text)
    (hitems : ∀ item ∈ items, FitsCommas item) (front : Blanks) :
    (pieces (· == ',') (front.chars ++ text)).map (fun item => stripQuotes (trim item)) =
      items.map String.toList := by
  induction h generalizing front with
  | last item =>
    have hitem := hitems item (List.mem_singleton_self _)
    have hpiece := no_comma_piece hitem front .none
    have hread := stripQuotes_trim_piece hitem front .none
    rw [Blanks.none, List.append_nil] at hpiece hread
    rw [pieces_eq_singleton hpiece, List.map_singleton, List.map_singleton, hread]
  | @cons item before after items text hrest ih =>
    obtain ⟨hitem, hitems⟩ := List.forall_mem_cons.1 hitems
    have hpieces := pieces_append_cons (no_comma_piece hitem front before) (beq_self_eq_true ',')
      (after.chars ++ text)
    rw [List.append_assoc, List.append_assoc] at hpieces
    rw [hpieces, List.map_cons, List.map_cons, ih hitems, stripQuotes_trim_piece hitem]

theorem comma_mem_commaJoined {items : List String} {text : List Char} (h : CommaJoined items text)
    (hlength : 2 ≤ items.length) : ',' ∈ text := by
  cases h with
  | last => simp at hlength
  | cons => simp

theorem plainItems_commaJoined {items : List String} {text : List Char} (h : CommaJoined items text)
    (hlength : 2 ≤ items.length) (hitems : ∀ item ∈ items, FitsCommas item) :
    plainItems text = items := by
  have hread := map_pieces_commaJoined h hitems .none
  rw [Blanks.none, List.nil_append] at hread
  have hkept : ∀ chars ∈ items.map String.toList, decide (chars ≠ []) = true := by
    rw [List.forall_mem_map]
    exact fun item hmem => decide_eq_true (toList_ne_nil (hitems item hmem).isTrimmed.1)
  rw [plainItems, if_pos (List.contains_iff_mem.2 (comma_mem_commaJoined h hlength)), betweenCommas,
    hread, List.filter_eq_self.2 hkept, List.map_map]
  exact (List.map_congr_left fun item _ => String.ofList_toList).trans (List.map_id _)

/-! ## Blanks -/

/-- Blanks at the start of a text are no part of a word. -/
theorem words_blanks_append {front : List Char} (h : ∀ c ∈ front, isBlank c = true)
    (text : List Char) : words (front ++ text) = words text := by
  induction front with
  | nil => rfl
  | cons c front ih =>
    obtain ⟨hc, hfront⟩ := List.forall_mem_cons.1 h
    rw [← ih hfront, words, words, List.cons_append, pieces, if_pos hc]
    rfl

theorem words_word_append {word : List Char} (hne : word ≠ []) (h : ∀ c ∈ word, isBlank c = false)
    (gap : Gap) (text : List Char) : words (word ++ (gap.chars ++ text)) = word :: words text := by
  obtain ⟨⟨chars, hblank⟩, hgap⟩ := gap
  cases chars with
  | nil => exact absurd rfl hgap
  | cons c chars =>
    obtain ⟨hc, hchars⟩ := List.forall_mem_cons.1 hblank
    have hwords := words_blanks_append hchars text
    show words (word ++ c :: (chars ++ text)) = _
    rw [words, pieces_append_cons h hc, List.filter_cons_of_pos (by simpa using hne), ← hwords]
    rfl

theorem words_blankJoined {items : List String} {text : List Char} (h : BlankJoined items text)
    (hitems : ∀ item ∈ items, IsWord item) : words text = items.map String.toList := by
  induction h with
  | nil => rfl
  | last item =>
    obtain ⟨hne, hword⟩ := hitems item (List.mem_singleton_self _)
    exact words_eq_singleton (toList_ne_nil hne) hword
  | cons item gap hrest ih =>
    obtain ⟨⟨hne, hword⟩, hitems⟩ := List.forall_mem_cons.1 hitems
    rw [words_word_append (toList_ne_nil hne) hword, ih hitems]
    rfl

theorem trim_blankJoined {items : List String} {text : List Char} (h : BlankJoined items text)
    (hitems : ∀ item ∈ items, IsWord item) : trim text = text ∧ (items ≠ [] → text ≠ []) := by
  induction h with
  | nil => exact ⟨rfl, fun h => absurd rfl h⟩
  | last item =>
    obtain ⟨hne, hword⟩ := hitems item (List.mem_singleton_self _)
    exact ⟨trim_eq_self_of_word hword, fun _ => toList_ne_nil hne⟩
  | cons item gap hrest ih =>
    obtain ⟨⟨hne, hword⟩, hitems⟩ := List.forall_mem_cons.1 hitems
    exact ⟨trim_eq_self_of_ends (trim_eq_self_of_word hword) (toList_ne_nil hne) (ih hitems).1
      ((ih hitems).2 (List.cons_ne_nil _ _)) gap.chars,
      fun _ => List.append_ne_nil_of_left_ne_nil (toList_ne_nil hne) _⟩

theorem comma_not_mem_blankJoined {items : List String} {text : List Char}
    (h : BlankJoined items text) (hitems : ∀ item ∈ items, ',' ∉ item.toList) : ',' ∉ text := by
  induction h with
  | nil => exact List.not_mem_nil
  | last item => exact hitems item (List.mem_singleton_self _)
  | cons item gap hrest ih =>
    obtain ⟨hitem, hitems⟩ := List.forall_mem_cons.1 hitems
    rw [List.mem_append, List.mem_append]
    rintro (hc | hc | hc)
    · exact hitem hc
    · exact absurd (not_isComma_of_isBlank (gap.blank _ hc)) (by decide)
    · exact ih hitems hc

theorem plainItems_blankJoined {items : List String} {text : List Char} (h : BlankJoined items text)
    (hitems : ∀ item ∈ items, FitsBlanks item) : plainItems text = items := by
  have hcomma := comma_not_mem_blankJoined h fun item hmem => (hitems item hmem).no_comma
  have hstrip : ∀ item ∈ items, String.ofList (stripQuotes item.toList) = item := fun item hmem => by
    rw [stripQuotes_eq_self_iff.2 (hitems item hmem).not_isWrapped, String.ofList_toList]
  rw [plainItems, if_neg (by simpa using hcomma), betweenBlanks,
    words_blankJoined h fun item hmem => (hitems item hmem).isWord, List.map_map]
  exact (List.map_congr_left hstrip).trans (List.map_id _)

/-! ## Lists -/

/-- A list is read back from each of its encodings, whatever blanks stand around it. -/
theorem expand_encoded (items : List String) (text : List Char) (front back : Blanks) :
    expand (Json.compact (.array (items.map .string))) = items ∧
    (Json.ArrayText items text → expand (front.chars ++ text ++ back.chars) = items) ∧
    (CommaJoined items text → 2 ≤ items.length → (∀ item ∈ items, FitsCommas item) →
      Json.array? text = none → expand (front.chars ++ text ++ back.chars) = items) ∧
    (BlankJoined items text → (∀ item ∈ items, FitsBlanks item) →
      Json.array? text = none → expand (front.chars ++ text ++ back.chars) = items) := by
  refine ⟨expand_arrayText (Json.arrayText_compact items), fun h => ?_,
    fun h hlength hitems harray => ?_, fun h hitems harray => ?_⟩
  · rw [expand_append_blanks (trim_arrayText h), expand_arrayText h]
  · have htrim := (trim_commaJoined h hitems).1
    rw [expand_append_blanks htrim, expand_eq_plainItems htrim harray,
      plainItems_commaJoined h hlength hitems]
  · have htrim := (trim_blankJoined h fun item hmem => (hitems item hmem).isWord).1
    rw [expand_append_blanks htrim, expand_eq_plainItems htrim harray,
      plainItems_blankJoined h hitems]

/-- Each of the three texts begins like an array, and a comma, a quote or an escape stands inside an
item. -/
theorem expand_encoded_sample :
    let strings := ["a, b", "\""]
    let array := "[\"a, b\" ,\"\\u0022\"]".toList
    let phrases := ["[a", "b \"c", "\""]
    let commas := "[a ,\tb \"c,\"".toList
    let words := ["[1", "it's", "2]"]
    let blanks := "[1  it's\t2]".toList
    (Json.ArrayText strings array ∧ expand (['\t'] ++ array ++ ['\n']) = strings) ∧
    (CommaJoined phrases commas ∧ (∀ item ∈ phrases, FitsCommas item) ∧
      Json.array? commas = none ∧ expand (['\t'] ++ commas ++ ['\n']) = phrases) ∧
    (BlankJoined words blanks ∧ (∀ item ∈ words, FitsBlanks item) ∧
      Json.array? blanks = none ∧ expand (['\t'] ++ blanks ++ ['\n']) = words) := by
  intro strings array phrases commas words blanks
  let tab := Blanks.ofAll ['\t'] (by decide)
  let line := Blanks.ofAll ['\n'] (by decide)
  let gap : Gap := ⟨.ofAll [' ', ' '] (by decide), List.cons_ne_nil _ _⟩
  have hquote : Json.CodeUnit '"'.toNat ['0', '0', '2', '2'] :=
    show Json.CodeUnit (((0 * 16 + 0) * 16 + 2) * 16 + 2) _ from
      .digits (.lower (by decide)) (.lower (by decide)) (.lower (by decide)) (.lower (by decide))
  have hescaped : Json.Spelled "\"".toList "\\u0022".toList := .cons (.unit hquote) .nil
  have hplain : Json.Spelled "a, b".toList "a, b".toList := by
    have hflat : "a, b".toList.flatMap Json.escaped = "a, b".toList := by decide
    exact hflat ▸ Json.spelled_flatMap "a, b".toList
  have harray : Json.ArrayText strings array :=
    .elements .none (.cons hplain ⟨[' '], by simp⟩ .none (.last hescaped .none))
  have hcommas : CommaJoined phrases commas :=
    .cons "[a" (.ofAll [' '] (by decide)) tab (.cons "b \"c" .none .none (.last "\""))
  have hphrases : ∀ item ∈ phrases, FitsCommas item := by decide
  have hcommas_array : Json.array? commas = none := by decide
  have hblanks : BlankJoined words blanks :=
    .cons "[1" gap (.cons "it's" ⟨tab, List.cons_ne_nil _ _⟩ (.last "2]"))
  have hwords : ∀ item ∈ words, FitsBlanks item := by decide
  have hblanks_array : Json.array? blanks = none := by decide
  exact ⟨⟨harray, (expand_encoded strings array tab line).2.1 harray⟩,
    ⟨hcommas, hphrases, hcommas_array, (expand_encoded phrases commas tab line).2.2.1 hcommas
      (by decide) hphrases hcommas_array⟩,
    hblanks, hwords, hblanks_array, (expand_encoded words blanks tab line).2.2.2 hblanks hwords
      hblanks_array⟩

end BatchScript.ItemList
