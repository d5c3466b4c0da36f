import BatchScript.Directive
import BatchScript.Proofs.Text.Blanks

/-!
# Directives as they are written

A directive is written on a line as an at sign, its keyword in any case, and a body behind a gap. A value
or a text to echo stands between double quotes in the body. Such a line is read back as the directive,
however many blanks stand around the parts of it and whatever the value or the text is (`read_written`):
the line, the body and the value are each trimmed, but a quote at both ends keeps a text as it is, and
only the outer pair of quotes is taken off.
-/

namespace BatchScript

open Text

/-! ## Layouts -/

/-- The blanks of a line with a directive. -/
structure Layout where
  /-- Before the at sign. -/
  start : Blanks
  /-- Between the keyword and the body. -/
  gap : Gap
  beforeEquals : Blanks
  afterEquals : Blanks
  /-- Between the variable of a `@foreach` and the word after it. -/
  beforeIn : Gap
  afterIn : Gap
  /-- At the end of the line. -/
  stop : Blanks

/-- A layout with blanks everywhere. -/
def Layout.sample : Layout where
  start := .ofAll ['\t', ' '] (by decide)
  gap := ⟨.ofAll [' ', ' '] (by decide), List.cons_ne_nil _ _⟩
  beforeEquals := .ofAll ['\t'] (by decide)
  afterEquals := .ofAll [' '] (by decide)
  beforeIn := ⟨.ofAll [' '] (by decide), List.cons_ne_nil _ _⟩
  afterIn := ⟨.ofAll [' '] (by decide), List.cons_ne_nil _ _⟩
  stop := .ofAll [' '] (by decide)

namespace Directive

/-! ## Writing -/

/-- The keyword of a directive. -/
def keyword : Directive → String
  | .set .. => "set"
  | .exported .. => "export"
  | .unset _ => "unset"
  | .echo _ => "echo"
  | .onError _ => "onerror"
  | .opens opening => opening.kind.opener
  | .divides marker => marker.branch.keyword
  | .closes kind => kind.terminator

/-- A text between double quotes. -/
def quoted (text : String) : List Char :=
  '"' :: text.toList ++ ['"']

/-- The body of a directive. -/
def body (layout : Layout) : Directive → List Char
  | .set name value | .exported name value =>
    name.toList ++ (layout.beforeEquals.chars ++ '=' :: layout.afterEquals.chars ++ quoted value)
  | .unset name => name.toList
  | .echo text => quoted text
  | .onError policy => policy.word.toList
  | .opens (.foreach var list) =>
    var.toList ++ (layout.beforeIn.chars ++ 'i' :: 'n' :: layout.afterIn.before list.toList)
  | .opens (.conditional condition) | .opens (.loop condition) | .divides (.elif condition) =>
    condition.toList
  | .opens .attempt | .divides .otherwise | .divides .catch | .divides .finally | .closes _ => []

/-- A line with a directive, its keyword in the letters that are given. -/
def written (directive : Directive) (letters : List Char) (layout : Layout) : List Char :=
  layout.start.chars ++ '@' :: (letters ++ layout.gap.before (directive.body layout)) ++
    layout.stop.chars

/-- The names, conditions and lists of a directive are texts that a line can hold. Nothing is asked of
values and of texts to echo. -/
def Writable : Directive → Prop
  | .set name _ | .exported name _ => IsTrimmed name ∧ '=' ∉ name.toList
  | .unset name => IsWord name
  | .opens (.foreach var list) => IsWord var ∧ trimmed list = list
  | .opens (.conditional condition) | .opens (.loop condition) | .divides (.elif condition) =>
    IsTrimmed condition
  | .echo _ | .onError _ | .opens .attempt | .divides .otherwise | .divides .catch
  | .divides .finally | .closes _ => True

/-! ## Texts of a body -/

theorem trim_quoted (text : String) : trim (quoted text) = quoted text := by
  have hquote : isBlank '"' = false := by decide
  refine trim_eq_self_of_not_blank (by simpa [quoted] using hquote) ?_
  rw [quoted, List.getLast?_concat]
  simpa using hquote

theorem stripQuotes_quoted (text : String) : stripQuotes (quoted text) = text.toList := by
  simp [quoted, stripQuotes, isQuote]

theorem cutAtEquals_append {front : List Char} (h : '=' ∉ front) (back : List Char) :
    cutAtEquals (front ++ '=' :: back) = some (front, back) := by
  induction front with
  | nil => rfl
  | cons c front ih =>
    rw [List.mem_cons, not_or] at h
    rw [List.cons_append, cutAtEquals, if_neg (Ne.symm h.1), ih h.2]
    rfl

/-! ## Reading bodies -/

variable (layout : Layout)

theorem readAssignment_written {name : String} (hname : IsTrimmed name) (hequals : '=' ∉ name.toList)
    (keyword value : String) :
    readAssignment keyword (name.toList ++ (layout.beforeEquals.chars ++ '=' ::
      layout.afterEquals.chars ++ quoted value)) = .ok (name, value) := by
  have hfront : '=' ∉ name.toList ++ layout.beforeEquals.chars := by
    rw [List.mem_append]
    rintro (hmem | hmem)
    · exact hequals hmem
    · exact absurd (layout.beforeEquals.blank _ hmem) (by decide)
  have hcut : cutAtEquals (name.toList ++ (layout.beforeEquals.chars ++ '=' ::
      layout.afterEquals.chars ++ quoted value)) =
      some (name.toList ++ layout.beforeEquals.chars, layout.afterEquals.chars ++ quoted value) := by
    have := cutAtEquals_append hfront (layout.afterEquals.chars ++ quoted value)
    simpa using this
  have htrim : trim (name.toList ++ layout.beforeEquals.chars) = name.toList :=
    trim_blanks_append (List.forall_mem_nil _) (trim_toList hname.2) layout.beforeEquals.blank
  have hvalue : trim (layout.afterEquals.chars ++ quoted value) = quoted value := by
    have := trim_blanks_append layout.afterEquals.blank (trim_quoted value) (List.forall_mem_nil _)
    rwa [List.append_nil] at this
  rw [readAssignment, hcut]
  dsimp only
  rw [htrim, hvalue, stripQuotes_quoted]
  split
  next hnil => exact absurd hnil (toList_ne_nil hname.1)
  next => simp

theorem readForeach_written {var list : String} (hvar : IsWord var) (hlist : trimmed list = list) :
    readForeach (var.toList ++ (layout.beforeIn.chars ++ 'i' :: 'n' ::
      layout.afterIn.before list.toList)) = .ok (.opens (.foreach var list)) := by
  have hstart : trimStart (layout.beforeIn.chars ++ 'i' :: 'n' :: layout.afterIn.before list.toList) =
      'i' :: 'n' :: layout.afterIn.before list.toList := by
    rw [trimStart_append, trimStart, List.dropWhile_eq_nil_iff.2 layout.beforeIn.blank, if_pos rfl]
    rfl
  have hgap : (layout.afterIn.before list.toList).head?.all isBlank = true :=
    (Option.all_eq_true _ _).2 (layout.afterIn.head?_before list.toList)
  unfold readForeach
  dsimp only
  rw [takeWhile_word_append hvar.2 (layout.beforeIn.head? _),
    dropWhile_word_append hvar.2 (layout.beforeIn.head? _), hstart]
  split
  next hnil => exact absurd hnil (toList_ne_nil hvar.1)
  next hrest _ =>
    obtain ⟨-, htail⟩ := List.cons.inj hrest
    obtain ⟨-, rfl⟩ := List.cons.inj htail
    rw [if_pos hgap, layout.afterIn.trim_before (trim_toList hlist), String.ofList_toList,
      String.ofList_toList]
  next hother => exact absurd rfl (hother _)

/-! ## Bodies -/

variable {directive : Directive}

theorem trim_var_append {var : String} (h : IsWord var) (middle : List Char) {tail : List Char}
    (htail : trim tail = tail) (hne : tail ≠ []) :
    trim (var.toList ++ (middle ++ tail)) = var.toList ++ (middle ++ tail) :=
  trim_eq_self_of_ends (trim_eq_self_of_word h.2) (toList_ne_nil h.1) htail hne middle

/-- The body of a directive neither begins nor ends with a blank. -/
theorem trim_body (h : directive.Writable) : trim (directive.body layout) = directive.body layout := by
  cases directive with
  | set name value | exported name value =>
    have htrim := trim_eq_self_of_ends (trim_toList h.1.2) (toList_ne_nil h.1.1) (trim_quoted value)
      (List.cons_ne_nil _ _) (layout.beforeEquals.chars ++ '=' :: layout.afterEquals.chars)
    simpa [body] using htrim
  | unset name => exact trim_eq_self_of_word h.2
  | echo text => exact trim_quoted text
  | onError policy => cases policy <;> rfl
  | opens opening =>
    cases opening with
    | conditional condition | loop condition => exact trim_toList h.2
    | foreach var list =>
      show trim (var.toList ++ (layout.beforeIn.chars ++ 'i' :: 'n' ::
        layout.afterIn.before list.toList)) = _
      by_cases hlist : list.toList = []
      · have htrim := trim_var_append h.1 layout.beforeIn.chars
          (show trim ['i', 'n'] = ['i', 'n'] by decide) (List.cons_ne_nil _ _)
        simpa [body, Gap.before, hlist] using htrim
      · have htrim := trim_var_append h.1
          (layout.beforeIn.chars ++ 'i' :: 'n' :: layout.afterIn.chars) (trim_toList h.2) hlist
        simpa [body, Gap.before, hlist] using htrim
    | attempt => rfl
  | divides marker =>
    cases marker with
    | elif condition => exact trim_toList h.2
    | otherwise | «catch» | «finally» => rfl
  | closes kind => rfl

/-- A directive is read from its keyword and its body. -/
theorem read_body (h : directive.Writable) :
    read directive.keyword (.ofList (directive.body layout)) = .ok directive := by
  cases directive with
  | set name value | exported name value =>
    simp only [keyword, body, read, String.toList_ofList, readAssignment_written layout h.1 h.2]
    rfl
  | unset name =>
    have hwords := words_eq_singleton (toList_ne_nil h.1) h.2
    simp [keyword, body, read, hwords]
  | echo text => simp [keyword, body, read, unquoted, stripQuotes_quoted]
  | onError policy =>
    show (readPolicy (.ofList policy.word.toList)).map onError = _
    rw [String.ofList_toList]
    cases policy <;> rfl
  | opens opening =>
    cases opening with
    | conditional condition | loop condition =>
      simp [keyword, body, read, readCondition, h.1, Opening.kind, BlockKind.opener]
    | foreach var list =>
      have hread := readForeach_written layout h.1 h.2
      simp [keyword, body, read, hread, Opening.kind, BlockKind.opener]
    | attempt => rfl
  | divides marker =>
    cases marker with
    | elif condition =>
      simp [keyword, body, read, readCondition, h.1, Marker.branch, Branch.keyword]
    | otherwise | «catch» | «finally» => rfl
  | closes kind => cases kind <;> rfl

/-! ## Keywords -/

/-- The keywords of the directives. -/
def keywords : List String :=
  ["set", "export", "unset", "echo", "onerror", "if", "elif", "else", "endif", "foreach", "endforeach",
    "while", "endwhile", "try", "catch", "finally", "endtry"]

theorem keyword_mem (directive : Directive) : directive.keyword ∈ keywords := by
  cases directive with
  | opens opening =>
    cases opening <;> simp [keyword, keywords, Opening.kind, BlockKind.opener]
  | divides marker =>
    cases marker <;> simp [keyword, keywords, Marker.branch, Branch.keyword]
  | closes kind =>
    cases kind <;> simp [keyword, keywords, BlockKind.terminator]
  | set | exported | unset | echo | onError => simp [keyword, keywords]

theorem toNat_of_mem_keyword : ∀ c ∈ directive.keyword.toList, 65 ≤ c.toNat ∧ c.toNat ≤ 122 := by
  have hletters : ∀ keyword ∈ keywords,
      keyword.toList.all (fun c => decide (65 ≤ c.toNat ∧ c.toNat ≤ 122)) = true := by decide
  exact fun c hc =>
    of_decide_eq_true (List.all_eq_true.1 (hletters _ directive.keyword_mem) c hc)

/-- A character whose small form is in the range of the letters is in it too. -/
theorem toNat_of_toNat_toLower {c : Char} (h : 65 ≤ c.toLower.toNat ∧ c.toLower.toNat ≤ 122) :
    65 ≤ c.toNat ∧ c.toNat ≤ 122 := by
  unfold Char.toLower at h
  split at h
  next hupper =>
    have hlow : 65 ≤ c.toNat := UInt32.le_iff_toNat_le.1 hupper.1
    have hhigh : c.toNat ≤ 90 := UInt32.le_iff_toNat_le.1 hupper.2
    omega
  next => exact h

/-- In that range all characters are ASCII and none is a blank. -/
theorem ascii_of_toNat {c : Char} (h : 65 ≤ c.toNat ∧ c.toNat ≤ 122) :
    c.toNat < 0x80 ∧ isBlank c = false := by
  refine ⟨by omega, ?_⟩
  rw [isBlank]
  simp
  omega

/-- The letters of a keyword are read as the keyword. -/
theorem lower_letters {letters : List Char}
    (h : letters.map Char.toLower = directive.keyword.toList) :
    lower letters = directive.keyword.toList ∧ ∀ c ∈ letters, isBlank c = false := by
  have hletters : ∀ c ∈ letters, c.toNat < 0x80 ∧ isBlank c = false := by
    intro c hc
    have hmem : c.toLower ∈ directive.keyword.toList := h ▸ List.mem_map_of_mem hc
    exact ascii_of_toNat (toNat_of_toNat_toLower (toNat_of_mem_keyword _ hmem))
  exact ⟨(lower_eq_map_toLower fun c hc => (hletters c hc).1).trans h, fun c hc => (hletters c hc).2⟩

/-! ## Lines -/

/-- Trimming takes the blanks at the two ends of a line, and none behind the keyword. -/
theorem trim_written {letters : List Char} (hblank : ∀ c ∈ letters, isBlank c = false)
    (hbody : trim (directive.body layout) = directive.body layout) :
    trim (directive.written letters layout) =
      '@' :: (letters ++ layout.gap.before (directive.body layout)) := by
  have hsign : isBlank '@' = false := by decide
  refine trim_blanks_append layout.start.blank ?_ layout.stop.blank
  unfold Gap.before
  split
  next =>
    rw [List.append_nil]
    exact trim_eq_self_of_word (List.forall_mem_cons.2 ⟨hsign, hblank⟩)
  next hne =>
    have hends := trim_eq_self_of_ends (trim_eq_self_of_word (List.forall_mem_singleton.2 hsign))
      (List.cons_ne_nil _ _) hbody hne (letters ++ layout.gap.chars)
    rwa [List.append_assoc] at hends

/-- The keyword ends at the gap before the body, or with the line. -/
theorem readDirective_written {letters body : List Char} (hblank : ∀ c ∈ letters, isBlank c = false)
    (hbody : trim body = body) :
    Line.readDirective (letters ++ layout.gap.before body) =
      .directive (.ofList (lower letters)) (.ofList body) := by
  have hgap := layout.gap.head?_before body
  have hkeyword : (letters ++ layout.gap.before body).takeWhile (!isBlank ·) = letters :=
    takeWhile_word_append hblank hgap
  have hrest : (letters ++ layout.gap.before body).dropWhile (!isBlank ·) = layout.gap.before body :=
    dropWhile_word_append hblank hgap
  rw [Line.readDirective, hkeyword, hrest, layout.gap.trim_before hbody]

/-- A line with a directive that can be written is read as the directive, without a warning. -/
theorem read_written {letters : List Char} (number : Nat) (h : directive.Writable)
    (hletters : letters.map Char.toLower = directive.keyword.toList) (layout : Layout) :
    let read := Line.read number (.ofList (directive.written letters layout))
    ofLine read.1 = .ok directive ∧ read.2 = none := by
  obtain ⟨hlower, hblank⟩ := lower_letters hletters
  have hbody := trim_body layout h
  have hcontent : Line.readContent (directive.written letters layout) =
      (.directive directive.keyword (.ofList (directive.body layout)), none) := by
    unfold Line.readContent
    rw [trim_written layout hblank hbody]
    show (Line.readDirective (letters ++ layout.gap.before (directive.body layout)), none) = _
    rw [readDirective_written layout hblank hbody, hlower, String.ofList_toList]
  have hread : Line.read number (.ofList (directive.written letters layout)) =
      (⟨number, .ofList (directive.written letters layout),
        .directive directive.keyword (.ofList (directive.body layout))⟩, none) := by
    rw [Line.read, String.toList_ofList, hcontent]
    rfl
  rw [hread]
  exact ⟨read_body layout h, rfl⟩

/-- The value has quotes, an equals sign, a hash and blanks at both ends. -/
theorem read_written_sample :
    let directive := set "A B" " \"x = #1' "
    let read := Line.read 7 "\t @SeT  A B\t= \" \"x = #1' \" "
    directive.Writable ∧ "SeT".toList.map Char.toLower = directive.keyword.toList ∧
      ofLine read.1 = .ok directive ∧ read.2 = none := by
  intro directive read
  have hname : IsTrimmed "A B" ∧ '=' ∉ "A B".toList := ⟨⟨by decide, by decide⟩, by decide⟩
  have hletters : "SeT".toList.map Char.toLower = directive.keyword.toList := by decide
  have hread := read_written 7 (show directive.Writable from hname) hletters .sample
  exact ⟨hname, hletters, hread⟩

end Directive

end BatchScript
