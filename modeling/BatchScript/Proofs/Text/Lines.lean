import BatchScript.Proofs.Text.Blanks

/-!
# Lines of texts

A line feed ends a line whatever follows it, so a text in which every piece is ended by one has the lines
of its pieces, one after the other (`lines_flatMap_newline`). A piece without a line feed is one line, and
what stands before a piece stands before the first of its lines only (`exists_lines_append`).
-/

namespace BatchScript.Text

/-! ## Pieces between line feeds -/

theorem not_cut_of_mem_pieces {cut : Char → Bool} {text piece : List Char}
    (h : piece ∈ pieces cut text) : ∀ c ∈ piece, cut c = false := by
  induction text generalizing piece with
  | nil => simp_all [pieces]
  | cons c rest ih =>
    rw [pieces] at h
    split at h
    next =>
      rcases List.mem_cons.1 h with rfl | h
      · exact fun c hc => absurd hc List.not_mem_nil
      · exact ih h
    next hc =>
      obtain ⟨first, others, hpieces⟩ := List.exists_cons_of_ne_nil (pieces_ne_nil cut rest)
      rw [hpieces] at h ih
      rcases List.mem_cons.1 h with rfl | h
      · exact List.forall_mem_cons.2 ⟨by simpa using hc, ih List.mem_cons_self⟩
      · exact ih (List.mem_cons_of_mem _ h)

/-! ## Line ends -/

theorem dropReturn_eq_self {line : List Char} (h : line.getLast? ≠ some '\r') :
    dropReturn line = line :=
  if_neg h

theorem dropReturn_concat (line : List Char) : dropReturn (line ++ ['\r']) = line := by
  simp [dropReturn]

theorem dropReturn_prefix (line : List Char) : dropReturn line <+: line := by
  rw [dropReturn]
  split
  · exact List.dropLast_prefix line
  · exact List.prefix_refl line

/-! ## Lines -/

theorem linesOfPieces_append (front : List (List Char)) {back : List (List Char)} (h : back ≠ []) :
    linesOfPieces (front ++ back) = front.map dropReturn ++ linesOfPieces back := by
  induction front with
  | nil => rfl
  | cons line front ih =>
    obtain ⟨next, rest, hrest⟩ := List.exists_cons_of_ne_nil (List.append_ne_nil_of_right_ne_nil front h)
    rw [List.cons_append, hrest, linesOfPieces, ← hrest, ih, List.map_cons, List.cons_append]
    simp

theorem lines_append_newline_eq (front back : List Char) :
    lines (front ++ '\n' :: back) = (pieces (· == '\n') front).map dropReturn ++ lines back := by
  rw [lines, pieces_append_of_cut (by simp), linesOfPieces_append _ (pieces_ne_nil _ _), lines]

theorem lines_newline_eq (text : List Char) :
    lines (text ++ ['\n']) = (pieces (· == '\n') text).map dropReturn := by
  rw [lines_append_newline_eq]
  exact List.append_nil _

/-- A line feed ends a line, whatever follows it. -/
theorem lines_append_newline (front back : List Char) :
    lines (front ++ '\n' :: back) = lines (front ++ ['\n']) ++ lines back := by
  rw [lines_append_newline_eq, lines_newline_eq]

/-- A text without a line feed is one line when a line feed follows it. -/
theorem lines_newline {line : List Char} (h : '\n' ∉ line) :
    lines (line ++ ['\n']) = [dropReturn line] := by
  rw [lines_newline_eq, pieces_eq_singleton fun c hc => by simpa using ne_of_mem_of_not_mem hc h]
  rfl

/-- Texts that are each ended by a line feed have their lines one after the other. -/
theorem lines_flatMap_newline (texts : List (List Char)) :
    lines (texts.flatMap (· ++ ['\n'])) = texts.flatMap fun text => lines (text ++ ['\n']) := by
  induction texts with
  | nil => rfl
  | cons text texts ih =>
    rw [List.flatMap_cons, List.flatMap_cons, List.append_assoc, List.singleton_append,
      lines_append_newline, ih]

/-- What stands before a text stands before its first line only. -/
theorem exists_lines_append {front : List Char} (h : '\n' ∉ front) (text : List Char) :
    ∃ back, lines (front ++ text ++ ['\n']) =
      dropReturn (front ++ back) :: (lines (text ++ ['\n'])).tail := by
  obtain ⟨first, rest, hpieces⟩ := List.exists_cons_of_ne_nil (pieces_ne_nil (· == '\n') text)
  have hfront : pieces (· == '\n') (front ++ text) = (front ++ first) :: rest := by
    induction front with
    | nil => exact hpieces
    | cons c front ih =>
      obtain ⟨hc, hfront⟩ := not_or.1 (List.mem_cons.not.1 h)
      rw [List.cons_append, pieces, ih hfront]
      simp [pushFirst, Ne.symm hc]
  exact ⟨first, by rw [lines_newline_eq, lines_newline_eq, hfront, hpieces]; rfl⟩

theorem exists_piece_of_mem_linesOfPieces {rows : List (List Char)} {line : List Char}
    (h : line ∈ linesOfPieces rows) : ∃ piece ∈ rows, line <+: piece := by
  fun_induction linesOfPieces rows with
  | case1 => contradiction
  | case2 => contradiction
  | case3 last => exact ⟨last, List.mem_singleton_self last, List.mem_singleton.1 h ▸ List.prefix_refl last⟩
  | case4 first rest hrest ih =>
    rcases List.mem_cons.1 h with rfl | h
    · exact ⟨first, List.mem_cons_self, dropReturn_prefix first⟩
    · obtain ⟨piece, hpiece, hstart⟩ := ih h
      exact ⟨piece, List.mem_cons_of_mem _ hpiece, hstart⟩

/-- No line feed stands in a line. -/
theorem newline_not_mem_of_mem_lines {text line : List Char} (h : line ∈ lines text) :
    '\n' ∉ line := by
  obtain ⟨piece, hpiece, hstart⟩ := exists_piece_of_mem_linesOfPieces h
  intro hmem
  simpa using not_cut_of_mem_pieces hpiece _ (hstart.mem hmem)

end BatchScript.Text
