import BatchScript.Proofs.Text.Lines
import BatchScript.Script

/-!
# Line ends of scripts

A text with a line end after each of its lines is read line by line, whether the lines end with a line
feed or with a carriage return and a line feed, and whether or not a byte-order mark stands in front.
-/

namespace BatchScript

namespace Text

/-- The two line ends. -/
def lineEnds : List String :=
  ["\n", "\r\n"]

/-- A line is read up to its line end, whatever follows. -/
theorem lines_append_lineEnd {ending : String} (hending : ending ∈ lineEnds) {line : List Char}
    (hfree : '\n' ∉ line) (hlast : line.getLast? ≠ some '\r') (back : List Char) :
    lines (line ++ (ending.toList ++ back)) = line :: lines back := by
  rcases List.mem_pair.1 hending with rfl | rfl
  · have hline : lines (line ++ ['\n']) = [line] := by
      rw [lines_newline hfree, dropReturn_eq_self hlast]
    have htext : line ++ ("\n".toList ++ back) = line ++ '\n' :: back := rfl
    rw [htext, lines_append_newline, hline, List.singleton_append]
  · have hline : lines (line ++ ['\r'] ++ ['\n']) = [line] := by
      rw [lines_newline (by simpa using hfree), dropReturn_concat]
    have htext : line ++ ("\r\n".toList ++ back) = line ++ ['\r'] ++ '\n' :: back := by simp
    rw [htext, lines_append_newline, hline, List.singleton_append]

/-- A text in which a line end follows every line has these lines. -/
theorem lines_flatMap_lineEnd {ending : String} (hending : ending ∈ lineEnds)
    {texts : List (List Char)} (h : ∀ text ∈ texts, '\n' ∉ text ∧ text.getLast? ≠ some '\r') :
    lines (texts.flatMap (· ++ ending.toList)) = texts := by
  induction texts with
  | nil => rfl
  | cons text texts ih =>
    obtain ⟨⟨hfree, hlast⟩, hrest⟩ := List.forall_mem_cons.1 h
    rw [List.flatMap_cons, List.append_assoc, lines_append_lineEnd hending hfree hlast, ih hrest]

end Text

namespace Script

/-- The script of lines that are read one by one, numbered from one on. -/
def ofTexts (texts : List String) : Script where
  lines := (texts.zipIdx 1).map fun (text, number) => (Line.read number text).1
  diagnostics := (texts.zipIdx 1).filterMap fun (text, number) => (Line.read number text).2

theorem getElem?_lines_ofTexts (texts : List String) (index : Nat) :
    (ofTexts texts).lines[index]? =
      (texts[index]?).map fun text => (Line.read (index + 1) text).1 := by
  simp [ofTexts, Nat.add_comm 1 index, Function.comp_def]

theorem readLines_eq_map_zipIdx (first : Nat) (texts : List (List Char)) :
    readLines first texts =
      (texts.zipIdx first).map fun (text, number) => Line.read number (.ofList text) := by
  induction texts generalizing first with
  | nil => rfl
  | cons text texts ih => rw [readLines, ih, List.zipIdx_cons, List.map_cons]

/-- A text is parsed by reading its lines one by one. -/
theorem ofChars_eq_ofTexts {text : List Char} {texts : List String}
    (h : Text.lines (dropMark text) = texts.map String.toList) : ofChars text = ofTexts texts := by
  have hread : readLines 1 (texts.map String.toList) =
      (texts.zipIdx 1).map fun (text, number) => Line.read number text := by
    rw [readLines_eq_map_zipIdx, List.zipIdx_map, List.map_map]
    simp [Function.comp_def]
  rw [ofChars, h, hread, ofTexts, List.map_map, List.filterMap_map]
  rfl

theorem dropMark_eq_self {text : List Char} (h : text.head? ≠ some '\ufeff') : dropMark text = text := by
  unfold dropMark
  split
  · exact absurd rfl h
  · rfl

/-- A byte-order mark is dropped, and what is no byte-order mark is not taken for one. -/
theorem dropMark_append {mark : String} (hmark : mark ∈ ["", "\ufeff"]) {text : List Char}
    (h : text.head? ≠ some '\ufeff') : dropMark (mark.toList ++ text) = text := by
  rcases List.mem_pair.1 hmark with rfl | rfl
  · exact dropMark_eq_self h
  · rfl

/-- A text begins like its first line, or with a line end. -/
theorem head?_flatMap_lineEnd {c : Char} {ending : String} (hending : ending ∈ Text.lineEnds)
    (hc : c ∉ ['\n', '\r']) {texts : List (List Char)} (h : ∀ text ∈ texts.head?, text.head? ≠ some c) :
    (texts.flatMap (· ++ ending.toList)).head? ≠ some c := by
  cases texts with
  | nil => simp
  | cons text texts =>
    have htext := h text rfl
    cases text with
    | nil => rcases List.mem_pair.1 hending with rfl | rfl <;> simp_all [eq_comm]
    | cons d text => simpa using htext

/-- The line ends of a text and a byte-order mark before it make no difference: the script has one line
for each line of the text, as the line is read by itself under its number, and reports what reading the
lines one by one does. -/
theorem parse_terminated {texts : List String}
    (htexts : ∀ text ∈ texts, '\n' ∉ text.toList ∧ text.toList.getLast? ≠ some '\r')
    (hfirst : ∀ text ∈ texts.head?, text.toList.head? ≠ some '\ufeff') :
    (∀ mark ∈ ["", "\ufeff"], ∀ ending ∈ Text.lineEnds,
        parse (mark ++ String.join (texts.map (· ++ ending))) = ofTexts texts) ∧
      (ofTexts texts).lines.length = texts.length ∧
      ∀ index text, texts[index]? = some text →
        (ofTexts texts).lines[index]? = some (Line.read (index + 1) text).1 := by
  refine ⟨fun mark hmark ending hending => ?_, by simp [ofTexts], fun index text htext => ?_⟩
  · have hjoin : (mark ++ String.join (texts.map (· ++ ending))).toList =
        mark.toList ++ (texts.map String.toList).flatMap (· ++ ending.toList) := by
      simp [List.flatMap_map]
    have hhead : ∀ text ∈ (texts.map String.toList).head?, text.head? ≠ some '\ufeff' := by
      simpa using hfirst
    refine ofChars_eq_ofTexts ?_
    rw [hjoin, dropMark_append hmark (head?_flatMap_lineEnd hending (by decide) hhead)]
    exact Text.lines_flatMap_lineEnd hending (by simpa using htexts)
  · rw [getElem?_lines_ofTexts, htext]
    rfl

/-- An empty line, a quote that is not closed, and a carriage return and a mark inside a line. -/
theorem parse_terminated_sample :
    parse "\ufeff\r\nsay \"hi\r\na\rb\r\n@set A = \ufeff1\r\n" =
        parse "\nsay \"hi\na\rb\n@set A = \ufeff1\n" ∧
      (parse "\nsay \"hi\na\rb\n@set A = \ufeff1\n").lines[3]? =
        some (Line.read 4 "@set A = \ufeff1").1 ∧
      (parse "\nsay \"hi\na\rb\n@set A = \ufeff1\n").diagnostics =
        [.warning 2 (.untokenizable "say \"hi")] := by
  obtain ⟨hparse, -, hline⟩ :=
    @parse_terminated ["", "say \"hi", "a\rb", "@set A = \ufeff1"] (by decide) (by decide)
  have hfeeds := hparse "" (by decide) "\n" (by decide)
  have hreturns := hparse "\ufeff" (by decide) "\r\n" (by decide)
  simp only [List.map_cons, List.map_nil, String.join_cons, String.join_nil] at hfeeds hreturns
  have hfeed : parse "\nsay \"hi\na\rb\n@set A = \ufeff1\n" =
      ofTexts ["", "say \"hi", "a\rb", "@set A = \ufeff1"] := hfeeds
  rw [hfeed]
  exact ⟨hreturns, hline 3 _ rfl, by decide +kernel⟩

end Script

end BatchScript
