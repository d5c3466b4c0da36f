import BatchScript.Proofs.Block.Nesting
import BatchScript.Proofs.Line.Endings

/-!
# The block grammar

The scripts that the validator accepts are those that a context-free grammar derives: a body is a
sequence of plain lines, simple directives and blocks, and a block holds bodies between its opener,
its markers and its terminator. A derivation carries the number of blocks that may be nested in one
another. It looks at keywords alone; that every directive can be read is a condition of its own.

The main statement says that checking a parsed script reports no error exactly when every directive
line reads as a directive and the grammar derives the lines.
-/

namespace BatchScript

/-- The symbols of the grammar: a body, a block, the `@elif` parts of a conditional, and a part that
may be missing. -/
inductive Symbol where
  | body
  | block
  | elifs
  | optional (branch : Branch)

/-- The lines that a symbol derives, with blocks nested at most `depth` deep. -/
inductive Derives : Symbol → Nat → List Line → Prop where
  | empty {depth : Nat} : Derives .body depth []
  | text {depth : Nat} {line : Line} {rest : List Line} (plain : line.keyword? = none)
      (hrest : Derives .body depth rest) : Derives .body depth (line :: rest)
  | simple {depth : Nat} {line : Line} {rest : List Line} {keyword : String}
      (hline : line.keyword? = some keyword)
      (hkeyword : keyword ∈ ["set", "unset", "echo", "export", "onerror"])
      (hrest : Derives .body depth rest) : Derives .body depth (line :: rest)
  | nested {depth : Nat} {first rest : List Line} (hfirst : Derives .block depth first)
      (hrest : Derives .body depth rest) : Derives .body depth (first ++ rest)
  | conditional {depth : Nat} {opener closer : Line} {body elifs otherwise : List Line}
      (hopener : opener.keyword? = some "if") (hbody : Derives .body depth body)
      (helifs : Derives .elifs depth elifs)
      (hotherwise : Derives (.optional .otherwise) depth otherwise)
      (hcloser : closer.keyword? = some "endif") :
      Derives .block (depth + 1) (opener :: (body ++ elifs ++ otherwise ++ [closer]))
  | foreach {depth : Nat} {opener closer : Line} {body : List Line}
      (hopener : opener.keyword? = some "foreach") (hbody : Derives .body depth body)
      (hcloser : closer.keyword? = some "endforeach") :
      Derives .block (depth + 1) (opener :: (body ++ [closer]))
  | loop {depth : Nat} {opener closer : Line} {body : List Line}
      (hopener : opener.keyword? = some "while") (hbody : Derives .body depth body)
      (hcloser : closer.keyword? = some "endwhile") :
      Derives .block (depth + 1) (opener :: (body ++ [closer]))
  | attempt {depth : Nat} {opener closer : Line} {body handler cleanup : List Line}
      (hopener : opener.keyword? = some "try") (hbody : Derives .body depth body)
      (hhandler : Derives (.optional .catch) depth handler)
      (hcleanup : Derives (.optional .finally) depth cleanup)
      (hcloser : closer.keyword? = some "endtry") :
      Derives .block (depth + 1) (opener :: (body ++ handler ++ cleanup ++ [closer]))
  | noElif {depth : Nat} : Derives .elifs depth []
  | elif {depth : Nat} {marker : Line} {body others : List Line}
      (hmarker : marker.keyword? = some "elif") (hbody : Derives .body depth body)
      (hothers : Derives .elifs depth others) : Derives .elifs depth (marker :: (body ++ others))
  | absent {depth : Nat} {branch : Branch} : Derives (.optional branch) depth []
  | present {depth : Nat} {branch : Branch} {marker : Line} {body : List Line}
      (hmarker : marker.keyword? = some branch.keyword) (hbody : Derives .body depth body) :
      Derives (.optional branch) depth (marker :: body)

/-! ## Trees are derived -/

namespace LineOf

variable {directive : Directive} (line : LineOf directive)

theorem keyword?_of_opens {kind : BlockKind} (h : directive.role = .opens kind) :
    line.line.keyword? = some kind.opener := by
  obtain ⟨keyword, hkeyword⟩ := Directive.keyword?_of_ofLine line.reads
  have hrole := (Line.role_of_keyword? hkeyword).symm.trans (Directive.role_of_ofLine line.reads)
  rw [hkeyword, Role.ofKeyword_eq_opens_iff.1 (hrole.trans h)]

theorem keyword?_of_divides {branch : Branch} (h : directive.role = .divides branch) :
    line.line.keyword? = some branch.keyword := by
  obtain ⟨keyword, hkeyword⟩ := Directive.keyword?_of_ofLine line.reads
  have hrole := (Line.role_of_keyword? hkeyword).symm.trans (Directive.role_of_ofLine line.reads)
  rw [hkeyword, Role.ofKeyword_eq_divides_iff.1 (hrole.trans h)]

theorem keyword?_of_closes {kind : BlockKind} (h : directive.role = .closes kind) :
    line.line.keyword? = some kind.terminator := by
  obtain ⟨keyword, hkeyword⟩ := Directive.keyword?_of_ofLine line.reads
  have hrole := (Line.role_of_keyword? hkeyword).symm.trans (Directive.role_of_ofLine line.reads)
  rw [hkeyword, Role.ofKeyword_eq_closes_iff.1 (hrole.trans h)]

end LineOf

mutual

theorem Node.derives {depth : Nat} (node : Node) (h : node.height ≤ depth) {rest : List Line}
    (hrest : Derives .body depth rest) : Derives .body depth (node.lines ++ rest) := by
  cases node with
  | text line plain => exact .text plain hrest
  | simple line plain =>
    obtain ⟨keyword, hmem, hkeyword⟩ := Directive.exists_mem_simpleKeywords line.reads plain
    exact .simple hkeyword hmem hrest
  | conditional opener body elifs otherwise closer =>
    obtain ⟨depth, rfl, hheight⟩ := exists_depth_of_succ_le h
    obtain ⟨hbody, hparts⟩ := Nat.max_le.1 hheight
    obtain ⟨helifs, hotherwise⟩ := Nat.max_le.1 hparts
    have hblock := Derives.conditional (opener.keyword?_of_opens rfl) (body.derives hbody)
      (elifs.derives helifs) (otherwise.derives hotherwise) (closer.keyword?_of_closes rfl)
    rw [Node.lines, Cut.partLines_append, ← List.append_assoc body.lines]
    exact .nested hblock hrest
  | foreach opener body closer =>
    obtain ⟨depth, rfl, hheight⟩ := exists_depth_of_succ_le h
    exact .nested (.foreach (opener.keyword?_of_opens rfl)
      (body.derives hheight) (closer.keyword?_of_closes rfl)) hrest
  | loop opener body closer =>
    obtain ⟨depth, rfl, hheight⟩ := exists_depth_of_succ_le h
    exact .nested (.loop (opener.keyword?_of_opens rfl)
      (body.derives hheight) (closer.keyword?_of_closes rfl)) hrest
  | attempt opener body handler cleanup closer =>
    obtain ⟨depth, rfl, hheight⟩ := exists_depth_of_succ_le h
    obtain ⟨hbody, hparts⟩ := Nat.max_le.1 hheight
    obtain ⟨hhandler, hcleanup⟩ := Nat.max_le.1 hparts
    have hblock := Derives.attempt (opener.keyword?_of_opens rfl) (body.derives hbody)
      (handler.derives hhandler) (cleanup.derives hcleanup) (closer.keyword?_of_closes rfl)
    rw [Node.lines, Cut.partLines_append, ← List.append_assoc body.lines]
    exact .nested hblock hrest

theorem Tree.derives {depth : Nat} (tree : Tree) (h : tree.height ≤ depth) :
    Derives .body depth tree.lines := by
  cases tree with
  | nil => exact .empty
  | cons node rest =>
    obtain ⟨hnode, hrest⟩ := Nat.max_le.1 h
    exact node.derives hnode (rest.derives hrest)

theorem Elifs.derives {depth : Nat} (elifs : Elifs) (h : elifs.height ≤ depth) :
    Derives .elifs depth (Cut.partLines elifs.parts) := by
  cases elifs with
  | nil => exact .noElif
  | cons marker body others =>
    obtain ⟨hbody, hothers⟩ := Nat.max_le.1 h
    exact .elif (marker.keyword?_of_divides rfl) (body.derives hbody) (others.derives hothers)

theorem Clause.derives {depth : Nat} {marker : Marker} (clause : Clause marker)
    (h : clause.height ≤ depth) :
    Derives (.optional marker.branch) depth (Cut.partLines clause.parts) := by
  cases clause with
  | absent => exact .absent
  | present line body =>
    rw [Clause.parts, Cut.partLines_cons, Cut.partLines_nil, List.append_nil]
    exact .present (line.keyword?_of_divides rfl) (body.derives h)

end

/-! ## Derived lines are accepted -/

namespace Validation

/-- The lines of a symbol may stand before lines that are accepted. The parts of a block may stand
where the markers that the block has had allow them; the block has then had at most one marker
more, or some more `@elif` lines. -/
def Passes (limits : Limits) : Symbol → Nat → List Line → Prop
  | .body, depth, lines | .block, depth, lines =>
    ∀ blocks rest, blocks.length + depth ≤ limits.maxNestingDepth →
      Accepts limits blocks rest → Accepts limits blocks (lines ++ rest)
  | .elifs, depth, lines =>
    ∀ number seen outer rest, outer.length + 1 + depth ≤ limits.maxNestingDepth →
      .otherwise ∉ seen →
      (∀ after, .otherwise ∉ after → Accepts limits (⟨.conditional, number, after⟩ :: outer) rest) →
      Accepts limits (⟨.conditional, number, seen⟩ :: outer) (lines ++ rest)
  | .optional branch, depth, lines =>
    ∀ number seen outer rest, outer.length + 1 + depth ≤ limits.maxNestingDepth →
      markerFault? seen branch = none →
      (∀ after, after = seen ∨ after = branch :: seen →
        Accepts limits (⟨branch.kind, number, after⟩ :: outer) rest) →
      Accepts limits (⟨branch.kind, number, seen⟩ :: outer) (lines ++ rest)

theorem accepts_cons {limits : Limits} {line : Line} {blocks next : List OpenBlock}
    {rest : List Line} (hline : Advance limits line blocks next)
    (hrest : Accepts limits next rest) : Accepts limits blocks (line :: rest) :=
  accepts_cons_iff.2 ⟨next, hline, hrest⟩

/-- Every symbol's lines pass, if they are readable. -/
theorem passes_of_derives {limits : Limits} {symbol : Symbol} {depth : Nat} {lines : List Line}
    (h : Derives symbol depth lines) (readable : Readable lines) :
    Passes limits symbol depth lines := by
  induction h with
  | empty => exact fun blocks rest _ hrest => hrest
  | text plain _ ih =>
    intro blocks rest hroom hrest
    exact accepts_cons (.text plain) (ih (readable_cons.1 readable).2 blocks rest hroom hrest)
  | simple hline hkeyword _ ih =>
    intro blocks rest hroom hrest
    obtain ⟨hread, readable⟩ := readable_cons.1 readable
    exact accepts_cons (advance_simple hline hread hkeyword) (ih readable blocks rest hroom hrest)
  | nested _ _ ihfirst ihrest =>
    intro blocks rest hroom hrest
    obtain ⟨hfirst, hbody⟩ := readable_append.1 readable
    rw [List.append_assoc]
    exact ihfirst hfirst blocks _ hroom (ihrest hbody blocks rest hroom hrest)
  | conditional hopener _ _ _ hcloser ihbody ihelifs ihotherwise =>
    intro blocks rest hroom hrest
    obtain ⟨hread, readable⟩ := readable_cons.1 readable
    simp only [readable_append] at readable
    obtain ⟨⟨⟨hbody, helifs⟩, hotherwise⟩, hread'⟩ := readable
    simp only [List.cons_append, List.append_assoc]
    refine accepts_cons (advance_opens hopener hread .conditional rfl (by omega)) ?_
    refine ihbody hbody _ _ (by rw [List.length_cons]; omega) ?_
    refine ihelifs helifs _ _ _ _ (by omega) List.not_mem_nil fun seen hseen => ?_
    refine ihotherwise hotherwise _ _ _ _ (by omega) (by simpa [markerFault?] using hseen) ?_
    intro after _
    exact accepts_cons (advance_closes hcloser (readable_cons.1 hread').1 .conditional rfl)
      hrest
  | foreach hopener _ hcloser ihbody =>
    intro blocks rest hroom hrest
    obtain ⟨hread, readable⟩ := readable_cons.1 readable
    obtain ⟨hbody, hread'⟩ := readable_append.1 readable
    simp only [List.cons_append, List.append_assoc]
    refine accepts_cons (advance_opens hopener hread .foreach rfl (by omega)) ?_
    refine ihbody hbody _ _ (by rw [List.length_cons]; omega) ?_
    exact accepts_cons (advance_closes hcloser (readable_cons.1 hread').1 .foreach rfl)
      hrest
  | loop hopener _ hcloser ihbody =>
    intro blocks rest hroom hrest
    obtain ⟨hread, readable⟩ := readable_cons.1 readable
    obtain ⟨hbody, hread'⟩ := readable_append.1 readable
    simp only [List.cons_append, List.append_assoc]
    refine accepts_cons (advance_opens hopener hread .loop rfl (by omega)) ?_
    refine ihbody hbody _ _ (by rw [List.length_cons]; omega) ?_
    exact accepts_cons (advance_closes hcloser (readable_cons.1 hread').1 .loop rfl)
      hrest
  | attempt hopener _ _ _ hcloser ihbody ihhandler ihcleanup =>
    intro blocks rest hroom hrest
    obtain ⟨hread, readable⟩ := readable_cons.1 readable
    simp only [readable_append] at readable
    obtain ⟨⟨⟨hbody, hhandler⟩, hcleanup⟩, hread'⟩ := readable
    simp only [List.cons_append, List.append_assoc]
    refine accepts_cons (advance_opens hopener hread .attempt rfl (by omega)) ?_
    refine ihbody hbody _ _ (by rw [List.length_cons]; omega) ?_
    refine ihhandler hhandler _ _ _ _ (by omega) rfl fun seen hseen => ?_
    refine ihcleanup hcleanup _ _ _ _ (by omega) (by rcases hseen with rfl | rfl <;> rfl) ?_
    intro after _
    exact accepts_cons (advance_closes hcloser (readable_cons.1 hread').1 .attempt rfl)
      hrest
  -- What follows the `@elif` parts must accept whatever markers they leave behind.
  | noElif => exact fun number seen outer rest _ hseen hrest => hrest seen hseen
  | elif hmarker _ _ ihbody ihothers =>
    intro number seen outer rest hroom hseen hrest
    obtain ⟨hread, readable⟩ := readable_cons.1 readable
    obtain ⟨hbody, hothers⟩ := readable_append.1 readable
    simp only [List.cons_append, List.append_assoc]
    have free : markerFault? seen .elif = none := by simpa [markerFault?] using hseen
    refine accepts_cons (advance_divides hmarker hread .elif rfl free) ?_
    refine ihbody hbody _ _ (by rw [List.length_cons]; omega) ?_
    exact ihothers hothers _ _ _ _ hroom (by simpa using hseen) hrest
  | absent => exact fun number seen outer rest _ _ hrest => hrest seen (.inl rfl)
  | present hmarker _ ihbody =>
    intro number seen outer rest hroom free hrest
    obtain ⟨hread, hbody⟩ := readable_cons.1 readable
    refine accepts_cons (advance_divides hmarker hread _ rfl free) ?_
    exact ihbody hbody _ _ (by rw [List.length_cons]; omega) (hrest _ (.inr rfl))

/-- Lines are accepted exactly when they are readable and the grammar derives them. -/
theorem accepts_iff_derives {limits : Limits} {lines : List Line} :
    Accepts limits [] lines ↔ Readable lines ∧ Derives .body limits.maxNestingDepth lines := by
  constructor
  · intro h
    obtain ⟨tree, htree, hheight⟩ := exists_ofLines? h
    refine ⟨readable_of_accepts h, ?_⟩
    rw [← Tree.lines_of_ofLines? htree]
    exact tree.derives hheight
  · rintro ⟨readable, h⟩
    have hpasses : Passes limits .body _ lines := passes_of_derives h readable
    simpa using hpasses [] [] (Nat.le_of_eq (Nat.zero_add _)) (accepts_nil_iff.2 rfl)

end Validation

/-! ## Parsed scripts -/

theorem Script.exists_of_mem_readLines {first : Nat} {texts : List (List Char)}
    {result : Line × Option Diagnostic} (h : result ∈ readLines first texts) :
    ∃ number raw, Line.read number raw = result := by
  rw [readLines_eq_map_zipIdx] at h
  obtain ⟨⟨raw, number⟩, -, rfl⟩ := List.mem_map.1 h
  exact ⟨number, .ofList raw, rfl⟩

/-- Reading a script reports no error. -/
theorem Script.clean_diagnostics_parse (text : String) :
    Validation.Clean (Script.parse text).diagnostics := by
  intro diagnostic hmem
  obtain ⟨⟨line, report⟩, hread, rfl⟩ := List.mem_filterMap.1 hmem
  obtain ⟨number, raw, hline⟩ := exists_of_mem_readLines hread
  obtain ⟨fault, -, rfl⟩ := Option.map_eq_some_iff.1 (congrArg Prod.snd hline)
  exact Severity.noConfusion

/-- Checking a parsed script reports no error exactly when every directive line can be read and the
block grammar derives the lines, with no more blocks nested in one another than allowed. -/
theorem Script.clean_validate_iff (text : String) (limits : Limits) :
    Validation.Clean ((Script.parse text).validate limits) ↔
      Readable (Script.parse text).lines ∧
        Derives .body limits.maxNestingDepth (Script.parse text).lines := by
  have hsorted : Validation.Clean ((Script.parse text).validate limits) ↔
      Validation.Clean ((Script.parse text).diagnostics ++
        Validation.checkLines limits [] (Script.parse text).lines) :=
    forall_congr' fun diagnostic => imp_congr_left List.mem_mergeSort
  rw [hsorted, Validation.clean_append, ← Validation.accepts_iff_derives]
  exact and_iff_right (clean_diagnostics_parse text)

end BatchScript
