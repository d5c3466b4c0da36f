import BatchScript.Proofs.Variables.History

/-!
# References and writes

What a text resolves to depends only on the values of the names that it refers to
(`resolveExcept_congr`), and these are identifiers. A write whose value is resolved first settles and
exports the same names as the write with its value as it is written, and an identifier that a write
does not export has the same value in the environment before and after it.
-/

namespace BatchScript

/-! ## Names of references -/

namespace Text

theorem isIdentifier_of_reference? {text rest : List Char} {name : List Char} {braced : Bool}
    (h : reference? text = some (.reference name braced, rest)) : isIdentifier name = true := by
  unfold reference? at h
  split at h
  · split at h
    · obtain ⟨hname, hpair⟩ := Option.ite_none_right_eq_some.1 h
      cases hpair
      exact hname
    · cases h
  · obtain ⟨hname, hpair⟩ := Option.ite_none_right_eq_some.1 h
    cases hpair
    exact hname

/-- A reference that is scanned names an identifier. -/
theorem isIdentifier_of_mem_parts {text name : List Char} {braced : Bool}
    (h : .reference name braced ∈ parts text) : isIdentifier name = true := by
  induction hsize : text.length using Nat.strongRecOn generalizing text with
  | ind size ih =>
  subst hsize
  cases text with
  | nil => simp [parts_nil] at h
  | cons c rest =>
    rw [parts_cons] at h
    split at h
    next part tail hpart =>
      obtain ⟨-, href⟩ := Option.ite_none_right_eq_some.1 hpart
      rcases List.mem_cons.1 h with rfl | htail
      · exact isIdentifier_of_reference? href
      · exact ih _ (Nat.lt_succ_of_le (length_of_reference? href)) htail rfl
    next =>
      rcases List.mem_cons.1 h with hchar | htail
      · cases hchar
      · exact ih _ (Nat.lt_succ_self _) htail rfl

end Text

namespace Variables

theorem validName_of_mem_references {text : List Char} {name : String}
    (h : name ∈ Text.references text) : validName name = true := by
  obtain ⟨part, hpart, hname⟩ := List.mem_filterMap.1 h
  cases part with
  | char c => cases hname
  | reference chars braced =>
    cases hname
    rw [validName, String.toList_ofList]
    exact Text.isIdentifier_of_mem_parts hpart

/-- An identifier holds no equals sign. -/
theorem not_mem_of_validName {name : String} (h : validName name = true) : '=' ∉ name.toList := by
  intro hmem
  rw [validName] at h
  cases hchars : name.toList with
  | nil => exact absurd (hchars ▸ hmem) List.not_mem_nil
  | cons c rest =>
    rw [hchars] at h hmem
    obtain ⟨hc, hrest⟩ := Bool.and_eq_true_iff.1 h
    rcases List.mem_cons.1 hmem with rfl | hmem
    · exact absurd hc (by decide)
    · exact absurd (List.all_eq_true.1 hrest _ hmem) (by decide)

/-! ## Resolving -/

/-- Texts resolve alike where the names that they refer to have the same values. -/
theorem resolveExcept_congr {vars other : Variables} {text : List Char}
    (h : ∀ name ∈ Text.references text, vars.get name "" = other.get name "")
    (kept : List String) : vars.resolveExcept kept text = other.resolveExcept kept text := by
  refine congrArg List.flatten (List.map_congr_left fun part hpart => ?_)
  cases part with
  | char c => rfl
  | reference name braced =>
    have hname : vars.get (.ofList name) "" = other.get (.ofList name) "" :=
      h _ (List.mem_filterMap.2 ⟨_, hpart, rfl⟩)
    simp only [Text.Part.expand, hname]

theorem resolveString_congr {vars other : Variables} {text : String}
    (h : ∀ name ∈ Text.references text.toList, vars.get name "" = other.get name "") :
    vars.resolveString text = other.resolveString text :=
  congrArg String.ofList (resolveExcept_congr h [])

/-! ## Writes with other values -/

/-- The write with another value. -/
def Write.mapValue (change : String → String) : Write → Write
  | .set name value => .set name (change value)
  | .exported name value => .exported name (change value)
  | .unset name => .unset name

namespace Write

theorem settles?_mapValue (change : String → String) (name : String) (write : Write) :
    (write.mapValue change).settles? name = (write.settles? name).map (Option.map change) := by
  cases write with
  | set other value | exported other value =>
    by_cases h : name = other ∧ validName name = true <;> simp [mapValue, settles?, h]
  | unset other => by_cases h : name = other <;> simp [mapValue, settles?, h]

theorem exports?_mapValue (change : String → String) (name : String) (write : Write) :
    (write.mapValue change).exports? name = (write.exports? name).map change := by
  cases write with
  | set other value | unset other => rfl
  | exported other value =>
    by_cases h : name = other ∧ validName name = true <;> simp [mapValue, exports?, h]

end Write

/-! ## The environment after a write -/

/-- An identifier keeps its value in the environment unless the write exports it. -/
theorem get?_environment_after {vars : Variables} {write : Write} {name : String}
    (hname : validName name = true) (h : write.exports? name = none) :
    (vars.after write).environment.get? name = vars.environment.get? name := by
  have hexported : (vars.after write).environment.exported.get? name =
      vars.environment.exported.get? name := by
    rw [(get?_after vars write name).2, h, Option.none_or]
  have hprocess : (vars.after write).environment.process.get? name =
      vars.environment.process.get? name := by
    cases hallowed : write.allowed with
    | false => rw [after_of_refused hallowed]
    | true =>
      cases write with
      | set other value =>
        have hother : validName other = true := hallowed
        simp [after, Write.perform, Variables.set, hother]
      | unset other => rfl
      | exported other value =>
        have hother : validName other = true := hallowed
        have hne : name ≠ other := by
          rintro rfl
          simp [Write.exports?, hname] at h
        cases hscope : vars.environment.scope <;>
          simp [after, Write.perform, setExported, Variables.set, Except.map, Environment.insert,
            hother, hscope, Bindings.get?_insert, hne]
  have hequals := not_mem_of_validName hname
  rw [Environment.get?, Environment.get?, hexported, Environment.processValue?_of_not_mem hequals,
    Environment.processValue?_of_not_mem hequals, hprocess]

end Variables

end BatchScript
