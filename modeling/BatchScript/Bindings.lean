/-!
# Bindings

A finite map from names to values, kept as pairs in strictly ascending order of the names. Names are
ordered by code point. Two maps are equal exactly when they give the same value to every name
(`Bindings.ext_get?`), so nothing but the values themselves can be told from a map.
-/

namespace BatchScript

/-- Whether the names of the pairs ascend strictly. -/
def Ascending (pairs : List (String × String)) : Prop :=
  pairs.Pairwise fun a b => a.1 < b.1

/-- A map from names to values. -/
structure Bindings where
  /-- The pairs of the map, in ascending order of the names. -/
  toList : List (String × String)
  ascending : Ascending toList

namespace Bindings

/-! ## Pairs in ascending order -/

/-- Puts a pair in its place, over the pair of the same name if there is one. -/
def insertPair (name value : String) : List (String × String) → List (String × String)
  | [] => [(name, value)]
  | (n, v) :: rest =>
    if name < n then (name, value) :: (n, v) :: rest
    else if name = n then (name, value) :: rest
    else (n, v) :: insertPair name value rest

theorem mem_insertPair {name value : String} {pairs : List (String × String)}
    {pair : String × String} (h : pair ∈ insertPair name value pairs) :
    pair = (name, value) ∨ pair ∈ pairs := by
  induction pairs with
  | nil => simpa [insertPair] using h
  | cons first rest ih =>
    obtain ⟨n, v⟩ := first
    rw [insertPair] at h
    split at h
    · simpa using h
    · split at h
      · rcases List.mem_cons.1 h with h | h
        · exact .inl h
        · exact .inr (List.mem_cons_of_mem _ h)
      · rcases List.mem_cons.1 h with h | h
        · exact .inr (h ▸ List.mem_cons_self)
        · exact (ih h).imp_right (List.mem_cons_of_mem _)

theorem ascending_insertPair {pairs : List (String × String)} (h : Ascending pairs)
    (name value : String) : Ascending (insertPair name value pairs) := by
  induction pairs with
  | nil => simp [insertPair, Ascending]
  | cons first rest ih =>
    obtain ⟨n, v⟩ := first
    obtain ⟨hfirst, hrest⟩ := List.pairwise_cons.1 h
    rw [insertPair]
    split
    next hlt =>
      refine List.pairwise_cons.2 ⟨fun pair hpair => ?_, h⟩
      rcases List.mem_cons.1 hpair with rfl | hpair
      · exact hlt
      · exact String.lt_trans hlt (hfirst pair hpair)
    next hnlt =>
      split
      next heq =>
        subst heq
        exact List.pairwise_cons.2 ⟨hfirst, hrest⟩
      next hne =>
        refine List.pairwise_cons.2 ⟨fun pair hpair => ?_, ih hrest⟩
        rcases mem_insertPair hpair with rfl | hpair
        · exact Std.lt_of_le_of_ne (String.not_lt.1 hnlt) (Ne.symm hne)
        · exact hfirst pair hpair

/-- The value of the first pair with the name. -/
def valueIn (name : String) : List (String × String) → Option String
  | [] => none
  | (n, v) :: rest => if name = n then some v else valueIn name rest

/-! ## Operations -/

/-- The map without names. -/
def empty : Bindings :=
  ⟨[], List.Pairwise.nil⟩

/-- The value of a name. -/
def get? (bindings : Bindings) (name : String) : Option String :=
  valueIn name bindings.toList

/-- Whether the map has a value for the name. -/
def contains (bindings : Bindings) (name : String) : Bool :=
  (bindings.get? name).isSome

/-- Gives a name a value. -/
def insert (bindings : Bindings) (name value : String) : Bindings :=
  ⟨insertPair name value bindings.toList, ascending_insertPair bindings.ascending name value⟩

/-- Takes a name's value away. -/
def erase (bindings : Bindings) (name : String) : Bindings :=
  ⟨bindings.toList.filter (·.1 ≠ name), bindings.ascending.filter _⟩

/-- The map that the pairs build when they are inserted in order. -/
def ofList (pairs : List (String × String)) : Bindings :=
  pairs.foldl (fun bindings (name, value) => bindings.insert name value) empty

/-- The values of `above`, and those of `below` for the names that `above` lacks. -/
def overlay (below above : Bindings) : Bindings :=
  above.toList.foldl (fun bindings (name, value) => bindings.insert name value) below

/-! ## Values after an operation -/

theorem valueIn_insertPair (pairs : List (String × String)) (name value other : String) :
    valueIn other (insertPair name value pairs) =
      if other = name then some value else valueIn other pairs := by
  induction pairs with
  | nil => rfl
  | cons first rest ih =>
    obtain ⟨n, v⟩ := first
    rw [insertPair]
    split
    · rfl
    · split
      next heq =>
        subst heq
        by_cases h : other = name <;> simp [valueIn, h]
      next hne =>
        rw [valueIn, valueIn, ih]
        by_cases h : other = n
        · rw [if_pos h, if_pos h, if_neg (h ▸ Ne.symm hne)]
        · rw [if_neg h, if_neg h]

theorem valueIn_filter_ne (pairs : List (String × String)) (name other : String) :
    valueIn other (pairs.filter (·.1 ≠ name)) =
      if other = name then none else valueIn other pairs := by
  induction pairs with
  | nil => simp [valueIn]
  | cons first rest ih =>
    obtain ⟨n, v⟩ := first
    by_cases hn : n = name
    · rw [List.filter_cons_of_neg (by simpa using hn), ih, valueIn]
      by_cases h : other = name
      · rw [if_pos h, if_pos h]
      · rw [if_neg h, if_neg h, if_neg (hn ▸ h)]
    · rw [List.filter_cons_of_pos (by simpa using hn), valueIn, valueIn, ih]
      by_cases h : other = n
      · rw [if_pos h, if_pos h, if_neg (h ▸ hn)]
      · rw [if_neg h, if_neg h]

@[simp] theorem get?_empty (name : String) : empty.get? name = none := rfl

theorem get?_insert (bindings : Bindings) (name value other : String) :
    (bindings.insert name value).get? other =
      if other = name then some value else bindings.get? other :=
  valueIn_insertPair bindings.toList name value other

theorem get?_erase (bindings : Bindings) (name other : String) :
    (bindings.erase name).get? other = if other = name then none else bindings.get? other :=
  valueIn_filter_ne bindings.toList name other

theorem valueIn_eq_some_iff {pairs : List (String × String)} (h : Ascending pairs)
    {name value : String} : valueIn name pairs = some value ↔ (name, value) ∈ pairs := by
  induction pairs with
  | nil => simp [valueIn]
  | cons first rest ih =>
    obtain ⟨n, v⟩ := first
    obtain ⟨hfirst, hrest⟩ := List.pairwise_cons.1 h
    rw [valueIn, List.mem_cons]
    by_cases hn : name = n
    · subst hn
      have hnot : (name, value) ∉ rest := fun hmem =>
        String.lt_irrefl name (hfirst (name, value) hmem)
      simp [hnot, eq_comm]
    · rw [if_neg hn, ih hrest]
      simp [hn]

/-- Inserting pairs in ascending order gives each of their names its value. -/
theorem get?_foldl_insert {pairs : List (String × String)} (h : Ascending pairs) (below : Bindings)
    (name : String) :
    (pairs.foldl (fun bindings (name, value) => bindings.insert name value) below).get? name =
      (valueIn name pairs).or (below.get? name) := by
  induction pairs generalizing below with
  | nil => rfl
  | cons first rest ih =>
    obtain ⟨n, v⟩ := first
    obtain ⟨hfirst, hrest⟩ := List.pairwise_cons.1 h
    rw [List.foldl_cons, ih hrest, get?_insert, valueIn]
    by_cases hn : name = n
    · subst hn
      -- the names after the first are greater, so the first value is not written over
      have hnone : valueIn name rest = none := Option.eq_none_iff_forall_ne_some.2 fun value hv =>
        String.lt_irrefl name (hfirst (name, value) ((valueIn_eq_some_iff hrest).1 hv))
      rw [hnone, if_pos rfl, if_pos rfl]
      rfl
    · rw [if_neg hn, if_neg hn]

@[simp] theorem overlay_empty (below : Bindings) : below.overlay empty = below := rfl

theorem get?_overlay (below above : Bindings) (name : String) :
    (below.overlay above).get? name = (above.get? name).or (below.get? name) :=
  get?_foldl_insert above.ascending below name

theorem nodup_of_ascending {pairs : List (String × String)} (h : Ascending pairs) :
    pairs.Nodup := by
  refine List.Pairwise.imp ?_ h
  intro a b hlt heq
  exact String.lt_irrefl _ (heq ▸ hlt)

theorem eq_of_mem_iff {xs ys : List (String × String)} (hx : Ascending xs) (hy : Ascending ys)
    (h : ∀ pair, pair ∈ xs ↔ pair ∈ ys) : xs = ys :=
  List.Perm.eq_of_pairwise
    (fun _ _ _ _ hab hba => absurd hba (String.lt_asymm hab)) hx hy
    ((List.perm_ext_iff_of_nodup (nodup_of_ascending hx) (nodup_of_ascending hy)).2 h)

/-- A map is determined by the values it gives. -/
theorem ext_get? {a b : Bindings} (h : ∀ name, a.get? name = b.get? name) : a = b := by
  obtain ⟨xs, hx⟩ := a
  obtain ⟨ys, hy⟩ := b
  have hxy : xs = ys := by
    refine eq_of_mem_iff hx hy fun (name, value) => ?_
    rw [← valueIn_eq_some_iff hx, ← valueIn_eq_some_iff hy]
    exact iff_of_eq (congrArg (· = some value) (h name))
  subst hxy
  rfl

theorem overlay_insert (below above : Bindings) (name value : String) :
    below.overlay (above.insert name value) = (below.overlay above).insert name value := by
  refine ext_get? fun other => ?_
  rw [get?_overlay, get?_insert, get?_insert, get?_overlay]
  split <;> rfl

end Bindings

end BatchScript
