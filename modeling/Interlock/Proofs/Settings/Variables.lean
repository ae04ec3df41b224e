import Interlock.Proofs.Settings.Keys

/-!
# Layers of variables

The variables of the environment make two layers: one of those named `Key.variableName`, in any case
of letters, and one of the variable for the address alone.

* `writes_variables`: each variable of a key writes at that key and at no other.
* `writes_address`: the variable for the address writes at `.baseUrl`, unless it is blank.
-/

namespace Interlock.Settings

open Text Interlock.Settings.Tree

/-! ## Variables named after keys -/

/-- The name of a variable that holds a setting. -/
def IsMarked (name : String) : Prop := variableMark.toList <+: (inSmallLetters name).toList

instance (name : String) : Decidable (IsMarked name) :=
  inferInstanceAs (Decidable (_ <+: _))

/-- The variables with `IsMarked` are those of keys. -/
def Known (x : Surroundings) : Prop :=
  ∀ v ∈ x.vars, IsMarked v.1 → ∃ k : Key, inSmallLetters v.1 = k.variableName

/-- What the variables write at a key. -/
def variableWrites (x : Surroundings) (k : Key) : List Tree :=
  (x.vars.filter fun v => inSmallLetters v.1 == k.variableName).map fun v =>
    .scalar (some variableOrigin) (variableValue v.2)

/-- `IsMarked` holds of every `variableName`. -/
theorem isMarked_variableName {name : String} {k : Key} (h : inSmallLetters name = k.variableName) :
    IsMarked name := by
  unfold IsMarked
  rw [h]
  cases k <;> decide +kernel

/-- `variableEntry?` of a `variableName` is an entry at `Key.path`. -/
theorem variableEntry?_of_name {v : String × String} {k : Key}
    (h : inSmallLetters v.1 = k.variableName) :
    variableEntry? v = some (k.path, .scalar (some variableOrigin) (variableValue v.2)) := by
  have hmark : (k.variableName.toList.take variableMark.toList.length) = variableMark.toList := by
    cases k <;> decide +kernel
  have hpath : String.ofList (pointed (k.variableName.toList.drop variableMark.toList.length))
      = k.path := by
    cases k <;> decide +kernel
  unfold variableEntry?
  dsimp only
  rw [h, if_pos hmark, hpath]

theorem variableEntry?_of_not_marked {v : String × String} (h : ¬ IsMarked v.1) :
    variableEntry? v = none := by
  unfold variableEntry?
  dsimp only
  rw [if_neg]
  intro hmark
  exact h (List.prefix_iff_eq_take.mpr hmark.symm)

/-- The layer of variables writes `variableWrites`. -/
theorem writes_variables {vars : List (String × String)}
    (h : ∀ v ∈ vars, IsMarked v.1 → ∃ k : Key, inSmallLetters v.1 = k.variableName) (k : Key) :
    writes k (vars.filterMap variableEntry?)
      = (vars.filter fun v => inSmallLetters v.1 == k.variableName).map fun v =>
          .scalar (some variableOrigin) (variableValue v.2) := by
  induction vars with
  | nil => rfl
  | cons v vars ih =>
    rw [List.forall_mem_cons] at h
    by_cases hmarked : IsMarked v.1
    · obtain ⟨k', hk'⟩ := h.1 hmarked
      have hapart : k'.variableName = k.variableName ↔ k' = k := by
        cases k' <;> cases k <;> decide +kernel
      rw [List.filterMap_cons_some (variableEntry?_of_name hk'), writes_cons, writes_path, ih h.2,
        List.filter_cons, hk']
      by_cases hkey : k' = k
      · rw [if_pos hkey, if_pos (beq_iff_eq.mpr (hapart.mpr hkey))]
        rfl
      · rw [if_neg hkey, if_neg (by simpa [hapart] using hkey)]
        rfl
    · have hother : inSmallLetters v.1 ≠ k.variableName := fun hname =>
        hmarked (isMarked_variableName hname)
      rw [List.filterMap_cons_none (variableEntry?_of_not_marked hmarked), ih h.2,
        List.filter_cons_of_neg (by simpa using hother)]

/-- The layer of `Known` variables is `Sectioned`. -/
theorem sectioned_variables {x : Surroundings} (h : Known x) :
    Sectioned (x.vars.filterMap variableEntry?) := by
  apply sectioned_of_paths
  intro e he
  obtain ⟨v, hv, hentry⟩ := List.mem_filterMap.mp he
  by_cases hmarked : IsMarked v.1
  · obtain ⟨k, hk⟩ := h v hv hmarked
    rw [variableEntry?_of_name hk] at hentry
    cases hentry
    exact ⟨k, rfl⟩
  · rw [variableEntry?_of_not_marked hmarked] at hentry
    cases hentry

/-! ## The variable for the address -/

/-- What the variable for the address alone writes at a key, unless it is blank. -/
def addressWrites (x : Surroundings) : Key → List Tree
  | .baseUrl =>
    (((x.valueOf addressVariable).map trim).filter (· ≠ "")).toList.map fun s =>
      .scalar none (.text s)
  | _ => []

/-- The layer of the variable for the address alone. -/
def addressLayer (x : Surroundings) : Layer :=
  (addressWrites x .baseUrl).map fun t => ("api.base_url", t)

theorem path_baseUrl : Key.path .baseUrl = "api.base_url" := by decide +kernel

theorem sectioned_address (x : Surroundings) : Sectioned (addressLayer x) := by
  apply sectioned_of_paths
  intro e he
  obtain ⟨t, -, rfl⟩ := List.mem_map.mp he
  exact ⟨.baseUrl, path_baseUrl.symm⟩

/-- `addressLayer` writes `addressWrites`. -/
theorem writes_address (x : Surroundings) (k : Key) :
    writes k (addressLayer x) = addressWrites x k := by
  have hlist : ∀ ts : List Tree,
      writes k (ts.map fun t => ("api.base_url", t)) = if Key.baseUrl = k then ts else [] := by
    intro ts
    induction ts with
    | nil => split <;> rfl
    | cons t ts ih =>
      rw [List.map_cons, writes_cons, ih, ← path_baseUrl, writes_path]
      split <;> rfl
  unfold addressLayer
  rw [hlist]
  cases k <;> rfl

end Interlock.Settings
