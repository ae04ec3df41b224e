import Interlock.Settings.Tree

/-!
# Keys of laid layers

`Tree.layOver` lays a layer over a tree entry by entry, so what stands at a key is told by what the
layers write there and by nothing else.

* `get?_layEntries`: a key at the top holds what was there, with every value that the entries give
  for it laid over (`laidAll`).
* `within_layOver`: so does a key inside of a table at the top, if the layer gives nothing but
  tables for that table.
* `laidAll_of_isVoid`, `laidOver_of_not_table`: of the values laid over one another, empty tables
  change nothing, and what is no table replaces what was there.
-/

namespace Interlock.Settings

open Text

namespace Tree

/-! ## Tables -/

/-- Whether a tree is a table. -/
def isTable : Tree → Bool
  | .table _ _ => true
  | _ => false

/-- The entries of a table. -/
def entries : Tree → List (String × Tree)
  | .table _ entries => entries
  | _ => []

/-- Whether a tree is a table without entries. -/
def isVoid : Tree → Bool
  | .table _ [] => true
  | _ => false

theorem isTable_put (t : Tree) (k : String) (v : Tree) : (t.put k v).isTable = true := by
  cases t with
  | scalar | list => rfl
  | table origin entries =>
    unfold put
    dsimp only
    split <;> rfl

/-- An entry with a new value, if it is the entry of a key. -/
def revalued (k : String) (v : Tree) (e : String × Tree) : String × Tree :=
  if e.1 == k then (k, v) else e

/-- `find?` of `k` among the `revalued` entries. -/
theorem find?_revalued_self {k : String} {entries : List (String × Tree)}
    (h : entries.any (·.1 == k) = true) (v : Tree) :
    (entries.map (revalued k v)).find? (·.1 == k) = some (k, v) := by
  induction entries with
  | nil => simp at h
  | cons e entries ih =>
    rw [List.map_cons, revalued]
    by_cases hkey : e.1 = k
    · simp [hkey]
    · have hrest : entries.any (·.1 == k) = true := by simpa [hkey] using h
      rw [if_neg (by simp [hkey]), List.find?_cons_of_neg (by simp [hkey])]
      exact ih hrest

theorem find?_revalued_of_ne {k k' : String} (h : k' ≠ k) (entries : List (String × Tree))
    (v : Tree) : (entries.map (revalued k v)).find? (·.1 == k') = entries.find? (·.1 == k') := by
  induction entries with
  | nil => rfl
  | cons e entries ih =>
    rw [List.map_cons, List.find?_cons, List.find?_cons, ih, revalued]
    by_cases hkey : e.1 = k
    · have hother : (k == k') = false := beq_eq_false_iff_ne.mpr (Ne.symm h)
      simp [hkey, hother]
    · simp [hkey]

/-- `get?` after `put`. -/
theorem get?_put (t : Tree) (k k' : String) (v : Tree) :
    (t.put k v).get? k' = if k' = k then some v else t.get? k' := by
  have hsingle : ([(k, v)].find? (·.1 == k')).map (·.2) = if k' = k then some v else none := by
    by_cases h : k' = k
    · simp [h]
    · simp [Ne.symm h, h]
  cases t with
  | scalar | list => exact hsingle
  | table origin entries =>
    unfold put
    dsimp only
    split
    -- the key has an entry, which is given the value, or it gets one at the end
    case isTrue hany =>
      show ((entries.map (revalued k v)).find? (·.1 == k')).map (·.2)
        = if k' = k then some v else (entries.find? (·.1 == k')).map (·.2)
      by_cases h : k' = k
      · rw [if_pos h, h, find?_revalued_self hany]
        rfl
      · rw [if_neg h, find?_revalued_of_ne h]
    case isFalse hany =>
      show ((entries ++ [(k, v)]).find? (·.1 == k')).map (·.2)
        = if k' = k then some v else (entries.find? (·.1 == k')).map (·.2)
      rw [List.find?_append, Option.map_or, hsingle]
      by_cases h : k' = k
      · have hnone : entries.find? (·.1 == k') = none := by
          rw [List.find?_eq_none]
          intro e he hk
          exact hany (List.any_eq_true.mpr ⟨e, he, h ▸ hk⟩)
        rw [hnone, if_pos h, if_pos h]
        rfl
      · rw [if_neg h, if_neg h, Option.or_none]

/-! ## Values laid over one another -/

/-- Values laid over what stands at their key, one after the other. -/
def laidAll (below : Option Tree) (vs : List Tree) : Option Tree :=
  vs.foldl (fun below v => some (laidOver below v)) below

theorem laidAll_append (below : Option Tree) (vs ws : List Tree) :
    laidAll below (vs ++ ws) = laidAll (laidAll below vs) ws := List.foldl_append

/-- `laidAll` over something is something. -/
theorem exists_laidAll (below : Tree) (vs : List Tree) : ∃ t, laidAll (some below) vs = some t := by
  induction vs generalizing below with
  | nil => exact ⟨below, rfl⟩
  | cons v vs ih => exact ih (laidOver (some below) v)

/-- The values that entries give for a key, in any case of its letters, in their order. -/
def under (k : String) (es : List (String × Tree)) : List Tree :=
  (es.filter fun e => inSmallLetters e.1 == k).map (·.2)

/-- `get? k` after `layEntries` is `laidAll` of the values `under k`. -/
theorem get?_layEntries (below : Tree) (es : List (String × Tree)) (k : String) :
    (layEntries below es).get? k = laidAll (below.get? k) (under k es) := by
  -- the first entry is laid first, so the tree below is another one for the rest
  induction es generalizing below with
  | nil => rw [layEntries]; rfl
  | cons e es ih =>
    obtain ⟨k', v⟩ := e
    rw [layEntries, ih, get?_put]
    unfold under
    by_cases h : k = inSmallLetters k'
    · rw [if_pos h, List.filter_cons_of_pos (by simp [h]), h]
      rfl
    · rw [if_neg h, List.filter_cons_of_neg (by simpa using Ne.symm h)]

theorem isTable_layEntries {below : Tree} (es : List (String × Tree)) (h : below.isTable = true) :
    (layEntries below es).isTable = true := by
  induction es generalizing below with
  | nil => rwa [layEntries]
  | cons e es ih =>
    rw [layEntries]
    exact ih (isTable_put _ _ _)

/-! ## Keys inside of tables -/

/-- What stands at a key inside of what stands at a key at the top. -/
def within (t : Tree) (outer inner : String) : Option Tree :=
  (t.get? outer).bind fun s => s.get? inner

/-- The entries of a layer, with the paths among its keys followed. -/
def tops (layer : List (String × Tree)) : List (String × Tree) :=
  layer.map fun e => entryAt e.1 e.2

/-- The values that a layer gives for a key inside of a table at the top, in their order. -/
def writings (layer : List (String × Tree)) (outer inner : String) : List Tree :=
  (under outer (tops layer)).flatMap fun t => under inner t.entries

/-- `get? k` of tables laid over one another is `laidAll` of their values `under k`. -/
theorem get?_laidAll (below : Option Tree) {ts : List Tree} (h : ∀ t ∈ ts, t.isTable = true)
    (k : String) : (laidAll below ts).bind (fun s => s.get? k)
      = laidAll (below.bind fun s => s.get? k) (ts.flatMap fun t => under k t.entries) := by
  induction ts generalizing below with
  | nil => rfl
  | cons t ts ih =>
    rw [List.forall_mem_cons] at h
    have hstep : (laidOver below t).get? k
        = laidAll (below.bind fun s => s.get? k) (under k t.entries) := by
      cases t with
      | scalar | list => cases h.1
      | table origin entries =>
        rw [laidOver, get?_layEntries]
        cases below <;> rfl
    show (laidAll (some (laidOver below t)) ts).bind _ = _
    rw [ih _ h.2, List.flatMap_cons, laidAll_append]
    exact congrArg (laidAll · _) hstep

theorem isTable_laidAll {below : Tree} {ts : List Tree} (hbelow : below.isTable = true)
    (h : ∀ t ∈ ts, t.isTable = true) :
    ∃ s, laidAll (some below) ts = some s ∧ s.isTable = true := by
  induction ts generalizing below with
  | nil => exact ⟨below, rfl, hbelow⟩
  | cons t ts ih =>
    rw [List.forall_mem_cons] at h
    have hstep : (laidOver (some below) t).isTable = true := by
      cases t with
      | scalar | list => cases h.1
      | table origin entries =>
        rw [laidOver]
        exact isTable_layEntries entries hbelow
    exact ih hstep h.2

/-- There is a table at the key `outer` at the top. -/
def HasTable (t : Tree) (outer : String) : Prop :=
  ∃ s, t.get? outer = some s ∧ s.isTable = true

/-- `HasTable` is kept by a layer that gives only tables for the key. -/
theorem HasTable.layOver {t : Tree} {outer : String} {layer : List (String × Tree)}
    (ht : t.HasTable outer) (h : ∀ v ∈ under outer (tops layer), v.isTable = true) :
    (t.layOver layer).HasTable outer := by
  obtain ⟨s, hs, hstable⟩ := ht
  unfold HasTable
  rw [show t.layOver layer = layEntries t (tops layer) from rfl, get?_layEntries, hs]
  exact isTable_laidAll hstable h

/-- `within` after `layOver` is `laidAll` of the `writings`. -/
theorem within_layOver (t : Tree) {layer : List (String × Tree)} {outer : String}
    (h : ∀ v ∈ under outer (tops layer), v.isTable = true) (inner : String) :
    (t.layOver layer).within outer inner
      = laidAll (t.within outer inner) (writings layer outer inner) := by
  unfold within
  rw [show t.layOver layer = layEntries t (tops layer) from rfl, get?_layEntries]
  exact get?_laidAll _ h inner

/-! ## Values that stay -/

/-- An empty table changes nothing where there is something. -/
theorem laidOver_of_isVoid {v : Tree} (below : Tree) (h : v.isVoid = true) :
    laidOver (some below) v = below := by
  cases v with
  | scalar | list => cases h
  | table origin entries =>
    cases entries with
    | nil => rw [laidOver, layEntries]; rfl
    | cons => cases h

theorem laidAll_of_isVoid {vs : List Tree} (below : Tree) (h : ∀ v ∈ vs, v.isVoid = true) :
    laidAll (some below) vs = some below := by
  induction vs with
  | nil => rfl
  | cons v vs ih =>
    rw [List.forall_mem_cons] at h
    show laidAll (some (laidOver (some below) v)) vs = _
    rw [laidOver_of_isVoid below h.1]
    exact ih h.2

/-- What is no table replaces what was there. -/
theorem laidOver_of_not_table {v : Tree} (below : Option Tree) (h : v.isTable = false) :
    laidOver below v = v := by
  cases v with
  | scalar | list => rw [laidOver]; simp
  | table => cases h

theorem isTable_laidOver {v : Tree} (below : Option Tree) (htable : v.isTable = true)
    (hvoid : v.isVoid = false) : (laidOver below v).isTable = true := by
  cases v with
  | scalar | list => cases htable
  | table origin entries =>
    cases entries with
    | nil => cases hvoid
    | cons e entries =>
      rw [laidOver, layEntries]
      exact isTable_layEntries entries (isTable_put _ _ _)

end Tree

end Interlock.Settings
