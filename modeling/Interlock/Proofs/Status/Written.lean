import Interlock.Proofs.Number.Visible
import Interlock.Proofs.Text.Strip
import Interlock.Status.Reported

/-!
# Reading what was written

`Reported.toJson` writes `notAvailable` in the place of a value that was not reported. The readers
take that word for nothing, so they give back every value that was written, provided that it is one
that they can give: a text with `IsText`, or a number within bounds.
-/

namespace Interlock

open Text

namespace Reading

/-! ## Texts that say something -/

/-- A text that is not empty, has no blank space around it, and is not `notAvailable` in any case.
-/
structure IsText (t : String) : Prop where
  nonempty : t ≠ ""
  unpadded : Unpadded isBlank t.toList
  available : sameIgnoringCase t notAvailable = false

/-- `IsText` holds of what is `meaningful`, without blank space around it. -/
theorem isText_of_meaningful {s t : String} (hs : Unpadded isBlank s.toList)
    (h : meaningful s = some t) : IsText t := by
  unfold meaningful at h
  split at h
  case isTrue => cases h
  case isFalse hsome =>
    cases h
    simp only [Bool.or_eq_true, decide_eq_true_eq, not_or, Bool.not_eq_true] at hsome
    exact ⟨hsome.1, hs, hsome.2⟩

/-- `IsText` holds of what `text?` returns. -/
theorem isText_of_text? {v : Option Json} {t : String} (h : text? v = some t) : IsText t := by
  match v with
  | some (.string s) => exact isText_of_meaningful (unpadded_trim s) h
  | some (.number n) =>
    refine isText_of_meaningful (unpadded_of_forall ?_) h
    intro c hc
    exact (n.visible_text c hc).isBlank
  | some (.bool b) =>
    refine isText_of_meaningful ?_ h
    cases b <;> exact unpadded_of_forall (by decide)
  | none | some .null | some (.array _) | some (.object _) => cases h

/-- `IsText` holds of what `texts` returns. -/
theorem isText_of_mem_texts {v : Option Json} {t : String} (h : t ∈ texts v) : IsText t := by
  unfold texts at h
  split at h
  · obtain ⟨j, -, hj⟩ := List.mem_filterMap.1 h
    exact isText_of_text? hj
  · cases h

theorem text?_string {t : String} (h : IsText t) : text? (some (.string t)) = some t := by
  show meaningful (trim t) = some t
  rw [trim_of_unpadded h.unpadded]
  unfold meaningful
  rw [if_neg (by simp [h.nonempty, h.available])]

/-! ## Values that may be missing -/

/-- `text?` reads `toJson` of a text, or of none, as it was. -/
theorem text?_toJson {r : Reported String} (h : ∀ t ∈ r, IsText t) :
    text? (some (r.toJson .string)) = r := by
  cases r with
  | none => decide
  | some t => exact text?_string (h t rfl)

/-- `count?` reads `toJson` of a count, or of none, as it was. -/
theorem count?_toJson (r : Reported Nat) : count? (some (r.toJson .ofNat)) = r := by
  cases r with
  | none => decide
  | some n => rfl

theorem lt_of_code? {v : Option Json} {n : Nat} (h : code? v = some n) : n < codeBound := by
  unfold code? at h
  obtain ⟨-, hlt⟩ := Option.filter_eq_some_iff.1 h
  exact of_decide_eq_true hlt

/-- `code?` reads `toJson` of a code below `codeBound`, or of none, as it was. -/
theorem code?_toJson {r : Reported Nat} (h : ∀ n ∈ r, n < codeBound) :
    code? (some (r.toJson .ofNat)) = r := by
  unfold code?
  rw [count?_toJson]
  cases r with
  | none => rfl
  | some n => exact Option.filter_some_pos (decide_eq_true (h n rfl))

/-- `texts` reads an array of texts with `IsText` as it was. -/
theorem texts_array {ts : List String} (h : ∀ t ∈ ts, IsText t) :
    texts (some (.array (ts.map .string))) = ts := by
  show (ts.map Json.string).filterMap (fun j => text? (some j)) = ts
  induction ts with
  | nil => rfl
  | cons t ts ih =>
    rw [List.forall_mem_cons] at h
    have hread : text? (some (.string t)) = some t := text?_string h.1
    rw [List.map_cons, List.filterMap_cons, hread, ih h.2]

/-! ## Members -/

/-- `field` finds the first spelling, if it is not null. -/
theorem field_of_member? {key : String} {aliases : List String} {j v : Json}
    (h : j.member? key = some v) (hv : v.isNull = false) : field (key :: aliases) j = some v := by
  unfold field
  rw [List.findSome?_cons, h, Option.filter_some_pos (by simp [hv])]

theorem objectField_of_member? {key : String} {aliases : List String} {j v : Json}
    (h : j.member? key = some v) (hv : v.isObject = true) :
    objectField (key :: aliases) j = some v := by
  have hnull : v.isNull = false := by
    cases v with
    | null => cases hv
    | bool | number | string | array | object => rfl
  unfold objectField
  rw [field_of_member? h hnull, Option.filter_some_pos hv]

theorem isNull_toJson {α : Type} {f : α → Json} (hf : ∀ a, (f a).isNull = false)
    (r : Reported α) : (r.toJson f).isNull = false := by
  cases r with
  | none => rfl
  | some a => exact hf a

section

variable {key : String} {aliases : List String} {j : Json}

/-- `flag?` of a switch that was written. -/
theorem flag?_of_member? {b : Bool} (h : j.member? key = some (.bool b)) :
    flag? (field (key :: aliases) j) = some b := by
  rw [field_of_member? h rfl]
  rfl

/-- `count?` of a count that was written. -/
theorem count?_of_member? {n : Nat} (h : j.member? key = some (.ofNat n)) :
    count? (field (key :: aliases) j) = some n := by
  rw [field_of_member? h rfl]
  rfl

/-- `count?` of a count, or of none. -/
theorem count?_of_reported {r : Reported Nat} (h : j.member? key = some (r.toJson .ofNat)) :
    count? (field (key :: aliases) j) = r := by
  rw [field_of_member? h (isNull_toJson (fun _ => rfl) r)]
  exact count?_toJson r

/-- `code?` of a code, or of none. -/
theorem code?_of_reported {r : Reported Nat} (h : j.member? key = some (r.toJson .ofNat))
    (hr : ∀ n ∈ r, n < codeBound) : code? (field (key :: aliases) j) = r := by
  rw [field_of_member? h (isNull_toJson (fun _ => rfl) r)]
  exact code?_toJson hr

/-- `text?` of a text, or of none. -/
theorem text?_of_reported {r : Reported String} (h : j.member? key = some (r.toJson .string))
    (hr : ∀ t ∈ r, IsText t) : text? (field (key :: aliases) j) = r := by
  rw [field_of_member? h (isNull_toJson (fun _ => rfl) r)]
  exact text?_toJson hr

/-- `texts` of a list that was written. -/
theorem texts_of_member? {ts : List String} (h : j.member? key = some (.array (ts.map .string)))
    (hts : ∀ t ∈ ts, IsText t) : texts (field (key :: aliases) j) = ts := by
  rw [field_of_member? h rfl]
  exact texts_array hts

end

end Reading

/-! ## Documents without null -/

/-- The document `v` stands in the document `j`, at whatever depth. -/
inductive Json.Within (v : Json) : Json → Prop
  | here : Within v v
  | item (items : List Json) (j : Json) (h : j ∈ items) (within : Within v j) :
    Within v (.array items)
  | member (members : List (String × Json)) (m : String × Json) (h : m ∈ members)
    (within : Within v m.2) : Within v (.object members)

namespace Json

/-- No null is `Within` the document. -/
def NullFree (j : Json) : Prop := ¬ Json.null.Within j

theorem nullFree_bool (b : Bool) : NullFree (.bool b) := by
  rintro ⟨⟩

theorem nullFree_number (n : Number) : NullFree (.number n) := by
  rintro ⟨⟩

theorem nullFree_string (s : String) : NullFree (.string s) := by
  rintro ⟨⟩

theorem nullFree_array {items : List Json} (h : ∀ j ∈ items, NullFree j) :
    NullFree (.array items) := by
  intro hwithin
  cases hwithin with
  | item _ j hj within => exact h j hj within

theorem nullFree_ofMembers {members : List (String × Json)} (h : ∀ m ∈ members, NullFree m.2) :
    NullFree (ofMembers members) := by
  intro hwithin
  cases hobject : ofMembers members with
  | object ms =>
    rw [hobject] at hwithin
    cases hwithin with
    | member _ m hm within => exact h m (mem_of_mem_ofMembers hobject hm) within
  | _ => cases hobject

theorem nullFree_toJson {α : Type} {f : α → Json} (hf : ∀ a, NullFree (f a)) (r : Reported α) :
    NullFree (r.toJson f) := by
  cases r with
  | none => exact nullFree_string _
  | some a => exact hf a

end Json

end Interlock
