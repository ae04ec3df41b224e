import Interlock.Proofs.Reading
import Interlock.Proofs.Safety.Sending

/-!
# The wording of a rejection

A reply without `Accepts` rejects the request, and the outcome quotes what the server says.

* `Reply.Says`: what that is, as rules for the body of the reply.
* `Reply.says_iff`: these rules give every reply one text.
* `rejection_quotes_server`: the detail quotes the first 200 characters of it, or `(no detail)`.
-/

namespace Interlock

open Text Reading

/-! ## What a server says -/

/-- What the server says with a reply. -/
inductive Reply.Says (r : Reply) : String → Prop
  /-- The body is an object that explains itself with a string. -/
  | string (ms : List (String × Json)) (s : String) (hbody : r.json = some (.object ms))
    (hfirst : FirstReported ["detail", "error", "message"] (.object ms) (.string s)) : Says r s
  /-- The body is an object that explains itself with anything else. -/
  | document (ms : List (String × Json)) (v : Json) (hbody : r.json = some (.object ms))
    (hfirst : FirstReported ["detail", "error", "message"] (.object ms) v)
    (hv : ∀ s, v ≠ .string s) : Says r v.compact
  /-- The body is no object, or does not explain itself. -/
  | body (h : ∀ ms v, r.json = some (.object ms) →
      ¬ FirstReported ["detail", "error", "message"] (.object ms) v) : Says r (trim r.body)

namespace Outcome

/-- A string as it is, and anything else as compact JSON. -/
def wording : Json → String
  | .string s => s
  | v => v.compact

/-- `explanation?` is the `wording` of the first of `detailKeys`. -/
theorem explanation?_eq (j : Json) : explanation? j = (field detailKeys j).map wording := by
  unfold explanation? field
  induction detailKeys with
  | nil => rfl
  | cons key keys ih =>
    rw [List.findSome?_cons, List.findSome?_cons, ih]
    cases j.member? key with
    | none => rfl
    | some v => cases v <;> rfl

theorem explanation?_of_not_object {j : Json} (h : ∀ ms, j ≠ .object ms) :
    explanation? j = none := by
  cases j with
  | object ms => exact absurd rfl (h ms)
  | null | bool | number | string | array => rfl

end Outcome

open Outcome

/-- The text that `ofReply` finds. -/
def Reply.said (r : Reply) : String := (r.json.bind explanation?).getD (trim r.body)

theorem Reply.bind_explanation?_eq_none {r : Reply}
    (h : ∀ ms v, r.json = some (.object ms) → ¬ FirstReported detailKeys (.object ms) v) :
    r.json.bind explanation? = none := by
  rw [Option.bind_eq_none_iff]
  intro j hjson
  by_cases hobject : ∃ ms, j = .object ms
  · obtain ⟨ms, rfl⟩ := hobject
    rw [explanation?_eq, Option.map_eq_none_iff, Option.eq_none_iff_forall_ne_some]
    intro v hfield
    exact h ms v hjson (field_eq_some_iff.mp hfield)
  · exact explanation?_of_not_object fun ms hms => hobject ⟨ms, hms⟩

/-- `said` of an object is the `wording` of what is `FirstReported`. -/
theorem Reply.said_of_firstReported {r : Reply} {ms : List (String × Json)} {v : Json}
    (hbody : r.json = some (.object ms)) (hfirst : FirstReported detailKeys (.object ms) v) :
    r.said = wording v := by
  unfold said
  rw [hbody, Option.bind_some, explanation?_eq, field_eq_some_iff.mpr hfirst]
  rfl

/-- A reply `Says` one text, `said`. -/
theorem Reply.says_iff (r : Reply) (t : String) : r.Says t ↔ t = r.said := by
  constructor
  · intro h
    cases h with
    | string ms s hbody hfirst => exact (said_of_firstReported hbody hfirst).symm
    | document ms v hbody hfirst hv =>
      rw [said_of_firstReported hbody hfirst]
      cases v with
      | string s => exact absurd rfl (hv s)
      | null | bool | number | array | object => rfl
    | body h =>
      unfold said
      rw [bind_explanation?_eq_none h]
      rfl
  · rintro rfl
    -- the rule is found by what the body reports
    by_cases hreported : ∃ ms v, r.json = some (.object ms) ∧
      FirstReported detailKeys (.object ms) v
    · obtain ⟨ms, v, hbody, hfirst⟩ := hreported
      rw [said_of_firstReported hbody hfirst]
      cases v with
      | string s => exact .string ms s hbody hfirst
      | null | bool | number | array | object => exact .document ms _ hbody hfirst nofun
    · have hnone (ms : List (String × Json)) (v : Json) (hbody : r.json = some (.object ms)) :
          ¬ FirstReported detailKeys (.object ms) v :=
        fun hfirst => hreported ⟨ms, v, hbody, hfirst⟩
      unfold said
      rw [bind_explanation?_eq_none hnone]
      exact .body hnone

/-! ## The quotation -/

/-- `truncate detailLimit`, by the length of the text. -/
theorem shown_cases (t : String) (shown : String)
    (h : shown = truncate detailLimit (if t = "" then "(no detail)" else t)) :
    1 ≤ shown.length ∧ shown.length ≤ 200 ∧
      (1 ≤ t.length ∧ t.length ≤ 200 → shown = t) ∧
      (200 < t.length → shown.toList = t.toList.take 200) ∧
      (t = "" → shown = "(no detail)") := by
  have htake (s : String) : (truncate detailLimit s).toList = s.toList.take 200 := by
    unfold truncate
    rw [String.toList_ofList]
    rfl
  by_cases hempty : t = ""
  · -- the fixed phrase is not cut off
    rw [if_pos hempty] at h
    have hphrase : shown = "(no detail)" := h
    subst hempty hphrase
    decide
  · rw [if_neg hempty] at h
    have hlist : shown.toList = t.toList.take 200 := by rw [h, htake]
    have hlength : shown.length = min 200 t.length := by
      rw [← String.length_toList, hlist, List.length_take, String.length_toList]
    have hpos : t.length ≠ 0 := fun hzero => hempty (String.length_eq_zero_iff.mp hzero)
    refine ⟨by omega, by omega, ?_, fun _ => hlist, fun heq => absurd heq hempty⟩
    rintro ⟨-, hle⟩
    apply String.toList_injective
    rw [hlist]
    exact List.take_of_length_le (by rw [String.length_toList]; exact hle)

/-- If the last reply is without `Accepts`, the outcome is `.failed` with its code and the detail
`FAIL (code): ` followed by what it `Says`: up to 200 characters, or `(no detail)`. -/
theorem rejection_quotes_server (kill lock : Posted) (r : Reply)
    (hlast : (Dispatch.replies kill lock).getLast? = some (.answered r)) (hcode : ¬ r.Accepts) :
    ∃ t shown, (∀ t', r.Says t' ↔ t' = t) ∧
      (Dispatch.send kill lock).1 =
        ⟨.failed, some r.status, "FAIL (" ++ ofNat r.status ++ "): " ++ shown⟩ ∧
      1 ≤ shown.length ∧ shown.length ≤ 200 ∧
      (1 ≤ t.length ∧ t.length ≤ 200 → shown = t) ∧
      (200 < t.length → shown.toList = t.toList.take 200) ∧
      (t = "" → shown = "(no detail)") := by
  obtain ⟨last, hlast', hsend⟩ := Dispatch.send_eq_ofPosted kill lock
  obtain rfl := Option.some.inj (hlast.symm.trans hlast')
  have hsettles := (settles_iff _ _).mp (Settles.rejected r hcode)
  refine ⟨r.said, truncate detailLimit (serverText r), r.says_iff, ?_, shown_cases r.said _ rfl⟩
  rw [hsend, ← hsettles]

/-- A gateway that explains itself in an object. -/
theorem rejection_quotes_server_gateway :
    ∃ t shown, (⟨502, "\x7b\"error\":\"upstream\"\x7d"⟩ : Reply).Says t ∧
      (Dispatch.send (.answered ⟨502, "\x7b\"error\":\"upstream\"\x7d"⟩) (.failed "")).1.detail =
        "FAIL (" ++ ofNat 502 ++ "): " ++ shown ∧ 1 ≤ shown.length := by
  obtain ⟨t, shown, hserver, hsend, hlength, -⟩ := rejection_quotes_server
    (.answered ⟨502, "\x7b\"error\":\"upstream\"\x7d"⟩) (.failed "")
    ⟨502, "\x7b\"error\":\"upstream\"\x7d"⟩ rfl (fun h => absurd h.2 (by decide))
  exact ⟨t, shown, (hserver t).mpr rfl, congrArg Outcome.detail hsend, hlength⟩

end Interlock
