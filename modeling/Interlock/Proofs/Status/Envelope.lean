import Interlock.Proofs.Reading
import Interlock.Source

/-!
# Envelopes around a payload

A payload may come inside one or two objects that hold it under `data`. `openEnvelopes` opens them,
whatever stands beside `data`, and stops after the second one. The theory has two steps.

* `content_of_bare`, `content_envelope`, `content_envelope_envelope`: the `content` of a `Bare`
  document in none, one and two envelopes.
* `readContent_congr`: `readContent` does not read `data`, so it is the same for documents with
  `SameFields`.
-/

namespace Interlock

/-- The object that holds a document under `data`, with other members beside it. -/
def Json.envelope (siblings : List (String × Json)) (inner : Json) : Json :=
  .ofMembers (siblings ++ [("data", inner)])

namespace Reading

/-- A document is no envelope: its `data` is absent or no object. -/
def Bare (j : Json) : Prop := ∀ v, j.member? "data" = some v → v.isObject = false

theorem member?_envelope (siblings : List (String × Json)) (inner : Json) :
    (inner.envelope siblings).member? "data" = some inner := by
  unfold Json.envelope
  rw [Json.member?_ofMembers, List.reverse_append]
  rfl

/-! ## What the envelopes hold -/

/-- The `content` of a `Bare` document is itself. -/
theorem content_of_bare {p : Json} (hbare : Bare p) : content p = p := by
  apply opens_iff.1
  exact .bare 1 p hbare

/-- The `content` of one `envelope`. -/
theorem content_envelope {p : Json} (hobject : p.isObject = true) (hbare : Bare p)
    (siblings : List (String × Json)) : content (p.envelope siblings) = p := by
  apply opens_iff.1
  apply Opens.envelope 1 _ p p (member?_envelope siblings p) hobject
  exact .bare 0 p hbare

/-- The `content` of two envelopes, whatever they hold. -/
theorem content_envelope_envelope {p : Json} (hobject : p.isObject = true)
    (inside outside : List (String × Json)) :
    content ((p.envelope inside).envelope outside) = p := by
  apply opens_iff.1
  apply Opens.envelope 1 _ _ p (member?_envelope outside _) rfl
  apply Opens.envelope 0 _ p p (member?_envelope inside p) hobject
  exact .spent p

/-! ## What is read from the content -/

/-- The same members, apart from `data`. -/
def SameFields (p q : Json) : Prop := ∀ key, key ≠ "data" → p.member? key = q.member? key

variable {p q : Json}

/-- `field keys` depends on the members under `keys` that are not null. -/
theorem field_congr_of_reported {keys : List String}
    (h : ∀ key ∈ keys, (p.member? key).filter (!·.isNull) = (q.member? key).filter (!·.isNull)) :
    field keys p = field keys q := by
  unfold field
  induction keys with
  | nil => rfl
  | cons key keys ih =>
    rw [List.findSome?_cons, List.findSome?_cons, h key List.mem_cons_self,
      ih fun other hother => h other (List.mem_cons_of_mem key hother)]

/-- `field` under keys other than `data` is the same for `SameFields`. -/
theorem field_congr (h : SameFields p q) (keys : List String) (hkeys : "data" ∉ keys) :
    field keys p = field keys q := by
  apply field_congr_of_reported
  intro key hkey
  rw [h key fun hdata => hkeys (hdata ▸ hkey)]

/-- `objectField` under keys other than `data` is the same for `SameFields`. -/
theorem objectField_congr (h : SameFields p q) (keys : List String) (hkeys : "data" ∉ keys) :
    objectField keys p = objectField keys q := by
  unfold objectField
  rw [field_congr h keys hkeys]

end Reading

open Reading

namespace Source

/-- The record that a source makes of the content of a payload. -/
def readContent : (k : Source) → Json → k.Record
  | .intent => IntentStatus.ofContent
  | .chain => ChainStatus.ofContent
  | .executor => ExecutorStatus.ofContent
  | .risk => RiskStatus.ofContent

/-- `read` is `readContent` of the `content`. -/
theorem read_some (k : Source) (p : Json) : k.read (some p) = k.readContent (content p) := by
  cases k <;> rfl

/-- `readContent` is the same for `SameFields`. -/
theorem readContent_congr {p q : Json} (k : Source) (h : SameFields p q) :
    k.readContent p = k.readContent q := by
  have hfield := field_congr h
  have hobject := objectField_congr h
  cases k with
  | intent =>
    show IntentStatus.ofContent p = IntentStatus.ofContent q
    simp (disch := decide) only [IntentStatus.ofContent, hfield, hobject]
  | chain =>
    show ChainStatus.ofContent p = ChainStatus.ofContent q
    simp (disch := decide) only [ChainStatus.ofContent, Ledger.ofContent, hobject]
  | executor =>
    show ExecutorStatus.ofContent p = ExecutorStatus.ofContent q
    simp (disch := decide) only [ExecutorStatus.ofContent, hfield]
  | risk =>
    show RiskStatus.ofContent p = RiskStatus.ofContent q
    simp (disch := decide) only [RiskStatus.ofContent, hfield]

/-- A document that holds nothing but `data` gives `k.unknown`. -/
theorem readContent_envelope (k : Source) (x : Json) :
    k.readContent (x.envelope []) = k.unknown := by
  have hsame : SameFields (x.envelope []) (.object []) := by
    intro key hkey
    unfold Json.envelope
    rw [Json.member?_ofMembers]
    exact if_neg (Ne.symm hkey)
  rw [readContent_congr k hsame]
  cases k <;> rfl

/-- A `Bare` object has the same record in one and in two envelopes. A third `envelope` is not
opened and gives `k.unknown`. Two `Bare` documents with `SameFields` have the same record. -/
theorem envelopes_transparent (k : Source) :
    (∀ p : Json, p.isObject = true → Bare p → ∀ inside outside,
      k.read (some (p.envelope inside)) = k.read (some p) ∧
      k.read (some ((p.envelope inside).envelope outside)) = k.read (some p)) ∧
    (∀ (x : Json) inside outside,
      k.read (some (((x.envelope []).envelope inside).envelope outside)) = k.unknown) ∧
    (∀ p q, Bare p → Bare q → SameFields p q → k.read (some p) = k.read (some q)) := by
  refine ⟨?_, ?_, ?_⟩
  · intro p hobject hbare inside outside
    rw [read_some, read_some, read_some, content_of_bare hbare, content_envelope hobject hbare,
      content_envelope_envelope hobject]
    exact ⟨rfl, rfl⟩
  · intro x inside outside
    rw [read_some, content_envelope_envelope rfl]
    exact readContent_envelope k x
  · intro p q hp hq hsame
    rw [read_some, read_some, content_of_bare hp, content_of_bare hq]
    exact readContent_congr k hsame

/-- A halted executor in two envelopes, with `data` a number inside. -/
theorem envelopes_transparent_halted :
    let p := Json.ofMembers [("killSwitch", .string " On "), ("data", .ofNat 3)]
    let beside := [("kill_switch", Json.bool false)]
    p.isObject = true ∧ Bare p ∧
      Source.executor.read (some ((p.envelope beside).envelope beside)) =
        { ExecutorStatus.unknown with killSwitch := true } := by
  intro p beside
  have hbare : Bare p := by
    intro v hv
    cases hv
    rfl
  refine ⟨rfl, hbare, ?_⟩
  rw [((envelopes_transparent .executor).1 p rfl hbare beside beside).2]
  decide

end Source

end Interlock
