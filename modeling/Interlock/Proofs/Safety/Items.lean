import Interlock.Proofs.Safety.Verdict

/-!
# The items of an intent

`IntentStatus.ofPayload` has one item for each element of the array that the payload `ReportsItems`,
in the same order, whatever the elements are. An element that does not say so has no `evidenceOk`,
and every element that counts makes the verdict recommend a lock.

* `ItemsAt`: what a payload reports as items, beside the intent if not in it.
* `Confirms` and `Denies`: what an element says for `evidenceOk` and `deny`.
* `items_of_reported` and `items_of_unreported`: the `items` of the record.
* `denyCount_of_reported`, `evidenceBadCount_of_reported` and `counts_append`: its counts.
* `every_item_counts`: no element is dropped, and none counts for less than it says.
-/

namespace Interlock

open Reading

/-! ## What a payload reports -/

/-- The value that is `FirstReported` is an object. -/
def Reading.FirstObject (keys : List String) (j v : Json) : Prop :=
  FirstReported keys j v ∧ v.isObject = true

/-- `objectField` finds the value that is `FirstReported`, if it is an object. -/
theorem Reading.objectField_eq_some_iff {keys : List String} {j v : Json} :
    objectField keys j = some v ↔ FirstObject keys j v := by
  unfold objectField FirstObject
  rw [Option.filter_eq_some_iff, field_eq_some_iff]

/-- What `payload` reports as items is `a`, array or not. -/
inductive ItemsAt (payload : Json) : Json → Prop
  /-- The items stand in the intent. -/
  | inside {c intent a : Json} (opens : Opens 2 payload c)
    (object : FirstObject ["intent"] c intent) (items : FirstReported ["items"] intent a) :
    ItemsAt payload a
  /-- No object is reported as the intent, or one without items, and the items stand beside it. -/
  | beside {c a : Json} (opens : Opens 2 payload c)
    (unreported : ∀ intent, FirstObject ["intent"] c intent →
      ∀ a', ¬ FirstReported ["items"] intent a')
    (items : FirstReported ["items"] c a) : ItemsAt payload a

/-- Where `ofPayload` looks for the items: in the intent and then beside it. -/
def reportedItems (payload : Json) : Option Json :=
  ((objectField ["intent"] (content payload)).bind (field ["items"])).or
    (field ["items"] (content payload))

/-- `ItemsAt` is `reportedItems`. -/
theorem itemsAt_iff {payload a : Json} : ItemsAt payload a ↔ reportedItems payload = some a := by
  unfold reportedItems
  constructor
  · intro h
    cases h with
    | inside opens object items =>
      rw [opens_iff.mp opens, objectField_eq_some_iff.mpr object, Option.bind_some,
        field_eq_some_iff.mpr items]
      rfl
    | beside opens unreported items =>
      have hnone : (objectField ["intent"] (content payload)).bind (field ["items"]) = none := by
        rw [Option.bind_eq_none_iff]
        intro intent hintent
        rw [opens_iff.mp opens, objectField_eq_some_iff] at hintent
        rw [Option.eq_none_iff_forall_ne_some]
        intro a' ha'
        exact unreported intent hintent a' (field_eq_some_iff.mp ha')
      rw [hnone, Option.none_or, opens_iff.mp opens]
      exact field_eq_some_iff.mpr items
  · intro h
    have hopens : Opens 2 payload (content payload) := opens_iff.mpr rfl
    -- what is found in the intent goes before what stands beside it
    rcases Option.or_eq_some_iff.mp h with hinside | ⟨hnone, hbeside⟩
    · obtain ⟨intent, hintent, hitems⟩ := Option.bind_eq_some_iff.mp hinside
      exact .inside hopens (objectField_eq_some_iff.mp hintent) (field_eq_some_iff.mp hitems)
    · refine .beside hopens ?_ (field_eq_some_iff.mp hbeside)
      intro intent hobject a' hitems
      rw [Option.bind_eq_none_iff] at hnone
      have hunreported := hnone intent (objectField_eq_some_iff.mpr hobject)
      rw [field_eq_some_iff.mpr hitems] at hunreported
      cases hunreported

/-- The payload is there, and reports the array `as` as items. -/
def ReportsItems (payload : Option Json) (as : List Json) : Prop :=
  ∃ p, payload = some p ∧ ItemsAt p (.array as)

/-! ## What an element says -/

/-- An element confirms its evidence. -/
def Confirms (j : Json) : Prop :=
  ∃ quality v, FirstObject ["quality"] j quality ∧
    FirstReported ["evidence_ok", "evidenceOk"] quality v ∧ SaysYes v

/-- An element denies execution. -/
def Denies (j : Json) : Prop :=
  ∃ quality effects v, FirstObject ["quality"] j quality ∧ FirstObject ["effects"] quality effects ∧
    FirstReported ["deny"] effects v ∧ SaysYes v

/-- `evidenceOk` of `ofJson j` if and only if `j` `Confirms`. -/
theorem IntentItem.evidenceOk_ofJson (j : Json) : (ofJson j).evidenceOk = true ↔ Confirms j := by
  show (flag? ((objectField ["quality"] j).bind
    (field ["evidence_ok", "evidenceOk"]))).getD false = true ↔ _
  rw [getD_flag?_eq_true]
  unfold Confirms
  simp only [Option.bind_eq_some_iff, objectField_eq_some_iff, field_eq_some_iff]
  constructor
  · rintro ⟨v, ⟨quality, hquality, hv⟩, hyes⟩
    exact ⟨quality, v, hquality, hv, hyes⟩
  · rintro ⟨quality, v, hquality, hv, hyes⟩
    exact ⟨v, ⟨quality, hquality, hv⟩, hyes⟩

/-- `deny` of `ofJson j` if and only if `j` `Denies`. -/
theorem IntentItem.deny_ofJson (j : Json) : (ofJson j).deny = true ↔ Denies j := by
  show (flag? (((objectField ["quality"] j).bind (objectField ["effects"])).bind
    (field ["deny"]))).getD false = true ↔ _
  rw [getD_flag?_eq_true]
  unfold Denies
  simp only [Option.bind_eq_some_iff, objectField_eq_some_iff, field_eq_some_iff]
  constructor
  · rintro ⟨v, ⟨effects, ⟨quality, hquality, heffects⟩, hv⟩, hyes⟩
    exact ⟨quality, effects, v, hquality, heffects, hv, hyes⟩
  · rintro ⟨quality, effects, v, hquality, heffects, hv, hyes⟩
    exact ⟨v, ⟨effects, ⟨quality, hquality, heffects⟩, hv⟩, hyes⟩

instance : DecidablePred Confirms := fun j =>
  decidable_of_iff ((IntentItem.ofJson j).evidenceOk = true) (IntentItem.evidenceOk_ofJson j)

instance : DecidablePred Denies := fun j =>
  decidable_of_iff ((IntentItem.ofJson j).deny = true) (IntentItem.deny_ofJson j)

/-! ## The record -/

namespace IntentStatus

variable {payload : Option Json} {as : List Json}

theorem items_ofPayload (p : Json) : (ofPayload (some p)).items =
    (((reportedItems p).bind Json.items?).map (List.map IntentItem.ofJson)).getD [] := rfl

/-- `items` of a reported array is `as.map IntentItem.ofJson`. -/
theorem items_of_reported (h : ReportsItems payload as) :
    (ofPayload payload).items = as.map IntentItem.ofJson := by
  obtain ⟨p, rfl, hitems⟩ := h
  rw [items_ofPayload, itemsAt_iff.mp hitems]
  rfl

/-- `items` is empty if no array is reported. -/
theorem items_of_unreported (h : ∀ as, ¬ ReportsItems payload as) :
    (ofPayload payload).items = [] := by
  cases payload with
  | none => rfl
  | some p =>
    have hnone : (reportedItems p).bind Json.items? = none := by
      rw [Option.bind_eq_none_iff]
      intro a ha
      cases a with
      | array as => exact absurd ⟨p, rfl, itemsAt_iff.mpr ha⟩ (h as)
      | null | bool | number | string | object => rfl
    rw [items_ofPayload, hnone]
    rfl

/-- `denyCount` counts the elements that deny. -/
theorem denyCount_of_reported (h : ReportsItems payload as) :
    (ofPayload payload).denyCount = as.countP (Denies ·) := by
  unfold denyCount
  rw [items_of_reported h, List.countP_map]
  apply List.countP_congr
  intro a _
  rw [decide_eq_true_iff]
  exact IntentItem.deny_ofJson a

/-- `evidenceBadCount` counts the elements that do not confirm. -/
theorem evidenceBadCount_of_reported (h : ReportsItems payload as) :
    (ofPayload payload).evidenceBadCount = as.countP (¬ Confirms ·) := by
  unfold evidenceBadCount
  rw [items_of_reported h, List.countP_map]
  apply List.countP_congr
  intro a _
  rw [decide_eq_true_iff, ← IntentItem.evidenceOk_ofJson]
  show (!(IntentItem.ofJson a).evidenceOk) = true ↔ _
  rw [Bool.not_eq_true', Bool.not_eq_true]

/-- Appended elements add to `evidenceBadCount` and `denyCount`. -/
theorem counts_append {joined : Option Json} {bs : List Json} (h : ReportsItems payload as)
    (hjoined : ReportsItems joined (as ++ bs)) :
    (ofPayload joined).evidenceBadCount
        = (ofPayload payload).evidenceBadCount + bs.countP (¬ Confirms ·) ∧
      (ofPayload joined).denyCount = (ofPayload payload).denyCount + bs.countP (Denies ·) := by
  constructor
  · rw [evidenceBadCount_of_reported hjoined, evidenceBadCount_of_reported h, List.countP_append]
  · rw [denyCount_of_reported hjoined, denyCount_of_reported h, List.countP_append]

/-- One element that denies or does not confirm makes `recommendsLock` true. -/
theorem recommendsLock_of_reported (h : ReportsItems payload as) {a : Json} (ha : a ∈ as)
    (hcounts : Denies a ∨ ¬ Confirms a) (executor : ExecutorStatus) :
    recommendsLock executor (ofPayload payload) = true := by
  rw [recommendsLock_iff, items_of_reported h]
  refine .inr ⟨IntentItem.ofJson a, List.mem_map_of_mem ha, ?_⟩
  rw [← Bool.not_eq_true, IntentItem.deny_ofJson, IntentItem.evidenceOk_ofJson]
  exact hcounts

end IntentStatus

open Monitor

/-- `items` of the record are `as.map IntentItem.ofJson`, or empty if nothing `ReportsItems`. The
counts are those of the elements: bounded, additive over `++`, monotone, and the verdict recommends
a lock if one element counts. -/
theorem every_item_counts (payload : Option Json) :
    let record := IntentStatus.ofPayload payload
    ((∀ as, ¬ ReportsItems payload as) → record.items = []) ∧
    ∀ as, ReportsItems payload as →
      record.items.length = as.length ∧
      (∀ i : Nat, record.items[i]? = as[i]?.map IntentItem.ofJson) ∧
      record.evidenceBadCount = as.countP (¬ Confirms ·) ∧
      record.denyCount = as.countP (Denies ·) ∧
      record.evidenceBadCount ≤ as.length ∧ record.denyCount ≤ as.length ∧
      (∀ payload' bs joined, ReportsItems payload' bs → ReportsItems joined (as ++ bs) →
        let record' := IntentStatus.ofPayload payload'
        let whole := IntentStatus.ofPayload joined
        whole.evidenceBadCount = record.evidenceBadCount + record'.evidenceBadCount ∧
        whole.denyCount = record.denyCount + record'.denyCount) ∧
      (∀ bs joined, ReportsItems joined (as ++ bs) →
        let whole := IntentStatus.ofPayload joined
        record.evidenceBadCount ≤ whole.evidenceBadCount ∧ record.denyCount ≤ whole.denyCount) ∧
      ((∃ a ∈ as, Denies a ∨ ¬ Confirms a) →
        (∀ s : Snapshot, s.intent.canonical = record →
          (Verdict.evaluate s).lockRecommended = true) ∧
        ∀ es, (lastLanded .intent es).bind FetchResult.usablePayload = payload →
          (Verdict.evaluate (fresh.run es).snapshot).lockRecommended = true) := by
  intro record
  refine ⟨IntentStatus.items_of_unreported, fun as has => ?_⟩
  have hitems : record.items = as.map IntentItem.ofJson := IntentStatus.items_of_reported has
  have hevidence : record.evidenceBadCount = as.countP (¬ Confirms ·) :=
    IntentStatus.evidenceBadCount_of_reported has
  have hdeny : record.denyCount = as.countP (Denies ·) := IntentStatus.denyCount_of_reported has
  refine ⟨?_, fun i => ?_, hevidence, hdeny, ?_, ?_, ?_, ?_, ?_⟩
  · rw [hitems, List.length_map]
  · rw [hitems, List.getElem?_map]
  · rw [hevidence]
    exact List.countP_le_length
  · rw [hdeny]
    exact List.countP_le_length
  · intro payload' bs joined hbs hjoined record' whole
    rw [show record'.evidenceBadCount = _ from IntentStatus.evidenceBadCount_of_reported hbs,
      show record'.denyCount = _ from IntentStatus.denyCount_of_reported hbs]
    exact IntentStatus.counts_append has hjoined
  · intro bs joined hjoined whole
    obtain ⟨hmore, hmore'⟩ := IntentStatus.counts_append has hjoined
    exact ⟨Nat.le.intro hmore.symm, Nat.le.intro hmore'.symm⟩
  · rintro ⟨a, ha, hcounts⟩
    have hrecommends (executor : ExecutorStatus) : recommendsLock executor record = true :=
      IntentStatus.recommendsLock_of_reported has ha hcounts executor
    constructor
    · intro s hs
      show recommendsLock s.executor.canonical s.intent.canonical = true
      rw [hs]
      exact hrecommends _
    · intro es hes
      rw [Verdict.evaluate_run]
      show recommendsLock _ (IntentStatus.ofPayload _) = true
      rw [hes]
      exact hrecommends _

/-- Elements that are no objects are items without evidence. -/
example : (IntentStatus.ofPayload (some (.object [("items", .array [.null, .bool true])])))
    = ⟨none, none, none, false, none, [⟨none, false, false⟩, ⟨none, false, false⟩]⟩ := by decide

end Interlock
