import Interlock.Proofs.Status.Envelope

/-!
# The fields of a record

Every `Field` of a record is looked for at certain places of a document, `read` if something is
there, and has a default otherwise. `Source.fields` lists the fields of the four records, and three
facts make the list a second description of the readers.

* `get_readContent`: what `readContent` puts into a record is `Field.value`, for every field.
* `Source.ext_fields`: two records that agree on every field are the same.
* `get_unknown`: the defaults are those of `k.unknown`.
-/

namespace Interlock

/-- The members that lead to a place from object to object, each with the spellings of its key. -/
abbrev Place := List (List String)

namespace Reading

/-! ## Looking at places -/

/-- What stands at a place. -/
def follow : Place → Json → Option Json
  | [], j => some j
  | keys :: place, j => (field keys j).bind (follow place)

/-- What stands at the first of several places at which there is anything. -/
def followFirst (places : List Place) (j : Json) : Option Json :=
  places.findSome? fun place => follow place j

theorem member?_of_not_object {j : Json} (h : j.isObject = false) (key : String) :
    j.member? key = none := by
  cases j with
  | object => cases h
  | null | bool | number | string | array => rfl

theorem field_of_not_object {j : Json} (h : j.isObject = false) (keys : List String) :
    field keys j = none := by
  unfold field
  rw [List.findSome?_eq_none_iff]
  intro key _
  rw [member?_of_not_object h]
  rfl

/-- `follow` of one step is `field`. -/
theorem follow_one (keys : List String) (j : Json) : follow [keys] j = field keys j := by
  show (field keys j).bind some = _
  exact Option.bind_fun_some _

/-- `follow` goes on inside of an `objectField`. What is no object has no fields, so it need not be
asked for one. -/
theorem follow_inside (keys inner : List String) (place : Place) (j : Json) :
    follow (keys :: inner :: place) j = (objectField keys j).bind (follow (inner :: place)) := by
  show (field keys j).bind (follow (inner :: place)) = _
  unfold objectField
  cases field keys j with
  | none => rfl
  | some v =>
    cases hobject : v.isObject with
    | true => rw [Option.filter_some_pos hobject]
    | false =>
      rw [Option.filter_some_neg (by simp [hobject])]
      show (field inner v).bind (follow place) = none
      rw [field_of_not_object hobject]
      rfl

theorem followFirst_one (place : Place) (j : Json) : followFirst [place] j = follow place j := by
  unfold followFirst
  rw [List.findSome?_cons]
  cases follow place j <;> rfl

theorem followFirst_two (place place' : Place) (j : Json) :
    followFirst [place, place'] j = (follow place j).or (follow place' j) := by
  unfold followFirst
  rw [List.findSome?_cons]
  cases follow place j with
  | none => exact followFirst_one place' j
  | some v => rfl

/-- `followFirst` rests on `follow` of each place. -/
theorem followFirst_congr {places : List Place} {p q : Json}
    (h : ∀ place ∈ places, follow place p = follow place q) :
    followFirst places p = followFirst places q := by
  unfold followFirst
  induction places with
  | nil => rfl
  | cons place places ih =>
    rw [List.forall_mem_cons] at h
    rw [List.findSome?_cons, List.findSome?_cons, h.1, ih h.2]

end Reading

open Reading

/-! ## Fields -/

/-- A field of a record of type `R`. -/
structure Field (R : Type) where
  /-- The places at which it is looked for, the first one first. -/
  places : List Place
  Value : Type
  /-- What a document is taken for, if it is taken for anything. -/
  read : Json → Option Value
  default : Value
  get : R → Value

namespace Field

variable {R α : Type}

/-- The document in which a field is found. -/
def find (f : Field R) (j : Json) : Option Json := followFirst f.places j

/-- The value of a field in a document. -/
def value (f : Field R) (j : Json) : f.Value := ((f.find j).bind f.read).getD f.default

/-- A switch, off by default. -/
def flag (places : List Place) (get : R → Bool) : Field R :=
  ⟨places, Bool, fun v => flag? (some v), false, get⟩

/-- A count, zero by default. -/
def count (places : List Place) (get : R → Nat) : Field R :=
  ⟨places, Nat, fun v => count? (some v), 0, get⟩

/-- A value that may be missing. -/
def reported (read : Option Json → Option α) (places : List Place) (get : R → Reported α) :
    Field R :=
  ⟨places, Reported α, fun v => (read (some v)).map some, none, get⟩

/-- A list that is read from an array, empty by default. -/
def list (read : List Json → List α) (places : List Place) (get : R → List α) : Field R :=
  ⟨places, List α, fun v => v.items?.map read, [], get⟩

/-- `value` of a `flag`. -/
theorem value_flag (places : List Place) (get : R → Bool) (j : Json) :
    (flag places get).value j = (flag? (followFirst places j)).getD false := by
  show ((followFirst places j).bind fun v => flag? (some v)).getD false = _
  cases followFirst places j <;> rfl

/-- `value` of a `count`. -/
theorem value_count (places : List Place) (get : R → Nat) (j : Json) :
    (count places get).value j = (count? (followFirst places j)).getD 0 := by
  show ((followFirst places j).bind fun v => count? (some v)).getD 0 = _
  cases followFirst places j <;> rfl

/-- `value` of a `reported` field, for a reader that finds nothing in nothing. -/
theorem value_reported {read : Option Json → Option α} (hread : read none = none)
    (places : List Place) (get : R → Reported α) (j : Json) :
    (reported read places get).value j = read (followFirst places j) := by
  show ((followFirst places j).bind fun v => (read (some v)).map some).getD none = _
  cases followFirst places j with
  | none => exact hread.symm
  | some v =>
    rw [Option.bind_some]
    cases read (some v) <;> rfl

/-- `value` of a `list`. -/
theorem value_list (read : List Json → List α) (places : List Place) (get : R → List α)
    (j : Json) : (list read places get).value j =
      (((followFirst places j).bind Json.items?).map read).getD [] := by
  show ((followFirst places j).bind fun v => v.items?.map read).getD [] = _
  cases followFirst places j <;> rfl

end Field

/-! ## The fields of the records -/

/-- The fields of the executor's record. -/
def ExecutorStatus.fields : List (Field ExecutorStatus) := [
  .flag [[["kill_switch", "killSwitch"]]] killSwitch,
  .count [[["fail_streak", "failStreak"]]] failStreak,
  .reported code? [[["last_http_code", "lastHttpCode"]]] lastHttpCode,
  .reported text? [[["last_event_id", "lastEventId"]]] lastEventId,
  .reported text? [[["source_path", "sourcePath"]]] sourcePath,
  .reported text? [[["ts_checked_iso", "tsCheckedIso"]]] tsChecked]

/-- The fields of the record of the risk regime. -/
def RiskStatus.fields : List (Field RiskStatus) := [
  .reported text? [[["current_regime", "currentRegime"]]] currentRegime,
  .reported text? [[["target_regime", "targetRegime"]]] targetRegime,
  .count [[["cooldown_remaining_ms", "cooldownRemainingMs"]]] cooldownMs,
  .list (List.filterMap fun j => text? (some j)) [[["reasons"]]] reasons,
  .list (List.filterMap fun j => text? (some j)) [[["missing"]]] missing]

/-- The fields of one ledger, which stands under the given keys. -/
def ChainStatus.ledgerFields (keys : List String) (ledger : ChainStatus → Ledger) :
    List (Field ChainStatus) := [
  .reported count? [[keys, ["lines"]]] fun c => (ledger c).lines,
  .reported text? [[keys, ["last_hash", "lastHash"]]] fun c => (ledger c).lastHash,
  .reported text? [[keys, ["schema_expected", "schemaExpected"]]]
    fun c => (ledger c).schemaExpected]

/-- The fields of the record of the audit chain. -/
def ChainStatus.fields : List (Field ChainStatus) :=
  ledgerFields ["execution_intent", "executionIntent"] executionIntent ++
    ledgerFields ["paper_orders", "paperOrders"] paperOrders ++
    ledgerFields ["paper_fills", "paperFills"] paperFills

/-- The fields of an item of an intent. -/
def IntentItem.fields : List (Field IntentItem) := [
  .reported text? [[["symbol"]]] symbol,
  .flag [[["quality"], ["evidence_ok", "evidenceOk"]]] evidenceOk,
  .flag [[["quality"], ["effects"], ["deny"]]] deny]

/-- In the intent itself, or else beside it. -/
def IntentStatus.within (keys : List String) : List Place := [[["intent"], keys], [keys]]

/-- The fields of the record of the latest intent. -/
def IntentStatus.fields : List (Field IntentStatus) := [
  .reported text? [[["event_id", "eventId"]]] eventId,
  .reported text? [[["ts_iso", "tsIso"]]] ts,
  .reported text? (within ["execution_mode", "executionMode"]) executionMode,
  .flag (within ["dry_run", "dryRun"]) dryRun,
  .reported text? [[["error"]]] error,
  .list (List.map IntentItem.ofJson) (within ["items"]) items]

/-- The fields of a source's record. -/
def Source.fields : (k : Source) → List (Field k.Record)
  | .intent => IntentStatus.fields
  | .chain => ChainStatus.fields
  | .executor => ExecutorStatus.fields
  | .risk => RiskStatus.fields

/-! ## The readers, field by field -/

theorem ExecutorStatus.get_ofContent (j : Json) :
    ∀ f ∈ fields, f.get (ofContent j) = f.value j := by
  unfold fields
  simp (disch := decide) only [List.forall_mem_cons, Field.value_flag, Field.value_count,
    Field.value_reported, followFirst_one, follow_one]
  exact ⟨rfl, rfl, rfl, rfl, rfl, rfl, List.forall_mem_nil _⟩

/-- `texts` are read from an array. -/
theorem Reading.texts_eq (o : Option Json) :
    texts o = ((o.bind Json.items?).map (List.filterMap fun j => text? (some j))).getD [] := by
  cases o with
  | none => rfl
  | some v => cases v <;> rfl

theorem RiskStatus.get_ofContent (j : Json) :
    ∀ f ∈ fields, f.get (ofContent j) = f.value j := by
  unfold fields
  simp (disch := decide) only [List.forall_mem_cons, Field.value_list, Field.value_count,
    Field.value_reported, followFirst_one, follow_one, ← texts_eq]
  exact ⟨rfl, rfl, rfl, rfl, rfl, List.forall_mem_nil _⟩

/-- Each of the `ledgerFields` has its `value`. -/
theorem ChainStatus.get_ledgerFields {keys : List String} {ledger : ChainStatus → Ledger}
    {c : ChainStatus} {j : Json} (h : ledger c = .ofContent keys j) :
    ∀ f ∈ ledgerFields keys ledger, f.get c = f.value j := by
  unfold ledgerFields
  simp (disch := decide) only [List.forall_mem_cons, Field.value_reported, followFirst_one,
    follow_inside, follow_one]
  simp only [Field.reported, h, Ledger.ofContent]
  cases objectField keys j with
  | none => exact ⟨rfl, rfl, rfl, List.forall_mem_nil _⟩
  | some o => exact ⟨rfl, rfl, rfl, List.forall_mem_nil _⟩

theorem ChainStatus.get_ofContent (j : Json) :
    ∀ f ∈ fields, f.get (ofContent j) = f.value j := by
  unfold fields
  simp only [List.forall_mem_append]
  exact ⟨⟨get_ledgerFields rfl, get_ledgerFields rfl⟩, get_ledgerFields rfl⟩

/-- Each field of an item has its `value`. -/
theorem IntentItem.get_ofJson (j : Json) : ∀ f ∈ fields, f.get (ofJson j) = f.value j := by
  unfold fields
  simp (disch := decide) only [List.forall_mem_cons, Field.value_reported, Field.value_flag,
    followFirst_one, follow_inside, follow_one]
  refine ⟨rfl, rfl, ?_, List.forall_mem_nil _⟩
  show (flag? (((objectField ["quality"] j).bind (objectField ["effects"])).bind
    (field ["deny"]))).getD false = _
  rw [Option.bind_assoc]

theorem IntentStatus.get_ofContent (j : Json) :
    ∀ f ∈ fields, f.get (ofContent j) = f.value j := by
  unfold fields within
  simp (disch := decide) only [List.forall_mem_cons, Field.value_reported, Field.value_flag,
    Field.value_list, followFirst_one, followFirst_two, follow_inside, follow_one]
  exact ⟨rfl, rfl, rfl, rfl, rfl, rfl, List.forall_mem_nil _⟩

namespace Source

/-- Each field of `readContent` has its `value`. -/
theorem get_readContent (k : Source) (j : Json) :
    ∀ f ∈ k.fields, f.get (k.readContent j) = f.value j := by
  cases k with
  | intent => exact IntentStatus.get_ofContent j
  | chain => exact ChainStatus.get_ofContent j
  | executor => exact ExecutorStatus.get_ofContent j
  | risk => exact RiskStatus.get_ofContent j

/-- Each field of `k.unknown` has its `default`. -/
theorem get_unknown (k : Source) : ∀ f ∈ k.fields, f.get k.unknown = f.default := by
  cases k with
  | intent =>
    show ∀ f ∈ IntentStatus.fields, _
    simp only [IntentStatus.fields, List.forall_mem_cons]
    exact ⟨rfl, rfl, rfl, rfl, rfl, rfl, List.forall_mem_nil _⟩
  | chain =>
    show ∀ f ∈ ChainStatus.fields, _
    simp only [ChainStatus.fields, ChainStatus.ledgerFields, List.forall_mem_append,
      List.forall_mem_cons]
    exact ⟨⟨⟨rfl, rfl, rfl, List.forall_mem_nil _⟩, rfl, rfl, rfl, List.forall_mem_nil _⟩,
      rfl, rfl, rfl, List.forall_mem_nil _⟩
  | executor =>
    show ∀ f ∈ ExecutorStatus.fields, _
    simp only [ExecutorStatus.fields, List.forall_mem_cons]
    exact ⟨rfl, rfl, rfl, rfl, rfl, rfl, List.forall_mem_nil _⟩
  | risk =>
    show ∀ f ∈ RiskStatus.fields, _
    simp only [RiskStatus.fields, List.forall_mem_cons]
    exact ⟨rfl, rfl, rfl, rfl, rfl, List.forall_mem_nil _⟩

end Source

/-! ## Records as their fields -/

attribute [ext] ExecutorStatus RiskStatus Ledger ChainStatus IntentStatus IntentItem

/-- Records that agree on `ledgerFields` have the same ledger. -/
theorem ChainStatus.ext_ledgerFields {keys : List String} {ledger : ChainStatus → Ledger}
    {c c' : ChainStatus} (h : ∀ f ∈ ledgerFields keys ledger, f.get c = f.get c') :
    ledger c = ledger c' := by
  unfold ledgerFields at h
  simp only [List.forall_mem_cons] at h
  exact Ledger.ext h.1 h.2.1 h.2.2.1

/-- Records that agree on `k.fields` are the same. -/
theorem Source.ext_fields {k : Source} {r r' : k.Record}
    (h : ∀ f ∈ k.fields, f.get r = f.get r') : r = r' := by
  cases k with
  | intent =>
    replace h : ∀ f ∈ IntentStatus.fields, f.get r = f.get r' := h
    simp only [IntentStatus.fields, List.forall_mem_cons] at h
    obtain ⟨hevent, hts, hmode, hdry, herror, hitems, -⟩ := h
    exact IntentStatus.ext hevent hts hmode hdry herror hitems
  | chain =>
    replace h : ∀ f ∈ ChainStatus.fields, f.get r = f.get r' := h
    simp only [ChainStatus.fields, List.forall_mem_append] at h
    obtain ⟨⟨hintent, horders⟩, hfills⟩ := h
    exact ChainStatus.ext (ChainStatus.ext_ledgerFields hintent)
      (ChainStatus.ext_ledgerFields horders) (ChainStatus.ext_ledgerFields hfills)
  | executor =>
    replace h : ∀ f ∈ ExecutorStatus.fields, f.get r = f.get r' := h
    simp only [ExecutorStatus.fields, List.forall_mem_cons] at h
    obtain ⟨hswitch, hstreak, hcode, hevent, hpath, hchecked, -⟩ := h
    exact ExecutorStatus.ext hswitch hstreak hcode hevent hpath hchecked
  | risk =>
    replace h : ∀ f ∈ RiskStatus.fields, f.get r = f.get r' := h
    simp only [RiskStatus.fields, List.forall_mem_cons] at h
    obtain ⟨hcurrent, htarget, hcooldown, hreasons, hmissing, -⟩ := h
    exact RiskStatus.ext hcurrent htarget hcooldown hreasons hmissing

end Interlock
