import Interlock.Proofs.Status.Envelope
import Interlock.Proofs.Status.Written

/-!
# Records survive their own document

`k.recordJson` of the record of any payload is read as the same record. For each kind of record the
argument has two halves: what `ofContent` finds in a payload is canonical, every text `IsText t`
and every code within bounds; and `ofContent` of the `toJson` of a canonical record is the record.
The document has no member `data`, so it is `Bare`, and it is `NullFree`.
-/

namespace Interlock

open Reading

/-! ## The executor -/

namespace ExecutorStatus

/-- The texts that an executor reports. -/
def texts (e : ExecutorStatus) : List String :=
  e.lastEventId.toList ++ e.sourcePath.toList ++ e.tsChecked.toList

/-- `IsText` holds of every text, and the code is below `codeBound`. -/
structure Canonical (e : ExecutorStatus) : Prop where
  texts : ∀ t ∈ e.texts, IsText t
  code : ∀ n ∈ e.lastHttpCode, n < codeBound

/-- `ofContent` returns a `Canonical` record. -/
theorem canonical_ofContent (j : Json) : Canonical (ofContent j) := by
  constructor
  · unfold ofContent ExecutorStatus.texts
    simp only [List.forall_mem_append, Option.mem_toList]
    exact ⟨⟨fun _ ht => isText_of_text? ht, fun _ ht => isText_of_text? ht⟩,
      fun _ ht => isText_of_text? ht⟩
  · intro n hn
    exact lt_of_code? hn

/-- `ofContent` reads the `toJson` of a `Canonical` record as the record. -/
theorem ofContent_toJson {e : ExecutorStatus} (h : e.Canonical) : ofContent e.toJson = e := by
  have htexts := h.texts
  unfold ExecutorStatus.texts at htexts
  simp only [List.forall_mem_append, Option.mem_toList] at htexts
  obtain ⟨⟨hevent, hpath⟩, hchecked⟩ := htexts
  have hmember (key : String) : e.toJson.member? key = _ := Json.member?_ofMembers key _
  unfold ofContent
  rw [flag?_of_member? (hmember "kill_switch"), count?_of_member? (hmember "fail_streak"),
    code?_of_reported (hmember "last_http_code") h.code,
    text?_of_reported (hmember "last_event_id") hevent,
    text?_of_reported (hmember "source_path") hpath,
    text?_of_reported (hmember "ts_checked_iso") hchecked]
  rfl

theorem nullFree_toJson (e : ExecutorStatus) : e.toJson.NullFree := by
  apply Json.nullFree_ofMembers
  simp only [List.forall_mem_cons]
  exact ⟨Json.nullFree_bool _, Json.nullFree_number _,
    Json.nullFree_toJson (fun _ => Json.nullFree_number _) _,
    Json.nullFree_toJson Json.nullFree_string _, Json.nullFree_toJson Json.nullFree_string _,
    Json.nullFree_toJson Json.nullFree_string _, List.forall_mem_nil _⟩

end ExecutorStatus

/-! ## The intent -/

/-- The texts that an item of an intent reports. -/
def IntentItem.texts (i : IntentItem) : List String := i.symbol.toList

namespace IntentItem

/-- `IsText` holds of every text of `ofJson j`. -/
theorem isText_ofJson (j : Json) : ∀ t ∈ (ofJson j).texts, IsText t := by
  intro t ht
  exact isText_of_text? (Option.mem_toList.1 ht)

/-- `ofJson` reads the `toJson` of an item as the item. -/
theorem ofJson_toJson {i : IntentItem} (h : ∀ t ∈ i.texts, IsText t) : ofJson i.toJson = i := by
  have hsymbol : ∀ t ∈ i.symbol, IsText t := fun t ht => h t (Option.mem_toList.2 ht)
  -- the two objects that the item holds
  have hitem (key : String) : i.toJson.member? key = _ := Json.member?_ofMembers key _
  have hquality : objectField ["quality"] i.toJson = some _ :=
    objectField_of_member? (hitem "quality") rfl
  have heffects : objectField ["effects"] _ = some _ :=
    objectField_of_member? (Json.member?_ofMembers "effects"
      [("evidence_ok", .bool i.evidenceOk), ("effects", .ofMembers [("deny", .bool i.deny)])]) rfl
  unfold ofJson
  rw [text?_of_reported (hitem "symbol") hsymbol, hquality]
  simp only [Option.bind_some, heffects]
  rw [flag?_of_member? (Json.member?_ofMembers "evidence_ok" _),
    flag?_of_member? (Json.member?_ofMembers "deny" _)]
  rfl

theorem nullFree_toJson (i : IntentItem) : i.toJson.NullFree := by
  have heffects : (Json.ofMembers [("deny", .bool i.deny)]).NullFree := by
    apply Json.nullFree_ofMembers
    simp only [List.forall_mem_cons]
    exact ⟨Json.nullFree_bool _, List.forall_mem_nil _⟩
  have hquality : (Json.ofMembers [("evidence_ok", .bool i.evidenceOk),
      ("effects", .ofMembers [("deny", .bool i.deny)])]).NullFree := by
    apply Json.nullFree_ofMembers
    simp only [List.forall_mem_cons]
    exact ⟨Json.nullFree_bool _, heffects, List.forall_mem_nil _⟩
  apply Json.nullFree_ofMembers
  simp only [List.forall_mem_cons]
  exact ⟨Json.nullFree_toJson Json.nullFree_string _, hquality, List.forall_mem_nil _⟩

end IntentItem

namespace IntentStatus

/-- The texts that an intent reports. -/
def texts (i : IntentStatus) : List String :=
  i.eventId.toList ++ i.ts.toList ++ i.executionMode.toList ++ i.error.toList ++
    i.items.flatMap IntentItem.texts

/-- `IsText` holds of every text of an intent's `ofContent`. -/
theorem isText_ofContent (j : Json) : ∀ t ∈ (ofContent j).texts, IsText t := by
  unfold ofContent IntentStatus.texts
  simp only [List.forall_mem_append, Option.mem_toList]
  refine ⟨⟨⟨⟨?_, ?_⟩, ?_⟩, ?_⟩, ?_⟩
  · exact fun t ht => isText_of_text? ht
  · exact fun t ht => isText_of_text? ht
  · exact fun t ht => isText_of_text? ht
  · exact fun t ht => isText_of_text? ht
  · -- every item is read from some document
    intro t ht
    obtain ⟨i, hi, hti⟩ := List.mem_flatMap.1 ht
    cases hitems : (((objectField ["intent"] j).bind (field ["items"])).or
        (field ["items"] j)).bind Json.items? with
    | none => simp [hitems] at hi
    | some items =>
      rw [hitems, Option.map_some, Option.getD_some] at hi
      obtain ⟨doc, -, rfl⟩ := List.mem_map.1 hi
      exact IntentItem.isText_ofJson doc t hti

/-- `toJson` of an intent holds the `items` itself, not in an `intent` inside. -/
theorem member?_toJson (i : IntentStatus) : i.toJson.member? "intent" = none ∧
    i.toJson.member? "items" = some (.array (i.items.map IntentItem.toJson)) := by
  unfold toJson
  rw [Json.member?_ofMembers, Json.member?_ofMembers]
  exact ⟨rfl, rfl⟩

/-- `ofContent` reads the `toJson` of an intent as the intent. -/
theorem ofContent_toJson {i : IntentStatus} (h : ∀ t ∈ i.texts, IsText t) :
    ofContent i.toJson = i := by
  unfold IntentStatus.texts at h
  simp only [List.forall_mem_append, Option.mem_toList] at h
  obtain ⟨⟨⟨⟨hevent, hts⟩, hmode⟩, herror⟩, hitems⟩ := h
  have hmember (key : String) : i.toJson.member? key = _ := Json.member?_ofMembers key _
  have hintent : objectField ["intent"] i.toJson = none := by
    unfold objectField field
    rw [List.findSome?_cons, (member?_toJson i).1]
    rfl
  have hread : i.items.map (IntentItem.ofJson ∘ IntentItem.toJson) = i.items := by
    conv_rhs => rw [← List.map_id i.items]
    apply List.map_congr_left
    intro item hitem
    apply IntentItem.ofJson_toJson
    intro t ht
    exact hitems t (List.mem_flatMap.2 ⟨item, hitem, ht⟩)
  have hitems' : field ["items"] i.toJson = some _ :=
    field_of_member? (member?_toJson i).2 rfl
  unfold ofContent
  simp only [hintent, Option.bind_none, Option.none_or]
  rw [text?_of_reported (hmember "event_id") hevent, text?_of_reported (hmember "ts_iso") hts,
    text?_of_reported (hmember "execution_mode") hmode, flag?_of_member? (hmember "dry_run"),
    text?_of_reported (hmember "error") herror, hitems']
  simp only [Option.bind_some, Json.items?, Option.map_some, List.map_map, hread, Option.getD_some]

theorem nullFree_toJson (i : IntentStatus) : i.toJson.NullFree := by
  have hitems : (Json.array (i.items.map IntentItem.toJson)).NullFree := by
    apply Json.nullFree_array
    intro j hj
    obtain ⟨item, -, rfl⟩ := List.mem_map.1 hj
    exact item.nullFree_toJson
  have htext := Json.nullFree_toJson Json.nullFree_string
  apply Json.nullFree_ofMembers
  simp only [List.forall_mem_cons]
  exact ⟨htext _, htext _, htext _, Json.nullFree_bool _, htext _, hitems, List.forall_mem_nil _⟩

end IntentStatus

/-! ## The audit chain -/

namespace Ledger

/-- The texts that a ledger reports. -/
def texts (l : Ledger) : List String := l.lastHash.toList ++ l.schemaExpected.toList

/-- `IsText` holds of every text of a ledger's `ofContent`. -/
theorem isText_ofContent (keys : List String) (j : Json) :
    ∀ t ∈ (ofContent keys j).texts, IsText t := by
  unfold ofContent
  split
  · exact List.forall_mem_nil _
  · unfold ofObject Ledger.texts
    simp only [List.forall_mem_append, Option.mem_toList]
    exact ⟨fun t ht => isText_of_text? ht, fun t ht => isText_of_text? ht⟩

/-- `ofObject` reads the `toJson` of a ledger as the ledger. -/
theorem ofObject_toJson {l : Ledger} (h : ∀ t ∈ l.texts, IsText t) : ofObject l.toJson = l := by
  unfold Ledger.texts at h
  simp only [List.forall_mem_append, Option.mem_toList] at h
  have hmember (key : String) : l.toJson.member? key = _ := Json.member?_ofMembers key _
  unfold ofObject
  rw [count?_of_reported (hmember "lines"), text?_of_reported (hmember "last_hash") h.1,
    text?_of_reported (hmember "schema_expected") h.2]

/-- `ofContent` reads a ledger that stands under the first of its keys. -/
theorem ofContent_of_member? {key : String} {aliases : List String} {j : Json} {l : Ledger}
    (hmember : j.member? key = some l.toJson) (h : ∀ t ∈ l.texts, IsText t) :
    ofContent (key :: aliases) j = l := by
  unfold ofContent
  rw [objectField_of_member? hmember rfl]
  exact ofObject_toJson h

theorem nullFree_toJson (l : Ledger) : l.toJson.NullFree := by
  apply Json.nullFree_ofMembers
  simp only [List.forall_mem_cons]
  exact ⟨Json.nullFree_toJson (fun _ => Json.nullFree_number _) _,
    Json.nullFree_toJson Json.nullFree_string _, Json.nullFree_toJson Json.nullFree_string _,
    List.forall_mem_nil _⟩

end Ledger

namespace ChainStatus

/-- The texts that the audit chain reports. -/
def texts (c : ChainStatus) : List String := c.ledgers.flatMap (·.2.texts)

/-- `IsText` holds of every text of the audit chain's `ofContent`. -/
theorem isText_ofContent (j : Json) : ∀ t ∈ (ofContent j).texts, IsText t := by
  intro t ht
  obtain ⟨l, hl, htl⟩ := List.mem_flatMap.1 ht
  -- each of the three ledgers is read from the payload
  have hread : ∃ keys, l.2 = Ledger.ofContent keys j := by
    simp only [ledgers, ofContent, List.mem_cons, List.not_mem_nil, or_false] at hl
    rcases hl with rfl | rfl | rfl <;> exact ⟨_, rfl⟩
  obtain ⟨keys, hkeys⟩ := hread
  rw [hkeys] at htl
  exact Ledger.isText_ofContent keys j t htl

/-- `ofContent` reads the `toJson` of the audit chain as the chain. -/
theorem ofContent_toJson {c : ChainStatus} (h : ∀ t ∈ c.texts, IsText t) :
    ofContent c.toJson = c := by
  have hledger : ∀ l ∈ c.ledgers, ∀ t ∈ l.2.texts, IsText t := by
    intro l hl t ht
    exact h t (List.mem_flatMap.2 ⟨l, hl, ht⟩)
  simp only [ledgers, List.forall_mem_cons] at hledger
  obtain ⟨hintent, horders, hfills, -⟩ := hledger
  have hmember (key : String) : c.toJson.member? key = _ := Json.member?_ofMembers key _
  unfold ofContent
  rw [Ledger.ofContent_of_member? (hmember "execution_intent") hintent,
    Ledger.ofContent_of_member? (hmember "paper_orders") horders,
    Ledger.ofContent_of_member? (hmember "paper_fills") hfills]

theorem nullFree_toJson (c : ChainStatus) : c.toJson.NullFree := by
  apply Json.nullFree_ofMembers
  intro m hm
  obtain ⟨l, -, rfl⟩ := List.mem_map.1 hm
  exact l.2.nullFree_toJson

end ChainStatus

/-! ## The risk regime -/

namespace RiskStatus

/-- The texts that the risk regime reports. -/
def texts (r : RiskStatus) : List String :=
  r.currentRegime.toList ++ r.targetRegime.toList ++ r.reasons ++ r.missing

/-- `IsText` holds of every text of the risk regime's `ofContent`. -/
theorem isText_ofContent (j : Json) : ∀ t ∈ (ofContent j).texts, IsText t := by
  unfold ofContent RiskStatus.texts
  simp only [List.forall_mem_append, Option.mem_toList]
  refine ⟨⟨⟨?_, ?_⟩, ?_⟩, ?_⟩
  · exact fun t ht => isText_of_text? ht
  · exact fun t ht => isText_of_text? ht
  · exact fun t ht => isText_of_mem_texts ht
  · exact fun t ht => isText_of_mem_texts ht

/-- `toJson` of the risk regime holds `reasons` and `missing` entry by entry. -/
theorem member?_toJson (r : RiskStatus) :
    r.toJson.member? "reasons" = some (.array (r.reasons.map .string)) ∧
      r.toJson.member? "missing" = some (.array (r.missing.map .string)) := by
  unfold toJson
  rw [Json.member?_ofMembers, Json.member?_ofMembers]
  exact ⟨rfl, rfl⟩

/-- `ofContent` reads the `toJson` of the risk regime as the regime. -/
theorem ofContent_toJson {r : RiskStatus} (h : ∀ t ∈ r.texts, IsText t) :
    ofContent r.toJson = r := by
  unfold RiskStatus.texts at h
  simp only [List.forall_mem_append, Option.mem_toList] at h
  obtain ⟨⟨⟨hcurrent, htarget⟩, hreasons⟩, hmissing⟩ := h
  have hmember (key : String) : r.toJson.member? key = _ := Json.member?_ofMembers key _
  unfold ofContent
  rw [text?_of_reported (hmember "current_regime") hcurrent,
    text?_of_reported (hmember "target_regime") htarget,
    count?_of_member? (hmember "cooldown_remaining_ms"),
    texts_of_member? (member?_toJson r).1 hreasons, texts_of_member? (member?_toJson r).2 hmissing]
  rfl

theorem nullFree_toJson (r : RiskStatus) : r.toJson.NullFree := by
  have hlist (ts : List String) : (Json.array (ts.map .string)).NullFree := by
    apply Json.nullFree_array
    intro j hj
    obtain ⟨t, -, rfl⟩ := List.mem_map.1 hj
    exact Json.nullFree_string t
  have htext := Json.nullFree_toJson Json.nullFree_string
  apply Json.nullFree_ofMembers
  simp only [List.forall_mem_cons]
  exact ⟨htext _, htext _, Json.nullFree_number _, hlist _, hlist _, List.forall_mem_nil _⟩

end RiskStatus

/-! ## Every source -/

namespace Source

/-- The texts that a record reports. -/
def texts : (k : Source) → k.Record → List String
  | .intent => IntentStatus.texts
  | .chain => ChainStatus.texts
  | .executor => ExecutorStatus.texts
  | .risk => RiskStatus.texts

/-- `readContent` reads `recordJson` of what it returned as the same record. -/
theorem readContent_recordJson (k : Source) (j : Json) :
    k.readContent (k.recordJson (k.readContent j)) = k.readContent j := by
  cases k with
  | intent => exact IntentStatus.ofContent_toJson (IntentStatus.isText_ofContent j)
  | chain => exact ChainStatus.ofContent_toJson (ChainStatus.isText_ofContent j)
  | executor => exact ExecutorStatus.ofContent_toJson (ExecutorStatus.canonical_ofContent j)
  | risk => exact RiskStatus.ofContent_toJson (RiskStatus.isText_ofContent j)

/-- `IsText` holds of every text of `readContent`. -/
theorem isText_readContent (k : Source) (j : Json) :
    ∀ t ∈ k.texts (k.readContent j), IsText t := by
  cases k with
  | intent => exact IntentStatus.isText_ofContent j
  | chain => exact ChainStatus.isText_ofContent j
  | executor => exact (ExecutorStatus.canonical_ofContent j).texts
  | risk => exact RiskStatus.isText_ofContent j

/-- `recordJson` is no envelope. -/
theorem bare_recordJson (k : Source) (r : k.Record) : Bare (k.recordJson r) := by
  have hnone : (k.recordJson r).member? "data" = none := by
    cases k with
    | intent => exact Json.member?_ofMembers "data" _
    | chain => exact Json.member?_ofMembers "data" _
    | executor => exact Json.member?_ofMembers "data" _
    | risk => exact Json.member?_ofMembers "data" _
  intro v hv
  rw [hnone] at hv
  cases hv

/-- `recordJson` holds no null. -/
theorem nullFree_recordJson (k : Source) (r : k.Record) : (k.recordJson r).NullFree := by
  cases k with
  | intent => exact IntentStatus.nullFree_toJson r
  | chain => exact ChainStatus.nullFree_toJson r
  | executor => exact ExecutorStatus.nullFree_toJson r
  | risk => exact RiskStatus.nullFree_toJson r

/-- `read` of a payload, or of none, is `readContent` of some document. -/
theorem exists_readContent (k : Source) (payload : Option Json) :
    ∃ j, k.read payload = k.readContent j := by
  cases payload with
  | none => exact ⟨.object [], by cases k <;> rfl⟩
  | some p => exact ⟨content p, read_some k p⟩

/-- `k.recordJson` of `k.read payload` is read as the same record, its lists and items in their
order. Every text is not empty, not padded and not `n/a` in any case, and the document holds no
null. -/
theorem record_survives (k : Source) (payload : Option Json) :
    let r := k.read payload
    k.read (some (k.recordJson r)) = r ∧
    (∀ t ∈ k.texts r, t ≠ "" ∧ (∀ c ∈ t.toList.head?, Text.isBlank c = false) ∧
      (∀ c ∈ t.toList.getLast?, Text.isBlank c = false) ∧
      Text.sameIgnoringCase t "n/a" = false) ∧
    (k.recordJson r).NullFree ∧
    (∀ i : IntentStatus, i.toJson.member? "intent" = none ∧
      i.toJson.member? "items" = some (.array (i.items.map IntentItem.toJson))) ∧
    ∀ s : RiskStatus, s.toJson.member? "reasons" = some (.array (s.reasons.map .string)) ∧
      s.toJson.member? "missing" = some (.array (s.missing.map .string)) := by
  intro r
  obtain ⟨j, hj⟩ : ∃ j, r = k.readContent j := exists_readContent k payload
  refine ⟨?_, ?_, nullFree_recordJson k r, IntentStatus.member?_toJson, RiskStatus.member?_toJson⟩
  · rw [read_some, content_of_bare (bare_recordJson k r), hj]
    exact readContent_recordJson k j
  · intro t ht
    rw [hj] at ht
    have htext : IsText t := isText_readContent k j t ht
    exact ⟨htext.nonempty, htext.unpadded.first, htext.unpadded.last, htext.available⟩

end Source

end Interlock
