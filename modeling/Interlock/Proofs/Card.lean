import Interlock.Card
import Interlock.Proofs.Monitor.Landings
import Interlock.Proofs.Status.Canonical
import Interlock.Proofs.Url.Digits
import Mathlib.Data.List.Forall2
import Mathlib.Data.List.Infix

/-!
# A card shows the latest record or nothing

`Card.fields s k` shows the record that the latest result of `k` brought. If it brought none
(`Brings`), every value is `notAvailable` under the `labels` of `k.unknown`, so nothing of an
earlier record is left.

* `Subject`: what a line is about, and `subjects` the lines of a record. Every text that a record
  reports has its line (`texts_subjects`).
* `Shows`: how a line shows its subject, and `lines_recordFields` that `recordFields` is made so.
* `Flags`: the words of `itemFlags`, with what makes the item count.
* `Shows.eq_notAvailable_iff`: a value is `notAvailable` if and only if its subject is `Missing`. No
  reported text is that word.
* `fields_of_not_brings`, `fields_of_brings`: the card after a history of results.
* `lines_read`, `items_read`: what the card of `k.read payload` shows.
-/

namespace Interlock.Card

open Text Reading

/-! ## What a line is about -/

/-- What a line of a card is about. -/
inductive Subject
  | flag (b : Bool)
  | count (n : Nat)
  | text (value : Reported String)
  | number (value : Reported Nat)
  /-- The size of a ledger. -/
  | size (value : Reported Nat)
  /-- A text of which only the start is shown if it is long. -/
  | hash (value : Reported String)
  | list (values : List String)
  | item (i : IntentItem)

namespace Subject

/-- There is nothing to be shown. -/
def Missing : Subject → Prop
  | text value => value = none
  | number value => value = none
  | size value => value = none
  | hash value => value = none
  | list values => values = []
  | _ => False

/-- The texts of a subject that a source reported. -/
def texts : Subject → List String
  | text value => value.toList
  | hash value => value.toList
  | list values => values
  | item i => i.texts
  | _ => []

end Subject

/-- The subjects of `executorFields`. -/
def executorSubjects (e : ExecutorStatus) : List (String × Subject) := [
  ("kill_switch", .flag e.killSwitch),
  ("fail_streak", .count e.failStreak),
  ("last_http_code", .number e.lastHttpCode),
  ("last_event_id", .text e.lastEventId),
  ("source_path", .text e.sourcePath),
  ("ts_checked", .text e.tsChecked)]

/-- The subjects of `intentFields`. -/
def intentSubjects (i : IntentStatus) : List (String × Subject) :=
  [("event_id", .text i.eventId),
    ("ts", .text i.ts),
    ("execution_mode", .text i.executionMode),
    ("dry_run", .flag i.dryRun),
    ("items", .count i.items.length),
    ("deny", .count i.denyCount),
    ("evidence_bad", .count i.evidenceBadCount)] ++
  (i.error.map fun e => ("error", Subject.text (some e))).toList ++
  i.items.map fun item => ("  item", .item item)

/-- The subjects of `ledgerFields`. -/
def ledgerSubjects (name : String) (l : Ledger) : List (String × Subject) :=
  [(name, .size l.lines), ("  last_hash", .hash l.lastHash)] ++
  (l.schemaExpected.map fun s => ("  schema", Subject.text (some s))).toList

/-- The subjects of `chainFields`. -/
def chainSubjects (c : ChainStatus) : List (String × Subject) :=
  c.ledgers.flatMap fun l => ledgerSubjects l.1 l.2

/-- The subjects of `riskFields`. -/
def riskSubjects (r : RiskStatus) : List (String × Subject) := [
  ("current_regime", .text r.currentRegime),
  ("target_regime", .text r.targetRegime),
  ("cooldown_ms", .count r.cooldownMs),
  ("reasons", .list r.reasons),
  ("missing", .list r.missing)]

/-- The subjects of a record's lines, with their labels. -/
def subjects : (k : Source) → k.Record → List (String × Subject)
  | .intent => intentSubjects
  | .chain => chainSubjects
  | .executor => executorSubjects
  | .risk => riskSubjects

/-- The texts of the `subjects` are those of the record, in their order. -/
theorem texts_subjects (k : Source) (r : k.Record) :
    (subjects k r).flatMap (·.2.texts) = k.texts r := by
  cases k with
  | executor =>
    show (executorSubjects r).flatMap _ = ExecutorStatus.texts r
    simp [executorSubjects, ExecutorStatus.texts, Subject.texts]
  | intent =>
    show (intentSubjects r).flatMap _ = IntentStatus.texts r
    cases herror : r.error <;>
      simp [intentSubjects, IntentStatus.texts, Subject.texts, herror, List.flatMap_map]
  | chain =>
    show (chainSubjects r).flatMap _ = ChainStatus.texts r
    unfold chainSubjects ChainStatus.texts
    rw [List.flatMap_assoc]
    congr 1
    funext l
    cases hschema : l.2.schemaExpected <;>
      simp [ledgerSubjects, Ledger.texts, Subject.texts, hschema]
  | risk =>
    show (riskSubjects r).flatMap _ = RiskStatus.texts r
    simp [riskSubjects, RiskStatus.texts, Subject.texts]

/-! ## How a line shows it -/

/-- The word is one of the words of the text. -/
def Names (word flags : String) : Prop := word.toList <:+: flags.toList

instance (word flags : String) : Decidable (Names word flags) :=
  inferInstanceAs (Decidable (_ <:+: _))

/-- `DENY` is named if and only if `deny` is set, `NO EVIDENCE` if and only if `evidenceOk` is not.
-/
structure Flags (i : IntentItem) (flags : String) : Prop where
  deny : Names "DENY" flags ↔ i.deny = true
  evidence : Names "NO EVIDENCE" flags ↔ i.evidenceOk = false

/-- How a value shows a `Subject`. -/
inductive Shows : Subject → String → Prop
  | missing (x : Subject) (h : x.Missing) : Shows x notAvailable
  | flag (b : Bool) : Shows (.flag b) (boolText b)
  | count (n : Nat) : Shows (.count n) (ofNat n)
  | text (t : String) : Shows (.text (some t)) t
  | number (n : Nat) : Shows (.number (some n)) (ofNat n)
  | size (n : Nat) : Shows (.size (some n)) (ofNat n ++ " lines")
  | hash (t : String) (short : t.toList.length ≤ 16) : Shows (.hash (some t)) t
  | start (t : String) (cs : List Char) (long : 16 < t.toList.length) (length : cs.length = 16)
    (starts : cs <+: t.toList) : Shows (.hash (some t)) (String.ofList cs ++ "…")
  | list (ts : List String) (h : ts ≠ []) : Shows (.list ts) (join ", " ts)
  | item (i : IntentItem) (flags : String) (h : Flags i flags) :
    Shows (.item i) (i.symbol.text id ++ " [" ++ flags ++ "]")

/-- `itemFlags` has the `Flags` of its item. -/
theorem flags_itemFlags (i : IntentItem) : Flags i (itemFlags i) := by
  have hwords : ∀ evidenceOk deny : Bool,
      let flags := itemFlags ⟨none, evidenceOk, deny⟩
      (Names "DENY" flags ↔ deny = true) ∧ (Names "NO EVIDENCE" flags ↔ evidenceOk = false) := by
    decide
  obtain ⟨hdeny, hevidence⟩ := hwords i.evidenceOk i.deny
  exact ⟨hdeny, hevidence⟩

theorem shows_text (value : Reported String) : Shows (.text value) (value.text id) := by
  cases value with
  | none => exact .missing _ rfl
  | some t => exact .text t

/-- `shortHash` shows the first 16 characters of a hash, or all of a shorter one. -/
theorem shows_hash (value : Reported String) :
    Shows (.hash value) (shortHash (value.text id)) := by
  cases value with
  | none =>
    have hword : shortHash notAvailable = notAvailable := by decide
    show Shows _ (shortHash notAvailable)
    rw [hword]
    exact .missing _ rfl
  | some t =>
    show Shows _ (shortHash t)
    unfold shortHash
    split
    · next hlong =>
      refine .start t _ hlong ?_ (List.take_prefix 16 t.toList)
      rw [List.length_take]
      omega
    · next hshort => exact .hash t (Nat.not_lt.1 hshort)

theorem shows_list (values : List String) : Shows (.list values) (listText values) := by
  cases values with
  | nil => exact .missing _ rfl
  | cons t ts => exact .list (t :: ts) (List.cons_ne_nil t ts)

theorem shows_item (i : IntentItem) : Shows (.item i) (itemField i).2 := by
  show Shows _ (i.symbol.text id ++ " [" ++ itemFlags i ++ "]")
  exact .item i _ (flags_itemFlags i)

/-- The label of the subject, with a value that `Shows` it. -/
def Line (x : String × Subject) (f : Field) : Prop := x.1 = f.1 ∧ Shows x.2 f.2

/-- `ledgerFields` is line by line about `ledgerSubjects`. -/
theorem lines_ledger (name : String) (l : Ledger) :
    List.Forall₂ Line (ledgerSubjects name l) (ledgerFields name l) := by
  have hsize : Shows (.size l.lines) (l.lines.text fun n => ofNat n ++ " lines") := by
    cases l.lines with
    | none => exact .missing _ rfl
    | some n => exact .size n
  refine .cons ⟨rfl, hsize⟩ (.cons ⟨rfl, shows_hash l.lastHash⟩ ?_)
  cases l.schemaExpected with
  | none => exact .nil
  | some s => exact .cons ⟨rfl, .text s⟩ .nil

/-- `intentFields`: the values, the error if there is one, and the items. -/
theorem lines_intent (i : IntentStatus) :
    List.Forall₂ Line (intentSubjects i) (intentFields i) := by
  unfold intentSubjects intentFields
  refine List.rel_append (List.rel_append ?_ ?_) ?_
  · simp only [List.forall₂_cons]
    exact ⟨⟨rfl, shows_text _⟩, ⟨rfl, shows_text _⟩, ⟨rfl, shows_text _⟩, ⟨rfl, .flag _⟩,
      ⟨rfl, .count _⟩, ⟨rfl, .count _⟩, ⟨rfl, .count _⟩, .nil⟩
  · cases i.error with
    | none => exact .nil
    | some e => exact .cons ⟨rfl, .text e⟩ .nil
  · rw [List.forall₂_map_left_iff, List.forall₂_map_right_iff, List.forall₂_same]
    intro item _
    exact ⟨rfl, shows_item item⟩

/-- `recordFields` is line by line about `subjects`. -/
theorem lines_recordFields (k : Source) (r : k.Record) :
    List.Forall₂ Line (subjects k r) (recordFields k r) := by
  cases k with
  | executor =>
    have hcode : Shows (.number r.lastHttpCode) (r.lastHttpCode.text ofNat) := by
      cases r.lastHttpCode with
      | none => exact .missing _ rfl
      | some n => exact .number n
    show List.Forall₂ Line (executorSubjects r) (executorFields r)
    simp only [executorSubjects, executorFields, List.forall₂_cons]
    exact ⟨⟨rfl, .flag _⟩, ⟨rfl, .count _⟩, ⟨rfl, hcode⟩, ⟨rfl, shows_text _⟩,
      ⟨rfl, shows_text _⟩, ⟨rfl, shows_text _⟩, .nil⟩
  | intent => exact lines_intent r
  | chain =>
    have hledger (l : String × Ledger) := lines_ledger l.1 l.2
    show List.Forall₂ Line (_ ++ (_ ++ (_ ++ []))) (_ ++ (_ ++ (_ ++ [])))
    exact List.rel_append (hledger _) (List.rel_append (hledger _)
      (List.rel_append (hledger _) .nil))
  | risk =>
    show List.Forall₂ Line (riskSubjects r) (riskFields r)
    simp only [riskSubjects, riskFields, List.forall₂_cons]
    exact ⟨⟨rfl, shows_text _⟩, ⟨rfl, shows_text _⟩, ⟨rfl, .count _⟩, ⟨rfl, shows_list _⟩,
      ⟨rfl, shows_list _⟩, .nil⟩

/-! ## What reads as not available -/

theorem ne_notAvailable {s : String} (c : Char) (hc : c ∈ s.toList)
    (hword : c ∉ notAvailable.toList) : s ≠ notAvailable := by
  rintro rfl
  exact hword hc

/-- A text with `IsText` is not `notAvailable`. -/
theorem text_ne_notAvailable {t : String} (h : IsText t) : t ≠ notAvailable := by
  rintro rfl
  have hsame := h.available
  revert hsame
  decide

theorem ofNat_ne_notAvailable (n : Nat) : ofNat n ≠ notAvailable := by
  intro h
  have hletter : 'n' ∈ (ofNat n).toList := by
    rw [h]
    decide
  unfold ofNat at hletter
  rw [String.toList_ofList] at hletter
  have hdigit := Url.isDigit_of_mem_toDigits hletter
  revert hdigit
  decide

theorem join_ne_notAvailable {ts : List String} (hne : ts ≠ []) (h : ∀ t ∈ ts, IsText t) :
    join ", " ts ≠ notAvailable := by
  match ts with
  | [] => exact absurd rfl hne
  | [t] => exact text_ne_notAvailable (h t List.mem_cons_self)
  | t :: t' :: rest =>
    refine ne_notAvailable ',' ?_ (by decide)
    show ',' ∈ (t ++ ", " ++ join ", " (t' :: rest)).toList
    simp

/-- A value is `notAvailable` if and only if its subject is `Missing`, where all texts of the
subject have `IsText`. -/
theorem Shows.eq_notAvailable_iff {x : Subject} {v : String} (h : Shows x v)
    (htexts : ∀ t ∈ x.texts, IsText t) : v = notAvailable ↔ x.Missing := by
  cases h with
  | missing _ hmissing => exact iff_of_true rfl hmissing
  | flag b =>
    refine iff_of_false ?_ id
    cases b <;> decide
  | count n => exact iff_of_false (ofNat_ne_notAvailable n) id
  | number n => exact iff_of_false (ofNat_ne_notAvailable n) nofun
  | size n => exact iff_of_false (ne_notAvailable 'l' (by simp) (by decide)) nofun
  | text =>
    exact iff_of_false (text_ne_notAvailable (htexts v (List.mem_singleton_self v))) nofun
  | hash =>
    exact iff_of_false (text_ne_notAvailable (htexts v (List.mem_singleton_self v))) nofun
  | start t cs => exact iff_of_false (ne_notAvailable '…' (by simp) (by decide)) nofun
  | list ts hne => exact iff_of_false (join_ne_notAvailable hne htexts) hne
  | item i flags => exact iff_of_false (ne_notAvailable ']' (by simp) (by decide)) id

/-! ## The card after a history of results -/

/-- The latest result is an answer with a code of success and the payload `p`. -/
def Brings (last : Option FetchResult) (p : Json) : Prop :=
  ∃ c error, last = some (.received c (some p) error) ∧ 200 ≤ c ∧ c < 300

/-- The labels of a card without a record. -/
def labels : Source → List String
  | .intent =>
    ["event_id", "ts", "execution_mode", "dry_run", "items", "deny", "evidence_bad"]
  | .chain => ["execution_intent", "  last_hash", "paper_orders", "  last_hash", "paper_fills",
    "  last_hash"]
  | .executor =>
    ["kill_switch", "fail_streak", "last_http_code", "last_event_id", "source_path", "ts_checked"]
  | .risk => ["current_regime", "target_regime", "cooldown_ms", "reasons", "missing"]

theorem labels_recordFields (k : Source) : (recordFields k k.unknown).map Prod.fst = labels k := by
  cases k <;> rfl

/-- `usablePayload` of the latest result is `some p` if and only if it `Brings` `p`. -/
theorem usablePayload_eq_some_iff {last : Option FetchResult} {p : Json} :
    last.bind FetchResult.usablePayload = some p ↔ Brings last p := by
  rw [Option.bind_eq_some_iff]
  constructor
  · rintro ⟨r, rfl, hr⟩
    obtain ⟨c, error, rfl, hcode⟩ := FetchResult.usablePayload_eq_some.1 hr
    exact ⟨c, error, rfl, hcode⟩
  · rintro ⟨c, error, rfl, hcode⟩
    exact ⟨_, rfl, FetchResult.usablePayload_eq_some.2 ⟨c, error, rfl, hcode⟩⟩

variable (es : List Monitor.Event) (k : Source)

/-- If the latest result brings nothing, every value of `fields` is `notAvailable`. -/
theorem fields_of_not_brings (h : ∀ p, ¬ Brings (Monitor.lastLanded k es) p) :
    fields (Monitor.fresh.run es).snapshot k =
      (labels k).map fun label => (label, notAvailable) := by
  have hnone : (Monitor.lastLanded k es).bind FetchResult.usablePayload = none := by
    rw [Option.eq_none_iff_forall_ne_some]
    intro p hp
    exact h p (usablePayload_eq_some_iff.1 hp)
  have hunwell : ¬ ((Monitor.fresh.run es).snapshot.slot k).healthy = true := by
    rw [Monitor.healthy_run, hnone]
    exact Bool.false_ne_true
  unfold fields
  rw [if_neg hunwell, Monitor.canonical_run, hnone, ← labels_recordFields, List.map_map]
  rfl

/-- If the latest result `Brings` `p`, then `fields` are the `recordFields` of `k.read (some p)`. -/
theorem fields_of_brings {p : Json} (h : Brings (Monitor.lastLanded k es) p) :
    ((Monitor.fresh.run es).snapshot.slot k).canonical = k.read (some p) ∧
    fields (Monitor.fresh.run es).snapshot k = recordFields k (k.read (some p)) := by
  have hsome := usablePayload_eq_some_iff.2 h
  have hcanonical : ((Monitor.fresh.run es).snapshot.slot k).canonical = k.read (some p) := by
    rw [Monitor.canonical_run, hsome]
  have hwell : ((Monitor.fresh.run es).snapshot.slot k).healthy = true := by
    rw [Monitor.healthy_run, hsome]
    rfl
  refine ⟨hcanonical, ?_⟩
  unfold fields
  rw [if_pos hwell, hcanonical]

/-- Every line of `recordFields` of `k.read payload` is a `Line`, `notAvailable` if and only if its
subject is `Missing`. -/
theorem lines_read (payload : Option Json) :
    List.Forall₂ (fun x f => Line x f ∧ (f.2 = notAvailable ↔ x.2.Missing))
      (subjects k (k.read payload)) (recordFields k (k.read payload)) := by
  obtain ⟨j, hj⟩ := k.exists_readContent payload
  have hlines := lines_recordFields k (k.read payload)
  refine List.forall₂_iff_get.2 ⟨hlines.length_eq, fun n hx hf => ?_⟩
  have hline := hlines.get hx hf
  refine ⟨hline, hline.2.eq_notAvailable_iff fun t ht => ?_⟩
  have htexts : t ∈ k.texts (k.read payload) := by
    rw [← texts_subjects]
    exact List.mem_flatMap.2 ⟨_, List.get_mem _ _, ht⟩
  rw [hj] at htexts
  exact k.isText_readContent j t htexts

/-- The lines labelled `" item"` are `itemField` of the items. -/
theorem filter_intentFields (i : IntentStatus) :
    (intentFields i).filter (·.1 == "  item") = i.items.map itemField := by
  have hitems : (i.items.map itemField).filter (·.1 == "  item") = i.items.map itemField := by
    rw [List.filter_eq_self]
    intro f hf
    obtain ⟨item, -, rfl⟩ := List.mem_map.1 hf
    rfl
  have herror : (i.error.map fun e => ("error", e)).toList.filter (·.1 == "  item") = [] := by
    cases i.error <;> rfl
  unfold intentFields
  rw [List.filter_append, List.filter_append, herror, hitems]
  rfl

/-- `denyCount` counts the items with `DENY` in their `itemFlags`. -/
theorem denyCount_eq_countP (i : IntentStatus) :
    i.denyCount = i.items.countP (Names "DENY" <| itemFlags ·) := by
  refine List.countP_congr fun item _ => ?_
  rw [decide_eq_true_iff, (flags_itemFlags item).deny]

/-- `evidenceBadCount` counts the items with `NO EVIDENCE` in their `itemFlags`. -/
theorem evidenceBadCount_eq_countP (i : IntentStatus) :
    i.evidenceBadCount = i.items.countP (Names "NO EVIDENCE" <| itemFlags ·) := by
  refine List.countP_congr fun item _ => ?_
  rw [decide_eq_true_iff, (flags_itemFlags item).evidence, Bool.not_eq_true']

/-- Every item of `IntentStatus.ofPayload` has its line, with its symbol and its `Flags`. -/
theorem items_read (payload : Option Json) :
    let i := IntentStatus.ofPayload payload
    (intentFields i).filter (·.1 == "  item") =
      i.items.map (fun item =>
        ("  item", item.symbol.text id ++ " [" ++ itemFlags item ++ "]")) ∧
    ∀ item ∈ i.items, Flags item (itemFlags item) ∧
      (item.symbol.text id = notAvailable ↔ item.symbol = none) := by
  intro i
  refine ⟨filter_intentFields i, fun item hitem => ⟨flags_itemFlags item, ?_⟩⟩
  refine (shows_text item.symbol).eq_notAvailable_iff fun t ht => ?_
  obtain ⟨j, hj⟩ := Source.intent.exists_readContent payload
  have htexts : t ∈ Source.intent.texts (Source.intent.read payload) :=
    List.mem_append_right _ (List.mem_flatMap.2 ⟨item, hitem, ht⟩)
  rw [hj] at htexts
  exact Source.intent.isText_readContent j t htexts

/-- If the latest result of `k` brings nothing, every value of `fields` is `notAvailable`. If it
`Brings` `p`, they show `k.read (some p)` line by line, with the `Flags` of every item, and only
what is `Missing` is `notAvailable`. -/
theorem card_shows_last (es : List Monitor.Event) :
    let s := (Monitor.fresh.run es).snapshot
    (∀ k, (∀ p, ¬ Brings (Monitor.lastLanded k es) p) →
      fields s k = (labels k).map (fun label => (label, notAvailable)) ∧
      ∀ es', (∀ p, ¬ Brings (Monitor.lastLanded k es') p) →
        fields (Monitor.fresh.run es').snapshot k = fields s k) ∧
    (∀ k p, Brings (Monitor.lastLanded k es) p →
      let record := (s.slot k).canonical
      record = k.read (some p) ∧
      (subjects k record).flatMap (·.2.texts) = k.texts record ∧
      List.Forall₂ (fun x f => Line x f ∧ (f.2 = notAvailable ↔ x.2.Missing))
        (subjects k record) (fields s k)) ∧
    (∀ p, Brings (Monitor.lastLanded .intent es) p →
      let i : IntentStatus := s.intent.canonical
      (fields s .intent).filter (·.1 == "  item") = i.items.map (fun item =>
        ("  item", item.symbol.text id ++ " [" ++ itemFlags item ++ "]")) ∧
      (∀ item ∈ i.items, Flags item (itemFlags item) ∧
        (item.symbol.text id = notAvailable ↔ item.symbol = none)) ∧
      i.denyCount = i.items.countP (Names "DENY" <| itemFlags ·) ∧
      i.evidenceBadCount = i.items.countP (Names "NO EVIDENCE" <| itemFlags ·)) := by
  intro s
  refine ⟨fun k hnone => ?_, fun k p hp => ?_, fun p hp => ?_⟩
  · have hfields := fields_of_not_brings es k hnone
    refine ⟨hfields, fun es' hnone' => ?_⟩
    rw [fields_of_not_brings es' k hnone', hfields]
  · obtain ⟨hrecord, hfields⟩ := fields_of_brings es k hp
    intro record
    have hread : record = k.read (some p) := hrecord
    refine ⟨hread, texts_subjects k record, ?_⟩
    rw [hread, hfields]
    exact lines_read k (some p)
  · obtain ⟨hrecord, hfields⟩ := fields_of_brings es .intent hp
    intro i
    have hread : i = IntentStatus.ofPayload (some p) := hrecord
    obtain ⟨hlines, hitems⟩ := items_read (some p)
    rw [hread, hfields]
    exact ⟨hlines, hitems, denyCount_eq_countP _, evidenceBadCount_eq_countP _⟩

-- The source does not answer any more, and nothing is left of the record that it brought before.
example :
    let p := Json.ofMembers [("current_regime", .string "calm")]
    let es : List Monitor.Event := [.land .risk (.answer 200 (some p)) ⟨0⟩]
    let shown := fun es => (fields (Monitor.fresh.run es).snapshot .risk).map Prod.snd
    shown es = ["calm", "n/a", "0", "n/a", "n/a"] ∧
      shown (es ++ [.land .risk (.unreachable "request timed out") ⟨1⟩]) =
        ["n/a", "n/a", "n/a", "n/a", "n/a"] := by
  decide

end Interlock.Card
