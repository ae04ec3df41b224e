import Interlock.Fetch.Snapshot

/-!
# Cards

The fields of a source as pairs of a label and a value. A source whose latest fetch brought no
record keeps its labels, but every value reads as not available, so nothing of an earlier record
shows.
-/

namespace Interlock.Card

open Text

/-- A line of a card. -/
abbrev Field := String × String

/-- A truth value in words. -/
def boolText (b : Bool) : String := if b then "true" else "false"

/-- The start of a long hash. -/
def shortHash (s : String) : String :=
  if 16 < s.toList.length then String.ofList (s.toList.take 16) ++ "…" else s

/-- Texts with commas between them. -/
def listText (values : List String) : String :=
  if values.isEmpty then Reading.notAvailable else join ", " values

/-- What is wrong with an item. -/
def itemFlags (i : IntentItem) : String :=
  match i.evidenceOk, i.deny with
  | true, false => "ok"
  | true, true => "DENY"
  | false, false => "NO EVIDENCE"
  | false, true => "DENY, NO EVIDENCE"

/-- The line of an item. -/
def itemField (i : IntentItem) : Field :=
  ("  item", i.symbol.text id ++ " [" ++ itemFlags i ++ "]")

/-- The lines of the executor. -/
def executorFields (e : ExecutorStatus) : List Field := [
  ("kill_switch", boolText e.killSwitch),
  ("fail_streak", ofNat e.failStreak),
  ("last_http_code", e.lastHttpCode.text ofNat),
  ("last_event_id", e.lastEventId.text id),
  ("source_path", e.sourcePath.text id),
  ("ts_checked", e.tsChecked.text id)]

/-- The lines of the intent; the error shows only if there is one. -/
def intentFields (i : IntentStatus) : List Field :=
  [("event_id", i.eventId.text id),
    ("ts", i.ts.text id),
    ("execution_mode", i.executionMode.text id),
    ("dry_run", boolText i.dryRun),
    ("items", ofNat i.items.length),
    ("deny", ofNat i.denyCount),
    ("evidence_bad", ofNat i.evidenceBadCount)] ++
  (i.error.map fun e => ("error", e)).toList ++ i.items.map itemField

/-- The lines of a ledger; the schema shows only if it is known. -/
def ledgerFields (name : String) (l : Ledger) : List Field :=
  [(name, l.lines.text fun n => ofNat n ++ " lines"),
    ("  last_hash", shortHash (l.lastHash.text id))] ++
  (l.schemaExpected.map fun s => ("  schema", s)).toList

/-- The lines of the audit chain. -/
def chainFields (c : ChainStatus) : List Field :=
  c.ledgers.flatMap fun l => ledgerFields l.1 l.2

/-- The lines of the risk regime. -/
def riskFields (r : RiskStatus) : List Field := [
  ("current_regime", r.currentRegime.text id),
  ("target_regime", r.targetRegime.text id),
  ("cooldown_ms", ofNat r.cooldownMs),
  ("reasons", listText r.reasons),
  ("missing", listText r.missing)]

/-- The lines of a record. -/
def recordFields : (k : Source) → k.Record → List Field
  | .intent => intentFields
  | .chain => chainFields
  | .executor => executorFields
  | .risk => riskFields

/-- The lines of a source's card. -/
def fields (s : Snapshot) (k : Source) : List Field :=
  let lines := recordFields k (s.slot k).canonical
  if (s.slot k).healthy then lines else lines.map fun f => (f.1, Reading.notAvailable)

/-- The latest document of a source over several lines. -/
def rawText (s : Snapshot) (k : Source) : String :=
  ((s.slot k).payload.map Json.pretty).getD Reading.notAvailable

end Interlock.Card
