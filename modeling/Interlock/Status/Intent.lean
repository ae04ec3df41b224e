import Interlock.Status.Reported

/-!
# The latest intent

The intent that is about to be executed, with the quality of each of its items. An item that does
not confirm its evidence counts as one without evidence, whatever else it holds.
-/

namespace Interlock

/-- One item of an intent: whether its evidence is confirmed and whether it denies execution. -/
structure IntentItem where
  symbol : Reported String
  evidenceOk : Bool
  deny : Bool
  deriving DecidableEq, Repr, Inhabited

/-- The status of the latest intent. -/
structure IntentStatus where
  eventId : Reported String
  ts : Reported String
  executionMode : Reported String
  dryRun : Bool
  error : Reported String
  items : List IntentItem
  deriving DecidableEq, Repr

namespace IntentItem

open Reading in
/-- Reads an item; anything but an object reports nothing. -/
def ofJson (j : Json) : IntentItem :=
  let quality := objectField ["quality"] j
  let effects := quality.bind (objectField ["effects"])
  { symbol := text? (field ["symbol"] j)
    evidenceOk := (flag? (quality.bind (field ["evidence_ok", "evidenceOk"]))).getD false
    deny := (flag? (effects.bind (field ["deny"]))).getD false }

/-- The item as a document. -/
def toJson (i : IntentItem) : Json := .ofMembers [
  ("symbol", i.symbol.toJson .string),
  ("quality", .ofMembers [
    ("evidence_ok", .bool i.evidenceOk),
    ("effects", .ofMembers [("deny", .bool i.deny)])])]

end IntentItem

namespace IntentStatus

/-- The status when no intent is reported. -/
def unknown : IntentStatus := ⟨none, none, none, false, none, []⟩

instance : Inhabited IntentStatus := ⟨unknown⟩

open Reading in
/-- Reads the content of a payload. The mode, the dry run and the items stand in the intent itself
or else beside it. -/
def ofContent (j : Json) : IntentStatus :=
  let intent := objectField ["intent"] j
  let within keys := (intent.bind (field keys)).or (field keys j)
  { eventId := text? (field ["event_id", "eventId"] j)
    ts := text? (field ["ts_iso", "tsIso"] j)
    executionMode := text? (within ["execution_mode", "executionMode"])
    dryRun := (flag? (within ["dry_run", "dryRun"])).getD false
    error := text? (field ["error"] j)
    items := (((within ["items"]).bind Json.items?).map (List.map IntentItem.ofJson)).getD [] }

/-- Reads a payload; without one nothing is known. -/
def ofPayload : Option Json → IntentStatus
  | none => unknown
  | some j => ofContent (Reading.content j)

/-- How many items deny execution. -/
def denyCount (i : IntentStatus) : Nat := i.items.countP (·.deny)

/-- How many items have no confirmed evidence. -/
def evidenceBadCount (i : IntentStatus) : Nat := i.items.countP (!·.evidenceOk)

/-- The status as a document. -/
def toJson (i : IntentStatus) : Json := .ofMembers [
  ("event_id", i.eventId.toJson .string),
  ("ts_iso", i.ts.toJson .string),
  ("execution_mode", i.executionMode.toJson .string),
  ("dry_run", .bool i.dryRun),
  ("error", i.error.toJson .string),
  ("items", .array (i.items.map IntentItem.toJson))]

end IntentStatus

end Interlock
