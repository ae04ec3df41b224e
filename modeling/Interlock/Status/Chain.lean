import Interlock.Status.Reported

/-!
# The audit chain

Three ledgers, each read on its own: a ledger that is missing or malformed says nothing about the
others.
-/

namespace Interlock

/-- One ledger of the audit chain. -/
structure Ledger where
  lines : Reported Nat
  lastHash : Reported String
  schemaExpected : Reported String
  deriving DecidableEq, Repr

/-- The status of the audit chain. -/
structure ChainStatus where
  executionIntent : Ledger
  paperOrders : Ledger
  paperFills : Ledger
  deriving DecidableEq, Repr

namespace Ledger

/-- A ledger of which nothing is known. -/
def unknown : Ledger := ⟨none, none, none⟩

instance : Inhabited Ledger := ⟨unknown⟩

open Reading in
/-- Reads the object of a ledger. -/
def ofObject (j : Json) : Ledger where
  lines := count? (field ["lines"] j)
  lastHash := text? (field ["last_hash", "lastHash"] j)
  schemaExpected := text? (field ["schema_expected", "schemaExpected"] j)

/-- Reads the ledger under one of the given keys. -/
def ofContent (keys : List String) (j : Json) : Ledger :=
  match Reading.objectField keys j with
  | none => unknown
  | some o => ofObject o

/-- The ledger as a document. -/
def toJson (l : Ledger) : Json := .ofMembers [
  ("lines", l.lines.toJson .ofNat),
  ("last_hash", l.lastHash.toJson .string),
  ("schema_expected", l.schemaExpected.toJson .string)]

end Ledger

namespace ChainStatus

/-- The status when no ledger is known. -/
def unknown : ChainStatus := ⟨.unknown, .unknown, .unknown⟩

instance : Inhabited ChainStatus := ⟨unknown⟩

/-- Reads the content of a payload. -/
def ofContent (j : Json) : ChainStatus where
  executionIntent := .ofContent ["execution_intent", "executionIntent"] j
  paperOrders := .ofContent ["paper_orders", "paperOrders"] j
  paperFills := .ofContent ["paper_fills", "paperFills"] j

/-- Reads a payload; without one nothing is known. -/
def ofPayload : Option Json → ChainStatus
  | none => unknown
  | some j => ofContent (Reading.content j)

/-- The ledgers with their names, in the order in which they are shown. -/
def ledgers (c : ChainStatus) : List (String × Ledger) := [
  ("execution_intent", c.executionIntent),
  ("paper_orders", c.paperOrders),
  ("paper_fills", c.paperFills)]

/-- The status as a document. -/
def toJson (c : ChainStatus) : Json := .ofMembers (c.ledgers.map fun l => (l.1, l.2.toJson))

end ChainStatus

end Interlock
