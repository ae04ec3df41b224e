import Interlock.Fetch.Slot
import Interlock.Source

/-!
# The state of all sources

One slot for each source. A fetch that begins or lands changes the slot of its source alone.
-/

namespace Interlock

/-- The slots of the four sources. -/
structure Snapshot where
  intent : Slot Source.intent.Record
  chain : Slot Source.chain.Record
  executor : Slot Source.executor.Record
  risk : Slot Source.risk.Record

namespace Snapshot

/-- The state before the first fetch. -/
def fresh : Snapshot :=
  ⟨.fresh (Source.unknown .intent), .fresh (Source.unknown .chain),
    .fresh (Source.unknown .executor), .fresh (Source.unknown .risk)⟩

instance : Inhabited Snapshot := ⟨fresh⟩

/-- The slot of a source. -/
def slot (s : Snapshot) : (k : Source) → Slot k.Record
  | .intent => s.intent
  | .chain => s.chain
  | .executor => s.executor
  | .risk => s.risk

/-- Changes the slot of a source. -/
def modify (s : Snapshot) : (k : Source) → (Slot k.Record → Slot k.Record) → Snapshot
  | .intent, f => { s with intent := f s.intent }
  | .chain, f => { s with chain := f s.chain }
  | .executor, f => { s with executor := f s.executor }
  | .risk, f => { s with risk := f s.risk }

/-- A fetch of a source begins. -/
def begin (k : Source) (s : Snapshot) : Snapshot := s.modify k Slot.begin

/-- A result of a source lands; its record is read from the usable part of the result. -/
def settle (k : Source) (r : FetchResult) (now : Instant) (s : Snapshot) : Snapshot :=
  s.modify k (Slot.settle r (k.read r.usablePayload) now)

/-! ## One slot at a time -/

@[simp] theorem slot_modify_self (s : Snapshot) (k : Source) (f : Slot k.Record → Slot k.Record) :
    (s.modify k f).slot k = f (s.slot k) := by
  cases k <;> rfl

theorem slot_modify_of_ne (s : Snapshot) {k k' : Source} (h : k' ≠ k)
    (f : Slot k.Record → Slot k.Record) : (s.modify k f).slot k' = s.slot k' := by
  cases k <;> cases k' <;> first | rfl | exact absurd rfl h

/-- A state is its four slots. -/
theorem ext_slot {s t : Snapshot} (h : ∀ k, s.slot k = t.slot k) : s = t := by
  obtain ⟨i, c, e, r⟩ := s
  obtain ⟨i', c', e', r'⟩ := t
  have hi := h .intent
  have hc := h .chain
  have he := h .executor
  have hr := h .risk
  simp only [slot] at hi hc he hr
  subst hi hc he hr
  rfl

/-! ## Views -/

/-- The code that the executor's latest fetch received; none if it was never fetched or did not
answer. -/
def observedExecutorCode (s : Snapshot) : Option Nat := s.executor.result.bind FetchResult.status

/-- The earlier of two moments, if both are known. -/
def earlier (a b : Option Instant) : Option Instant :=
  match a, b with
  | some a, some b => some (a.min b)
  | _, _ => none

/-- The oldest of the latest landings; none until every source has landed once. -/
def lastFullRefresh (s : Snapshot) : Option Instant :=
  earlier (earlier (earlier s.intent.updatedAt s.chain.updatedAt) s.executor.updatedAt)
    s.risk.updatedAt

end Snapshot

/-- The slot of a source as a document. -/
def slotJson (k : Source) (s : Slot k.Record) : Json := .ofMembers [
  ("phase", .string (match s.phase with
    | .idle => "Idle"
    | .fetching => "Fetching")),
  ("outcome", .ofOption (fun o => .string (match o with
    | FetchOutcome.success => "Success"
    | .error => "Error")) s.outcome),
  ("result", fetchedJson s.result),
  ("canonical", k.recordJson s.canonical),
  ("last_http_code", .ofOption .ofNat s.lastHttpCode),
  ("updated_at", .ofOption (fun t => .string (Instant.text t)) s.updatedAt)]

/-- The state of all sources as a document. -/
def Snapshot.toJson (s : Snapshot) : Json :=
  .ofMembers (Source.all.map fun k => (k.key, slotJson k (s.slot k)))

end Interlock
