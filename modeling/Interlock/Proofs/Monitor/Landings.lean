import Interlock.Proofs.Monitor.Step
import Mathlib.Data.List.Induction

/-!
# What has landed

A result counts if it lands before the monitor is closed. `landings k es` are the results of `k`
that count, in their order, and `lastLanded k es` is the last of them. They decide everything in the
slot of `k` but the fetches that are under way: the slot at rest is `Slot.ofLandings k (landings k
es)` (`atRest_run_fresh`), and all but `lastHttpCode` is a function of `lastLanded k es`
(`result_run`, `canonical_run`, `outcome_run`). The other sources and the fetches that begin play no
part.
-/

namespace Interlock

/-- `usablePayload` is the payload that came with a code `c`, `200 ≤ c < 300`. -/
theorem FetchResult.usablePayload_eq_some {r : FetchResult} {p : Json} :
    r.usablePayload = some p ↔
      ∃ c error, r = .received c (some p) error ∧ 200 ≤ c ∧ c < 300 := by
  cases r with
  | unreachable reason => simp [usablePayload, isSuccess]
  | received c payload error =>
    simp only [usablePayload, isSuccess, isSuccessCode, FetchResult.payload, received.injEq,
      Bool.and_eq_true, decide_eq_true_eq]
    constructor
    · intro h
      split at h
      · next hcode => exact ⟨c, error, ⟨rfl, h, rfl⟩, hcode⟩
      · cases h
    · rintro ⟨_, _, ⟨rfl, rfl, rfl⟩, hcode⟩
      rw [if_pos hcode]

theorem FetchResult.isSome_usablePayload {r : FetchResult} : r.usablePayload.isSome = true ↔
    ∃ c p error, r = .received c (some p) error ∧ 200 ≤ c ∧ c < 300 := by
  rw [Option.isSome_iff_exists]
  constructor
  · rintro ⟨p, hp⟩
    obtain ⟨c, error, hr⟩ := usablePayload_eq_some.1 hp
    exact ⟨c, p, error, hr⟩
  · rintro ⟨c, p, error, hr⟩
    exact ⟨p, usablePayload_eq_some.2 ⟨c, error, hr⟩⟩

namespace Slot

variable {α : Type}

/-- The slot in phase `.idle` with `inFlight = 0`, as if no fetch were under way. -/
def atRest (s : Slot α) : Slot α := { s with phase := .idle, inFlight := 0 }

@[simp] theorem atRest_begin (s : Slot α) : s.begin.atRest = s.atRest := rfl

/-- `settle` commutes with `atRest`. -/
theorem atRest_settle (r : FetchResult) (canonical : α) (now : Instant) (s : Slot α) :
    (s.settle r canonical now).atRest = s.atRest.settle r canonical now := by
  simp [settle, atRest]

/-- `outcomeOf r` is `.success` if and only if `r` has a `usablePayload`. -/
theorem outcomeOf_eq_success {r : FetchResult} :
    outcomeOf r = .success ↔ r.usablePayload.isSome = true := by
  unfold outcomeOf FetchResult.usablePayload
  cases r.isSuccess <;> cases r.payload <;> simp

theorem outcomeOf_eq_error {r : FetchResult} :
    outcomeOf r = .error ↔ ¬ r.usablePayload.isSome = true := by
  rw [← outcomeOf_eq_success]
  cases outcomeOf r <;> simp

/-- The slot at rest in which the results `rs` have landed: result and record are of the last one,
and `lastHttpCode` is the latest code among them all. -/
def ofLandings (k : Source) (rs : List (FetchResult × Instant)) : Slot k.Record where
  phase := .idle
  outcome := rs.getLast?.map fun x => outcomeOf x.1
  result := rs.getLast?.map Prod.fst
  canonical := k.read (rs.getLast?.bind fun x => x.1.usablePayload)
  lastHttpCode := (rs.filterMap fun x => x.1.status).getLast?
  updatedAt := rs.getLast?.map Prod.snd
  inFlight := 0

/-- One more result of `ofLandings` is one more `settle`. -/
theorem ofLandings_concat (k : Source) (rs : List (FetchResult × Instant))
    (x : FetchResult × Instant) : ofLandings k (rs ++ [x]) =
      (ofLandings k rs).settle x.1 (k.read x.1.usablePayload) x.2 := by
  have hcode : ((rs ++ [x]).filterMap fun x => x.1.status).getLast? =
      x.1.status.or (rs.filterMap fun x => x.1.status).getLast? := by
    rw [List.filterMap_append, List.getLast?_append]
    cases hstatus : x.1.status <;> simp [hstatus]
  simp only [ofLandings, settle, hcode, List.getLast?_concat, Option.map_some, Option.bind_some,
    Nat.zero_sub, if_true]

end Slot

namespace Monitor

/-- The result of `k` that an event lands, and when. -/
def Event.landed (k : Source) : Event → Option (FetchResult × Instant)
  | .land k' r now => if k' = k then some (r, now) else none
  | _ => none

/-- The results of `k` that land before `.close`, in order. -/
def landings (k : Source) (es : List Event) : List (FetchResult × Instant) :=
  (es.takeWhile (!·.isClose)).filterMap (Event.landed k)

/-- The last result of `landings k es`. -/
def lastLanded (k : Source) (es : List Event) : Option FetchResult :=
  (landings k es).getLast?.map Prod.fst

/-- `settle` for one result after the other. -/
def settleAll (k : Source) (rs : List (FetchResult × Instant)) (s : Slot k.Record) :
    Slot k.Record :=
  rs.foldl (fun s x => s.settle x.1 (k.read x.1.usablePayload) x.2) s

/-- From `Slot.fresh`, `settleAll` leaves `Slot.ofLandings`. -/
theorem settleAll_fresh (k : Source) (rs : List (FetchResult × Instant)) :
    settleAll k rs (Slot.fresh k.unknown) = Slot.ofLandings k rs := by
  induction rs using List.reverseRecOn with
  | nil => rfl
  | append_singleton rs x ih =>
    rw [Slot.ofLandings_concat, ← ih, settleAll, List.foldl_append]
    rfl

/-! ## Single events -/

@[simp] theorem landings_close (k : Source) (es : List Event) : landings k (.close :: es) = [] :=
  rfl

/-- An event other than `.close` adds what it has `landed`. -/
theorem landings_cons {e : Event} (he : e.isClose = false) (k : Source) (es : List Event) :
    landings k (e :: es) = (e.landed k).toList ++ landings k es := by
  unfold landings
  rw [List.takeWhile_cons_of_pos (by simp [he])]
  cases hlanded : e.landed k with
  | none => simp [hlanded]
  | some x => simp [hlanded]

/-- An event other than `.close` leaves an open monitor open, and settles in `atRest` what it has
`landed`. -/
theorem atRest_step {m : Monitor} (h : m.closed = false) {e : Event} (he : e.isClose = false)
    (k : Source) :
    (m.step e).closed = false ∧ ((m.step e).snapshot.slot k).atRest =
      settleAll k (e.landed k).toList (m.snapshot.slot k).atRest := by
  rw [closed_step, slot_step, h, he, if_neg Bool.false_ne_true]
  refine ⟨rfl, ?_⟩
  cases e with
  | close => cases he
  | begin k' =>
    by_cases hk : k' = k
    · rw [Event.onSlot, if_pos hk, Slot.atRest_begin]
      rfl
    · rw [Event.onSlot, if_neg hk]
      rfl
  | land k' r now =>
    by_cases hk : k' = k
    · rw [Event.onSlot, if_pos hk, Slot.atRest_settle, Event.landed, if_pos hk]
      rfl
    · rw [Event.onSlot, if_neg hk, Event.landed, if_neg hk]
      rfl

/-- `.begin k'` leaves every `atRest` as it is. -/
theorem atRest_step_begin (m : Monitor) (k k' : Source) :
    ((m.step (.begin k')).snapshot.slot k).atRest = (m.snapshot.slot k).atRest := by
  rw [slot_step, Event.onSlot]
  split
  · rfl
  · split
    · exact Slot.atRest_begin _
    · rfl

/-! ## Runs -/

/-- `run` does to `atRest` what `settleAll` does with its `landings`. -/
theorem atRest_run {m : Monitor} (h : m.closed = false) (es : List Event) (k : Source) :
    ((m.run es).snapshot.slot k).atRest =
      settleAll k (landings k es) (m.snapshot.slot k).atRest := by
  induction es generalizing m with
  | nil => rfl
  | cons e es ih =>
    show (((m.step e).run es).snapshot.slot k).atRest = _
    cases he : e.isClose with
    | true =>
      cases e with
      | begin | land => cases he
      | close =>
        -- a closed monitor drops whatever lands
        rw [run_of_closed rfl, landings_close]
        rfl
    | false =>
      obtain ⟨hopen, hslot⟩ := atRest_step h he k
      rw [ih hopen, hslot, landings_cons he]
      simp only [settleAll, List.foldl_append]

variable (es : List Event) (k : Source)

/-- The slot of `k` at rest is `Slot.ofLandings k (landings k es)`. -/
theorem atRest_run_fresh :
    ((fresh.run es).snapshot.slot k).atRest = Slot.ofLandings k (landings k es) := by
  have hfresh : (fresh.snapshot.slot k).atRest = Slot.fresh k.unknown := by
    cases k <;> rfl
  rw [atRest_run rfl, hfresh]
  exact settleAll_fresh k _

/-- The `result` of a slot is `lastLanded`. -/
theorem result_run : ((fresh.run es).snapshot.slot k).result = lastLanded k es := by
  show ((fresh.run es).snapshot.slot k).atRest.result = _
  rw [atRest_run_fresh]
  rfl

/-- Where `closed` is not set, a landing becomes `lastLanded`. -/
theorem lastLanded_concat {es : List Event} (h : (fresh.run es).closed = false) (k : Source)
    (r : FetchResult) (now : Instant) : lastLanded k (es ++ [.land k r now]) = some r := by
  have hrun : fresh.run (es ++ [.land k r now]) = (fresh.run es).land k r now := by
    simp [run, step]
  rw [← result_run, hrun]
  simp only [land, h, Bool.false_eq_true, if_false, Snapshot.settle, Snapshot.slot_modify_self,
    Slot.settle]

/-- The record of a slot is `k.read` of the usable payload of `lastLanded`. -/
theorem canonical_run : ((fresh.run es).snapshot.slot k).canonical =
    k.read ((lastLanded k es).bind FetchResult.usablePayload) := by
  show ((fresh.run es).snapshot.slot k).atRest.canonical = _
  rw [atRest_run_fresh, lastLanded, Option.bind_map]
  rfl

theorem lastLanded_eq_none_iff : lastLanded k es = none ↔ landings k es = [] := by
  unfold lastLanded
  rw [Option.map_eq_none_iff, List.getLast?_eq_none_iff]

/-- The `outcome` of a slot is `Slot.outcomeOf` of `lastLanded`. -/
theorem outcome_run :
    ((fresh.run es).snapshot.slot k).outcome = (lastLanded k es).map Slot.outcomeOf := by
  show ((fresh.run es).snapshot.slot k).atRest.outcome = _
  rw [atRest_run_fresh, lastLanded, Option.map_map]
  rfl

/-- A slot is `healthy` if and only if `lastLanded` has a usable payload. -/
theorem healthy_run : ((fresh.run es).snapshot.slot k).healthy =
    ((lastLanded k es).bind FetchResult.usablePayload).isSome := by
  rw [Bool.eq_iff_iff, Slot.healthy, beq_iff_eq, outcome_run]
  cases lastLanded k es with
  | none => simp
  | some r => simp [Slot.outcomeOf_eq_success]

/-- `lastHttpCode` is the code of `lastLanded`, if that has one. -/
theorem lastHttpCode_run {r : FetchResult} {c : Nat} (h : lastLanded k es = some r)
    (hstatus : r.status = some c) : ((fresh.run es).snapshot.slot k).lastHttpCode = some c := by
  obtain ⟨x, hlast, hx⟩ := Option.map_eq_some_iff.1 h
  obtain ⟨before, hlandings⟩ := List.getLast?_eq_some_iff.1 hlast
  show ((fresh.run es).snapshot.slot k).atRest.lastHttpCode = _
  rw [atRest_run_fresh, hlandings, Slot.ofLandings_concat]
  show x.1.status.or _ = some c
  rw [hx, hstatus]
  rfl

theorem lastHttpCode_run_of_none (h : lastLanded k es = none) :
    ((fresh.run es).snapshot.slot k).lastHttpCode = none := by
  show ((fresh.run es).snapshot.slot k).atRest.lastHttpCode = _
  rw [atRest_run_fresh, (lastLanded_eq_none_iff es k).1 h]
  rfl

end Monitor

end Interlock
