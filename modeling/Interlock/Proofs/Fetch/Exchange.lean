import Interlock.Fetch.Exchange
import Interlock.Proofs.Monitor.Landings

/-!
# Results of exchanges

Every exchange with the server has a result, `Exchange.toResult`, and the parts of the result agree
with each other and with the exchange, however far it went.

* `Exchange.Brings`: the one way in which an exchange brings a document.
* `Exchange.Yields`: the three kinds of results, and when an exchange has which.
* `Slot.Shows`, `shows_settle`, `shows_run`: what a slot shows when `x.toResult` lands in it, and as
  long as that is `Monitor.lastLanded`.
* `exchange_decides_slot`: all of it together.
-/

namespace Interlock

namespace Exchange

/-! ## The result of an exchange -/

/-- The code that an exchange received, whether or not its body arrived. -/
def status? : Exchange → Option Nat
  | .failed _ => none
  | .cut status _ => some status
  | .complete status _ _ => some status

/-- `x.Brings j`: `x` is complete with a code of success, and its body, which is not all blank,
reads as `j`. -/
def Brings (x : Exchange) (j : Json) : Prop :=
  ∃ status body text, x = .complete status body text ∧ 200 ≤ status ∧ status < 300 ∧
    (∃ b ∈ body, isBlankByte b = false) ∧ Json.readBytes body = .ok j

/-- The result of an exchange, by what it `Brings`. -/
inductive Yields (x : Exchange) : FetchResult → Prop
  /-- A document, and nothing is wrong. -/
  | document (status : Nat) (j : Json) (hstatus : x.status? = some status) (hlow : 200 ≤ status)
    (hhigh : status < 300) (h : x.Brings j) : Yields x (.received status (some j) none)
  /-- A code, and why there is no document. -/
  | code (status : Nat) (why : String) (hstatus : x.status? = some status)
    (h : ∀ j, ¬ x.Brings j) : Yields x (.received status none (some why))
  /-- Why there is not even a code. -/
  | nothing (why : String) (hstatus : x.status? = none) (h : ∀ j, ¬ x.Brings j) :
    Yields x (.unreachable why)

theorem brings_complete_iff (status : Nat) (body : List UInt8) (text : String) (j : Json) :
    (complete status body text).Brings j ↔ isSuccessCode status = true ∧
      body.all isBlankByte = false ∧ Json.readBytes body = .ok j := by
  unfold Brings isSuccessCode
  rw [Bool.and_eq_true, decide_eq_true_eq, decide_eq_true_eq, List.all_eq_false]
  constructor
  · rintro ⟨_, _, _, ⟨rfl, rfl, rfl⟩, hlow, hhigh, ⟨b, hb, hblank⟩, hread⟩
    exact ⟨⟨hlow, hhigh⟩, ⟨b, hb, by simp [hblank]⟩, hread⟩
  · rintro ⟨⟨hlow, hhigh⟩, ⟨b, hb, hblank⟩, hread⟩
    exact ⟨status, body, text, rfl, hlow, hhigh, ⟨b, hb, by simpa using hblank⟩, hread⟩

/-- `x.toResult` is the result that `x` yields. -/
theorem yields_toResult (x : Exchange) : x.Yields x.toResult := by
  cases x with
  | failed fault =>
    refine .nothing _ rfl ?_
    rintro j ⟨_, _, _, ⟨⟩, -⟩
  | cut status fault =>
    refine .code status _ rfl ?_
    rintro j ⟨_, _, _, ⟨⟩, -⟩
  | complete status body text =>
    -- the three checks in their order; the first that fails says why there is no document
    have hnone (h : ¬ (isSuccessCode status = true ∧ body.all isBlankByte = false ∧
        ∃ j, Json.readBytes body = .ok j)) (j : Json) : ¬ (complete status body text).Brings j := by
      rw [brings_complete_iff]
      rintro ⟨hcode, hblank, hread⟩
      exact h ⟨hcode, hblank, j, hread⟩
    cases hcode : isSuccessCode status with
    | false =>
      have hresult : (complete status body text).toResult =
          .received status none (some ("HTTP " ++ Text.ofNat status)) := by
        simp [toResult, hcode]
      rw [hresult]
      exact .code status _ rfl (hnone fun h => by simp [hcode] at h)
    | true =>
      cases hblank : body.all isBlankByte with
      | true =>
        have hresult : (complete status body text).toResult =
            .received status none (some "empty body") := by
          simp only [toResult, hcode, hblank]
          rfl
        rw [hresult]
        exact .code status _ rfl (hnone fun h => by simp [hblank] at h)
      | false =>
        cases hread : Json.readBytes body with
        | error e =>
          have hresult : (complete status body text).toResult =
              .received status none (some ("unparsable body: " ++ e.message)) := by
            simp only [toResult, hcode, hblank, hread]
            rfl
          rw [hresult]
          refine .code status _ rfl (hnone ?_)
          rintro ⟨-, -, j, hj⟩
          rw [hread] at hj
          cases hj
        | ok j =>
          have hresult : (complete status body text).toResult = .received status (some j) none := by
            simp only [toResult, hcode, hblank, hread]
            rfl
          have hbrings := (brings_complete_iff status body text j).mpr ⟨hcode, hblank, hread⟩
          obtain ⟨_, _, _, ⟨⟩, hlow, hhigh, -⟩ := id hbrings
          rw [hresult]
          exact .document status j rfl hlow hhigh hbrings

theorem Brings.unique {x : Exchange} {j j' : Json} (h : x.Brings j) (h' : x.Brings j') :
    j = j' := by
  obtain ⟨_, _, _, rfl, -, -, -, hread⟩ := h
  obtain ⟨_, _, _, ⟨⟩, -, -, -, hread'⟩ := h'
  rw [hread] at hread'
  exact Except.ok.inj hread'

namespace Yields

variable {x : Exchange} {r : FetchResult} (h : x.Yields r)
include h

/-- `r.status` is the code that was received. -/
theorem status : r.status = x.status? := by
  cases h with
  | document status j hstatus | code status why hstatus => exact hstatus.symm
  | nothing why hstatus => exact hstatus.symm

/-- `r.transportFailed` if and only if `r.status = none`. -/
theorem transportFailed_iff : r.transportFailed = true ↔ r.status = none := by
  cases h with
  | document | code => exact iff_of_false nofun nofun
  | nothing => exact iff_of_true rfl rfl

/-- `r.payload = some j` if and only if `x.Brings j`. -/
theorem payload_eq_some_iff (j : Json) : r.payload = some j ↔ x.Brings j := by
  cases h with
  | document status j' _ _ _ hbrings =>
    constructor
    · rintro ⟨⟩
      exact hbrings
    · intro hj
      exact congrArg some (hbrings.unique hj)
  | code status why _ hnone | nothing why _ hnone => exact iff_of_false nofun (hnone j)

theorem error_eq_none_iff : r.error = none ↔ ∃ j, r.payload = some j := by
  cases h with
  | document status j => exact iff_of_true rfl ⟨j, rfl⟩
  | code | nothing =>
    refine iff_of_false nofun ?_
    rintro ⟨j, ⟨⟩⟩

/-- No payload is left unused: it came with a code of success. -/
theorem usablePayload : r.usablePayload = r.payload := by
  cases h with
  | document status j hstatus hlow hhigh =>
    exact FetchResult.usablePayload_eq_some.mpr ⟨status, none, rfl, hlow, hhigh⟩
  | code => exact ite_self _
  | nothing => rfl

end Yields

end Exchange

/-! ## The slot after an exchange -/

/-- What a slot shows of `x`: `x.toResult`, `healthy` if `x` brings a document, and the record of
the document or `k.unknown`. -/
structure Slot.Shows {k : Source} (s : Slot k.Record) (x : Exchange) : Prop where
  result : s.result = some x.toResult
  healthy : s.healthy = true ↔ ∃ j, x.Brings j
  record : ∀ j, x.Brings j → s.canonical = k.read (some j)
  default : (∀ j, ¬ x.Brings j) → s.canonical = k.unknown

namespace Exchange

variable {k : Source} (x : Exchange)

/-- A slot whose result, outcome and record are made of `x.toResult` shows `x`. -/
theorem shows_of_result {s : Slot k.Record} (hresult : s.result = some x.toResult)
    (houtcome : s.outcome = some (Slot.outcomeOf x.toResult))
    (hcanonical : s.canonical = k.read x.toResult.usablePayload) : s.Shows x := by
  have hyields := x.yields_toResult
  rw [hyields.usablePayload] at hcanonical
  have hpayload := hyields.payload_eq_some_iff
  refine ⟨hresult, ?_, ?_, ?_⟩
  · have hhealthy : s.healthy = true ↔ Slot.outcomeOf x.toResult = .success := by
      unfold Slot.healthy
      rw [houtcome, beq_iff_eq, Option.some.injEq]
    rw [hhealthy, Slot.outcomeOf_eq_success, hyields.usablePayload, Option.isSome_iff_exists]
    exact exists_congr hpayload
  · intro j hj
    rw [hcanonical, (hpayload j).mpr hj]
  · intro hnone
    have hempty : x.toResult.payload = none :=
      Option.eq_none_iff_forall_ne_some.mpr fun j hj => hnone j ((hpayload j).mp hj)
    rw [hcanonical, hempty]
    rfl

/-- `settle x.toResult` makes any slot show `x`. -/
theorem shows_settle (s : Slot k.Record) (now : Instant) :
    (s.settle x.toResult (k.read x.toResult.usablePayload) now).Shows x :=
  x.shows_of_result rfl rfl rfl

/-- Where `x.toResult` is `Monitor.lastLanded`, the slot shows `x`. -/
theorem shows_run (es : List Monitor.Event) (hlast : Monitor.lastLanded k es = some x.toResult) :
    ((Monitor.fresh.run es).snapshot.slot k).Shows x := by
  have hresult := Monitor.result_run es k
  have hcanonical := Monitor.canonical_run es k
  have houtcome := Monitor.outcome_run es k
  rw [hlast] at hresult hcanonical houtcome
  exact x.shows_of_result hresult houtcome hcanonical

/-- The parts of `x.toResult` agree: `status` with `x.status?`, `payload` with `x.Brings`, `error`
and `transportFailed` with these. A slot in which it lands, or in which it is `Monitor.lastLanded`,
shows `x`. -/
theorem exchange_decides_slot :
    (x.toResult.transportFailed = true ↔ x.toResult.status = none) ∧
    (x.toResult.status = none ↔ x.status? = none) ∧
    x.toResult.status = x.status? ∧
    (∀ j, x.toResult.payload = some j ↔ x.Brings j) ∧
    (x.toResult.error = none ↔ ∃ j, x.toResult.payload = some j) ∧
    (∀ (s : Snapshot) (k : Source) (now : Instant),
      ((s.settle k x.toResult now).slot k).Shows x ∧
      (s.settle .executor x.toResult now).observedExecutorCode = x.status?) ∧
    (∀ (es : List Monitor.Event) (k : Source), Monitor.lastLanded k es = some x.toResult →
      ((Monitor.fresh.run es).snapshot.slot k).Shows x ∧
      (k = .executor → (Monitor.fresh.run es).snapshot.observedExecutorCode = x.status?)) := by
  have hyields := x.yields_toResult
  have hstatus := hyields.status
  have hcode {s : Snapshot} (h : (s.slot .executor).Shows x) :
      s.observedExecutorCode = x.status? := by
    show (s.slot .executor).result.bind FetchResult.status = x.status?
    rw [h.result]
    exact hstatus
  have hsettled (s : Snapshot) (k : Source) (now : Instant) :
      ((s.settle k x.toResult now).slot k).Shows x := by
    unfold Snapshot.settle
    rw [Snapshot.slot_modify_self]
    exact x.shows_settle (s.slot k) now
  refine ⟨hyields.transportFailed_iff, by rw [hstatus], hstatus, hyields.payload_eq_some_iff,
    hyields.error_eq_none_iff, ?_, ?_⟩
  · intro s k now
    exact ⟨hsettled s k now, hcode (hsettled s .executor now)⟩
  · intro es k hlast
    have hshows := x.shows_run es hlast
    refine ⟨hshows, ?_⟩
    rintro rfl
    exact hcode hshows

/-- A body that breaks off after the code `503`. -/
theorem exchange_decides_slot_cut :
    (Monitor.fresh.run [.begin .executor, .land .executor (cut 503 .timeout).toResult default,
      .begin .executor]).snapshot.observedExecutorCode = some 503 :=
  ((cut 503 .timeout).exchange_decides_slot.2.2.2.2.2.2 _ .executor rfl).2 rfl

end Exchange

end Interlock
