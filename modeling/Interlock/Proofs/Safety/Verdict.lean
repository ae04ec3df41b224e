import Interlock.Proofs.Monitor.Landings
import Interlock.Proofs.Reading
import Interlock.Safety.Verdict

/-!
# What the verdict rests on

`Verdict.evaluate` of a published snapshot rests on two results alone (`Verdict.ofLast`): those that
the executor and the intent landed last. `Judged` gives the banner as a rule for each case of the
executor's result. What the executor reported before is not remembered: an answer without a usable
payload is judged by its code alone.
-/

namespace Interlock

open Monitor

/-! ## The verdict by the last results -/

/-- The executor's record by its last result. -/
def ExecutorStatus.ofLast (last : Option FetchResult) : ExecutorStatus :=
  ofPayload (last.bind FetchResult.usablePayload)

/-- The intent's record by its last result. -/
def IntentStatus.ofLast (last : Option FetchResult) : IntentStatus :=
  ofPayload (last.bind FetchResult.usablePayload)

/-- The verdict by the last results of the executor and of the intent. -/
def Verdict.ofLast (executor intent : Option FetchResult) : Verdict :=
  let banner := decideBanner (.ofLast executor) (executor.bind FetchResult.status)
  { banner := banner
    automationLocked := banner.locks
    lockRecommended := recommendsLock (.ofLast executor) (.ofLast intent)
    denyCount := (IntentStatus.ofLast intent).denyCount
    evidenceBadCount := (IntentStatus.ofLast intent).evidenceBadCount }

/-- `evaluate` of a published snapshot is `ofLast` of what landed last. -/
theorem Verdict.evaluate_run (es : List Event) :
    evaluate (fresh.run es).snapshot =
      ofLast (lastLanded .executor es) (lastLanded .intent es) := by
  have hexecutor : (fresh.run es).snapshot.executor.canonical =
      ExecutorStatus.ofLast (lastLanded .executor es) := canonical_run es .executor
  have hintent : (fresh.run es).snapshot.intent.canonical =
      IntentStatus.ofLast (lastLanded .intent es) := canonical_run es .intent
  have hresult : (fresh.run es).snapshot.executor.result = lastLanded .executor es :=
    result_run es .executor
  have hcode : (fresh.run es).snapshot.observedExecutorCode =
      (lastLanded .executor es).bind FetchResult.status := by
    rw [Snapshot.observedExecutorCode, hresult]
  simp only [evaluate, ofLast, hexecutor, hintent, hcode]

/-! ## The rules of the banner -/

/-- The last result is a success whose payload `ReportsKillSwitch`. -/
def SeenHalted (last : Option FetchResult) : Prop :=
  ∃ c p error, last = some (.received c (some p) error) ∧ 200 ≤ c ∧ c < 300 ∧ ReportsKillSwitch p

/-- `killSwitch` of `ofLast` if and only if `SeenHalted`. -/
theorem ExecutorStatus.killSwitch_ofLast (last : Option FetchResult) :
    (ofLast last).killSwitch = true ↔ SeenHalted last := by
  unfold ofLast SeenHalted
  rw [killSwitch_ofPayload]
  constructor
  · rintro ⟨p, hp, hreports⟩
    obtain ⟨r, hr, hpayload⟩ := Option.bind_eq_some_iff.1 hp
    obtain ⟨c, error, rfl, hlow, hhigh⟩ := FetchResult.usablePayload_eq_some.1 hpayload
    exact ⟨c, p, error, hr, hlow, hhigh, hreports⟩
  · rintro ⟨c, p, error, rfl, hlow, hhigh, hreports⟩
    exact ⟨p, FetchResult.usablePayload_eq_some.2 ⟨c, error, rfl, hlow, hhigh⟩, hreports⟩

/-- No answer, a code 0 or from 500 upwards, or a `failStreak` from 2 upwards. -/
def SeenFaulty (last : Option FetchResult) : Prop :=
  last = none ∨ (∃ reason, last = some (.unreachable reason)) ∨
    ∃ c p error, last = some (.received c p error) ∧
      (c = 0 ∨ 500 ≤ c ∨ 2 ≤ (ExecutorStatus.ofLast last).failStreak)

/-- The banner by the executor's last result, a rule for each case in the order of precedence. -/
inductive Judged (last : Option FetchResult) : Banner → Prop
  | halted (on : SeenHalted last) :
    Judged last ⟨.halted, "KILL SWITCH ACTIVE: execution halted by design (fail-closed)"⟩
  | unlanded (off : ¬ SeenHalted last) (h : last = none) :
    Judged last ⟨.degraded, "EXECUTOR API UNREACHABLE: automation locked (fail-closed)"⟩
  | unreachable (off : ¬ SeenHalted last) (reason : String)
    (h : last = some (.unreachable reason)) :
    Judged last ⟨.degraded, "EXECUTOR API UNREACHABLE: automation locked (fail-closed)"⟩
  | zero (off : ¬ SeenHalted last) (p : Option Json) (error : Option String)
    (h : last = some (.received 0 p error)) :
    Judged last ⟨.degraded, "EXECUTOR API UNREACHABLE: automation locked (fail-closed)"⟩
  | failing (off : ¬ SeenHalted last) (c : Nat) (p : Option Json) (error : Option String)
    (h : last = some (.received c p error)) (high : 500 ≤ c) :
    Judged last ⟨.degraded,
      "EXECUTOR API ERROR (HTTP " ++ Text.ofNat c ++ "): automation locked (fail-closed)"⟩
  | streak (off : ¬ SeenHalted last) (c : Nat) (p : Option Json) (error : Option String)
    (h : last = some (.received c p error)) (low : 0 < c) (high : c < 500) (n : Nat)
    (record : (ExecutorStatus.ofLast last).failStreak = n) (reached : 2 ≤ n) :
    Judged last ⟨.degraded,
      "EXECUTOR DEGRADED (fail_streak=" ++ Text.ofNat n ++ "): automation locked (fail-closed)"⟩
  | ok (off : ¬ SeenHalted last) (c : Nat) (p : Option Json) (error : Option String)
    (h : last = some (.received c p error)) (low : 0 < c) (high : c < 500)
    (below : (ExecutorStatus.ofLast last).failStreak < 2) : Judged last ⟨.ok, ""⟩

/-- The banner of `ofLast` is `Judged`. -/
theorem judged_ofLast (executor intent : Option FetchResult) :
    Judged executor (Verdict.ofLast executor intent).banner := by
  show Judged executor (decideBanner (.ofLast executor) (executor.bind FetchResult.status))
  unfold decideBanner
  by_cases hkill : (ExecutorStatus.ofLast executor).killSwitch = true
  · rw [if_pos hkill]
    exact .halted ((ExecutorStatus.killSwitch_ofLast executor).1 hkill)
  rw [if_neg hkill]
  have hoff : ¬ SeenHalted executor := by
    rw [← ExecutorStatus.killSwitch_ofLast]
    exact hkill
  -- from here on the code decides, and only between 1 and 499 the streak
  rcases executor with _ | (⟨c, p, error⟩ | ⟨reason⟩)
  · exact .unlanded hoff rfl
  · rcases c with _ | c
    · exact .zero hoff p error rfl
    show Judged _ (if 500 ≤ c + 1 then _ else _)
    by_cases hhigh : 500 ≤ c + 1
    · rw [if_pos hhigh, String.append_assoc]
      exact .failing hoff (c + 1) p error rfl hhigh
    rw [if_neg hhigh]
    by_cases hstreak : failStreakThreshold ≤
        (ExecutorStatus.ofLast (some (.received (c + 1) p error))).failStreak
    · rw [if_pos hstreak, String.append_assoc]
      exact .streak hoff (c + 1) p error rfl (by omega) (by omega) _ rfl hstreak
    · rw [if_neg hstreak]
      exact .ok hoff (c + 1) p error rfl (by omega) (by omega) (Nat.lt_of_not_le hstreak)
  · exact .unreachable hoff reason rfl

/-- `Judged` has three levels: `SeenHalted`, `SeenFaulty`, and neither. -/
theorem Judged.level {last : Option FetchResult} {b : Banner} (h : Judged last b) :
    (b.level = .halted ∧ SeenHalted last) ∨
    (b.level = .degraded ∧ ¬ SeenHalted last ∧ SeenFaulty last) ∨
    (b = ⟨.ok, ""⟩ ∧ ¬ SeenHalted last ∧ ¬ SeenFaulty last) := by
  cases h with
  | halted on => exact .inl ⟨rfl, on⟩
  | unlanded off h => exact .inr (.inl ⟨rfl, off, .inl h⟩)
  | unreachable off reason h => exact .inr (.inl ⟨rfl, off, .inr (.inl ⟨reason, h⟩)⟩)
  | zero off p error h => exact .inr (.inl ⟨rfl, off, .inr (.inr ⟨0, p, error, h, .inl rfl⟩)⟩)
  | failing off c p error h high =>
    exact .inr (.inl ⟨rfl, off, .inr (.inr ⟨c, p, error, h, .inr (.inl high)⟩)⟩)
  | streak off c p error h low high n record reached =>
    subst record
    exact .inr (.inl ⟨rfl, off, .inr (.inr ⟨c, p, error, h, .inr (.inr reached)⟩)⟩)
  | ok off c p error h low high below =>
    refine .inr (.inr ⟨rfl, off, ?_⟩)
    -- none of the three ways of being out of order fits an answer between 1 and 499
    rintro (hnone | ⟨reason, hreason⟩ | ⟨c', p', error', hc', hfaulty⟩)
    · rw [h] at hnone
      cases hnone
    · rw [h] at hreason
      cases hreason
    · rw [h] at hc'
      cases hc'
      omega

theorem Judged.level_eq_halted_iff {last : Option FetchResult} {b : Banner} (h : Judged last b) :
    b.level = .halted ↔ SeenHalted last := by
  rcases h.level with ⟨hlevel, hon⟩ | ⟨hlevel, hoff, -⟩ | ⟨rfl, hoff, -⟩
  · simp [hlevel, hon]
  · simp [hlevel, hoff]
  · simp [hoff]

/-- `.degraded` if and only if `SeenFaulty` and not `SeenHalted`. -/
theorem Judged.level_eq_degraded_iff {last : Option FetchResult} {b : Banner} (h : Judged last b) :
    b.level = .degraded ↔ ¬ SeenHalted last ∧ SeenFaulty last := by
  rcases h.level with ⟨hlevel, hon⟩ | ⟨hlevel, hoff, hfaulty⟩ | ⟨rfl, -, hsound⟩
  · simp [hlevel, hon]
  · simp [hlevel, hoff, hfaulty]
  · simp [hsound]

theorem Judged.level_eq_ok_iff {last : Option FetchResult} {b : Banner} (h : Judged last b) :
    b.level = .ok ↔ ¬ SeenHalted last ∧ ¬ SeenFaulty last := by
  rcases h.level with ⟨hlevel, hon⟩ | ⟨hlevel, hoff, hfaulty⟩ | ⟨rfl, hoff, hsound⟩
  · simp [hlevel, hon]
  · simp [hlevel, hfaulty]
  · simp [hoff, hsound]

theorem Judged.message_of_ok {last : Option FetchResult} {b : Banner} (h : Judged last b)
    (hok : b.level = .ok) : b.message = "" := by
  cases h with
  | ok => rfl
  | halted | unlanded | unreachable | zero | failing | streak => cases hok

/-! ## The verdict on the published state -/

/-- `recommendsLock` for `failStreak` from 2 upwards, or an item that denies or is not `evidenceOk`.
-/
theorem recommendsLock_iff (executor : ExecutorStatus) (intent : IntentStatus) :
    recommendsLock executor intent = true ↔
      2 ≤ executor.failStreak ∨ ∃ i ∈ intent.items, i.deny = true ∨ i.evidenceOk = false := by
  unfold recommendsLock failStreakThreshold IntentStatus.denyCount IntentStatus.evidenceBadCount
  simp only [Bool.or_eq_true, decide_eq_true_eq, List.countP_pos_iff, Bool.not_eq_true', or_assoc]
  constructor
  · rintro (hstreak | ⟨i, hi, hdeny⟩ | ⟨i, hi, hevidence⟩)
    · exact .inl hstreak
    · exact .inr ⟨i, hi, .inl hdeny⟩
    · exact .inr ⟨i, hi, .inr hevidence⟩
  · rintro (hstreak | ⟨i, hi, hdeny | hevidence⟩)
    · exact .inl hstreak
    · exact .inr (.inl ⟨i, hi, hdeny⟩)
    · exact .inr (.inr ⟨i, hi, hevidence⟩)

/-- The verdict of every history is `Judged` by the last result of the executor, with the counts of
the intent's items. Two histories that agree on these two results have the same verdict. -/
theorem verdict_of_last_results (es : List Event) :
    let executor := lastLanded .executor es
    let intent := IntentStatus.ofLast (lastLanded .intent es)
    let v := Verdict.evaluate (fresh.run es).snapshot
    Judged executor v.banner ∧
    (v.banner.level = .halted ↔ SeenHalted executor) ∧
    (v.banner.level = .degraded ↔ ¬ SeenHalted executor ∧ SeenFaulty executor) ∧
    (v.banner.level = .ok ↔ ¬ SeenHalted executor ∧ ¬ SeenFaulty executor) ∧
    (v.banner.level = .ok → v.banner.message = "") ∧
    (v.automationLocked = true ↔ v.banner.level ≠ .ok) ∧
    (v.lockRecommended = true ↔ 2 ≤ (ExecutorStatus.ofLast executor).failStreak ∨
      ∃ i ∈ intent.items, i.deny = true ∨ i.evidenceOk = false) ∧
    v.denyCount = intent.items.countP (·.deny) ∧
    v.evidenceBadCount = intent.items.countP (!·.evidenceOk) ∧
    ∀ es', lastLanded .executor es' = executor →
      lastLanded .intent es' = lastLanded .intent es →
      Verdict.evaluate (fresh.run es').snapshot = v := by
  intro executor intent v
  have hv : v = Verdict.ofLast executor (lastLanded .intent es) := Verdict.evaluate_run es
  have hjudged : Judged executor v.banner := by
    rw [hv]
    exact judged_ofLast executor _
  refine ⟨hjudged, hjudged.level_eq_halted_iff, hjudged.level_eq_degraded_iff,
    hjudged.level_eq_ok_iff, hjudged.message_of_ok, ?_, ?_, ?_, ?_, ?_⟩
  · show v.automationLocked = true ↔ _
    rw [hv]
    exact bne_iff_ne
  · rw [hv]
    exact recommendsLock_iff _ _
  · rw [hv]
    rfl
  · rw [hv]
    rfl
  · intro es' hexecutor hintent
    rw [hv, Verdict.evaluate_run, hexecutor, hintent]

/-! ## What unlocks automation -/

/-- `automationLocked` is false if and only if neither `SeenHalted` nor `SeenFaulty`. -/
theorem Verdict.unlocked_ofLast (executor intent : Option FetchResult) :
    (ofLast executor intent).automationLocked = false ↔
      ¬ SeenHalted executor ∧ ¬ SeenFaulty executor := by
  have hlocks : (ofLast executor intent).automationLocked = false ↔
      (ofLast executor intent).banner.level = .ok := bne_eq_false_iff_eq
  rw [hlocks]
  exact (judged_ofLast executor intent).level_eq_ok_iff

/-- Neither `SeenHalted` nor `SeenFaulty`: an answer with a code from 1 to 499, and a usable
payload, if any, with the kill switch off and `failStreak` below 2. -/
theorem inOrder_iff (last : Option FetchResult) :
    ¬ SeenHalted last ∧ ¬ SeenFaulty last ↔
      ∃ c payload error, last = some (.received c payload error) ∧ 0 < c ∧ c < 500 ∧
        ∀ p, (FetchResult.received c payload error).usablePayload = some p →
          ¬ ReportsKillSwitch p ∧ (ExecutorStatus.ofPayload (some p)).failStreak < 2 := by
  constructor
  · rintro ⟨hoff, hsound⟩
    rcases last with _ | (⟨c, payload, error⟩ | ⟨reason⟩)
    · exact absurd (.inl rfl) hsound
    · have hfaulty : ¬ (c = 0 ∨ 500 ≤ c ∨ 2 ≤ (ExecutorStatus.ofLast
          (some (.received c payload error))).failStreak) := by
        intro h
        exact hsound (.inr (.inr ⟨c, payload, error, rfl, h⟩))
      refine ⟨c, payload, error, rfl, by omega, by omega, ?_⟩
      intro p hp
      constructor
      · intro hreports
        obtain ⟨c', error', hreceived, hlow, hhigh⟩ := FetchResult.usablePayload_eq_some.1 hp
        exact hoff ⟨c', p, error', congrArg some hreceived, hlow, hhigh, hreports⟩
      · rw [← hp]
        show (ExecutorStatus.ofLast (some (.received c payload error))).failStreak < 2
        omega
    · exact absurd (.inr (.inl ⟨reason, rfl⟩)) hsound
  · rintro ⟨c, payload, error, rfl, hlow, hhigh, hrecord⟩
    constructor
    · rintro ⟨c', p, error', hreceived, hlow', hhigh', hreports⟩
      have husable := FetchResult.usablePayload_eq_some.2
        ⟨c', error', Option.some.inj hreceived, hlow', hhigh'⟩
      exact (hrecord p husable).1 hreports
    · rintro (hnone | ⟨reason, hreason⟩ | ⟨c', payload', error', hreceived, hfaulty⟩)
      · cases hnone
      · cases hreason
      · cases hreceived
        -- without a usable payload the streak is that of an unknown executor, which is zero
        have hstreak : (ExecutorStatus.ofLast
            (some (.received c payload error))).failStreak < 2 := by
          show (ExecutorStatus.ofPayload
            (FetchResult.received c payload error).usablePayload).failStreak < 2
          cases husable : (FetchResult.received c payload error).usablePayload with
          | none => decide
          | some p => exact (hrecord p husable).2
        omega

/-- Automation is unlocked if and only if the executor's last result is an answer from 1 to 499
without a usable payload that says otherwise. What it reported before is not remembered. -/
theorem unlocked_iff_last_answer (es : List Event) :
    let unlocked (es : List Event) :=
      (Verdict.evaluate (fresh.run es).snapshot).automationLocked = false
    (unlocked es ↔ ∃ c payload error,
      lastLanded .executor es = some (.received c payload error) ∧ 0 < c ∧ c < 500 ∧
        ∀ p, (FetchResult.received c payload error).usablePayload = some p →
          ¬ ReportsKillSwitch p ∧ (ExecutorStatus.ofPayload (some p)).failStreak < 2) ∧
    ∀ r now, (fresh.run es).closed = false → r.usablePayload = none →
      (unlocked (es ++ [.land .executor r now]) ↔ ∃ c, r.status = some c ∧ 0 < c ∧ c < 500) := by
  intro unlocked
  have hunlocked (es : List Event) : unlocked es ↔
      ¬ SeenHalted (lastLanded .executor es) ∧ ¬ SeenFaulty (lastLanded .executor es) := by
    show (Verdict.evaluate (fresh.run es).snapshot).automationLocked = false ↔ _
    rw [Verdict.evaluate_run]
    exact Verdict.unlocked_ofLast _ _
  constructor
  · rw [hunlocked]
    exact inOrder_iff _
  · intro r now hopen hunusable
    rw [hunlocked, lastLanded_concat hopen, inOrder_iff]
    constructor
    · rintro ⟨c, payload, error, hr, hlow, hhigh, -⟩
      cases hr
      exact ⟨c, rfl, hlow, hhigh⟩
    · rintro ⟨c, hstatus, hlow, hhigh⟩
      cases r with
      | unreachable reason => cases hstatus
      | received c' payload error =>
        cases hstatus
        refine ⟨c, payload, error, rfl, hlow, hhigh, ?_⟩
        intro p hp
        rw [hunusable] at hp
        cases hp

/-- After a kill switch or a streak was reported, a 404, a 304 and an empty 200 unlock again. -/
theorem unlocked_without_record :
    let unlocked (es : List Event) :=
      (Verdict.evaluate (fresh.run es).snapshot).automationLocked = false
    let killed := Json.ofMembers [("kill_switch", .bool true)]
    let failing := Json.ofMembers [("fail_streak", .ofNat 2)]
    ∀ p ∈ [killed, failing], ∀ c ∈ [404, 304, 200],
      let before : List Event := [.land .executor (.answer 200 (some p)) ⟨0⟩]
      let after := before ++ [.land .executor (.answer c none) ⟨1⟩]
      ¬ unlocked before ∧ unlocked after ∧ (fresh.run after).snapshot.executor.healthy = false := by
  decide

end Interlock
