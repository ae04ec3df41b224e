import Interlock.Reading
import Interlock.Status.Executor
import Mathlib.Algebra.Field.Rat
import Mathlib.Algebra.Order.Ring.Rat

/-!
# What a payload reports

What the readers find in a payload, without the way in which they look for it: `Opens` for
`content`, `FirstReported` for `field`, and `SaysYes` for `flag?`. So `killSwitch` is set if and
only if `ReportsKillSwitch`: the content holds, under the first of the two spellings that is not
null, a value that `SaysYes`.
-/

namespace Interlock

/-! ## Numbers by their value -/

/-- The rational number of a double, unless it is infinite or none. -/
def Binary64.value? : Binary64 → Option ℚ
  | .finite s m e => some ((if s then -1 else 1) * m * 2 ^ e)
  | _ => none

/-- The rational number of a number of a document. -/
def Json.Number.value? : Json.Number → Option ℚ
  | .whole i => some i
  | .real x => x.value?

/-- `isZero` if and only if `value?` is `some 0`. -/
theorem Binary64.isZero_iff (x : Binary64) : x.isZero = true ↔ x.value? = some 0 := by
  cases x with
  | infinite | nan => simp [isZero, value?]
  | finite s m e =>
    have hpower : (2 : ℚ) ^ e ≠ 0 := zpow_ne_zero e two_ne_zero
    cases s with
    | false => simp [isZero, value?, hpower]
    | true => simp [isZero, value?, hpower]

namespace Reading

/-! ## Where a value is found -/

/-- `Opens n j c`: with at most `n` envelopes opened, the content of `j` is `c`. An envelope is an
object whose `data` is an object. -/
inductive Opens : Nat → Json → Json → Prop
  /-- No envelope may be opened any more. -/
  | spent (j : Json) : Opens 0 j j
  /-- The document is no envelope. -/
  | bare (n : Nat) (j : Json)
    (h : ∀ inner, j.member? "data" = some inner → inner.isObject = false) : Opens (n + 1) j j
  /-- The document is an envelope, and it is opened. -/
  | envelope (n : Nat) (j inner c : Json) (h : j.member? "data" = some inner)
    (object : inner.isObject = true) (opens : Opens n inner c) : Opens (n + 1) j c

/-- `openEnvelopes` opens what there is to open. -/
theorem opens_openEnvelopes (n : Nat) (j : Json) : Opens n j (openEnvelopes n j) := by
  induction n generalizing j with
  | zero => exact .spent j
  | succ n ih =>
    unfold openEnvelopes
    cases hdata : j.member? "data" with
    | none => exact .bare n j (by simp [hdata])
    | some inner =>
      cases hobject : inner.isObject with
      | false => simpa [hobject] using Opens.bare n j (by simp [hdata, hobject])
      | true => simpa [hobject] using Opens.envelope n j inner _ hdata hobject (ih inner)

theorem Opens.unique {n : Nat} {j c c' : Json} (h : Opens n j c) (h' : Opens n j c') : c = c' := by
  induction h with
  | spent j =>
    cases h'
    rfl
  | bare n j hbare =>
    cases h' with
    | bare => rfl
    | envelope _ _ _ _ hdata hobject _ =>
      rw [hbare _ hdata] at hobject
      cases hobject
  | envelope n j inner c hdata hobject _ ih =>
    cases h' with
    | bare _ _ hbare =>
      rw [hbare _ hdata] at hobject
      cases hobject
    | envelope _ _ _ _ hdata' _ opens' =>
      rw [hdata] at hdata'
      cases hdata'
      exact ih opens'

/-- `content j` is what is left when at most `maxEnvelopes` are opened. -/
theorem opens_iff {j c : Json} : Opens maxEnvelopes j c ↔ content j = c := by
  constructor
  · intro h
    exact (opens_openEnvelopes maxEnvelopes j).unique h
  · rintro rfl
    exact opens_openEnvelopes maxEnvelopes j

/-- `v` is the first member of `j`, in the order of `keys`, that is there and not null. -/
def FirstReported (keys : List String) (j v : Json) : Prop :=
  ∃ before key after, keys = before ++ key :: after ∧ j.member? key = some v ∧ v ≠ .null ∧
    ∀ k ∈ before, j.member? k = none ∨ j.member? k = some .null

theorem filter_isNull_eq_some {o : Option Json} {v : Json} :
    o.filter (fun v => !v.isNull) = some v ↔ o = some v ∧ v ≠ .null := by
  rw [Option.filter_eq_some_iff]
  cases v <;> simp [Json.isNull]

theorem filter_isNull_eq_none {o : Option Json} :
    o.filter (fun v => !v.isNull) = none ↔ o = none ∨ o = some .null := by
  cases o with
  | none => simp
  | some v => cases v <;> simp [Json.isNull]

/-- `field keys j` is the value that is `FirstReported`. -/
theorem field_eq_some_iff {keys : List String} {j v : Json} :
    field keys j = some v ↔ FirstReported keys j v := by
  unfold field FirstReported
  simp only [List.findSome?_eq_some_iff, filter_isNull_eq_some, filter_isNull_eq_none, and_assoc]

/-! ## What a value means -/

/-- The values that mean yes for a switch. -/
inductive SaysYes : Json → Prop
  | bool : SaysYes (.bool true)
  /-- A number other than zero. -/
  | number (n : Json.Number) (h : n.value? ≠ some 0) : SaysYes (.number n)
  /-- A word for yes, in any case and with blank space around it. -/
  | text (s : String) (h : Text.lower (Text.trim s) ∈ ["true", "1", "yes", "on"]) :
    SaysYes (.string s)

/-- `flag?` is `some true` if and only if the value `SaysYes`. -/
theorem flag?_eq_some_true {v : Json} : flag? (some v) = some true ↔ SaysYes v := by
  cases v with
  | null | array | object =>
    constructor
    · intro h
      cases h
    · intro h
      cases h
  | bool b =>
    constructor
    · intro h
      cases h
      exact .bool
    · intro h
      cases h
      rfl
  | number n =>
    have hzero : flag? (some (.number n)) = some true ↔ n.value? ≠ some 0 := by
      cases n with
      | whole i => simp [flag?, Json.Number.value?]
      | real x => simp [flag?, Json.Number.value?, ← x.isZero_iff]
    rw [hzero]
    constructor
    · exact .number n
    · intro h
      cases h with
      | number _ h => exact h
  | string s =>
    have hword : flag? (some (.string s)) = some true ↔
        Text.lower (Text.trim s) ∈ ["true", "1", "yes", "on"] := by
      simp only [flag?, flagOfText?]
      split
      · simp_all
      · split <;> simp_all
    rw [hword]
    constructor
    · exact .text s
    · intro h
      cases h with
      | text _ h => exact h

/-- `flag?` with the default `false` is `true` if and only if there is a value that `SaysYes`. -/
theorem getD_flag?_eq_true {o : Option Json} :
    (flag? o).getD false = true ↔ ∃ v, o = some v ∧ SaysYes v := by
  have hon : (flag? o).getD false = true ↔ flag? o = some true := by
    cases flag? o with
    | none => simp
    | some b => simp
  rw [hon]
  cases o with
  | none => simp [flag?]
  | some v => simp [flag?_eq_some_true]

end Reading

open Reading in
/-- The content reports, under the first spelling that is not null, a value that `SaysYes`. -/
def ReportsKillSwitch (payload : Json) : Prop :=
  ∃ c v, Opens 2 payload c ∧ FirstReported ["kill_switch", "killSwitch"] c v ∧ SaysYes v

open Reading in
/-- `killSwitch` of `ofPayload` is set if and only if the payload `ReportsKillSwitch`. -/
theorem ExecutorStatus.killSwitch_ofPayload (payload : Option Json) :
    (ofPayload payload).killSwitch = true ↔ ∃ p, payload = some p ∧ ReportsKillSwitch p := by
  cases payload with
  | none => simp [ofPayload, unknown]
  | some p =>
    show (flag? (field ["kill_switch", "killSwitch"] (content p))).getD false = true ↔ _
    rw [getD_flag?_eq_true]
    constructor
    · rintro ⟨v, hfield, hyes⟩
      exact ⟨p, rfl, content p, v, opens_iff.2 rfl, field_eq_some_iff.1 hfield, hyes⟩
    · rintro ⟨_, hp, c, v, hopens, hfield, hyes⟩
      cases hp
      rw [opens_iff.1 hopens]
      exact ⟨v, field_eq_some_iff.2 hfield, hyes⟩

end Interlock
