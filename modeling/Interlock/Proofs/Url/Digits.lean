import Interlock.Url.Host
import Mathlib.Algebra.Group.Nat.Defs
import Mathlib.Data.List.Basic
import Mathlib.Data.List.Induction
import Mathlib.Data.Nat.Init

/-!
# Numbers in hosts and ports

`readBase?` reads `Nat.toDigits` back, in every base up to sixteen (`readBase?_toDigits`), and
digits write a number below the power of the base that their length gives (`lt_of_readBase?`).
-/

namespace Interlock.Url

open Text

variable {base n : Nat} {c : Char} {cs : List Char}

/-- The digits of all bases up to sixteen. -/
def hexChars : List Char := "0123456789abcdef".toList

theorem digitChar_mem : ∀ d < 16, Nat.digitChar d ∈ hexChars := by decide

/-- `hexValue?` reads `Nat.digitChar` back. -/
theorem hexValue?_digitChar : ∀ d < 16, hexValue? (Nat.digitChar d) = some d := by decide

/-- Induction over the digits of a number. -/
theorem toDigits_induction {motive : Nat → Prop} (hbase : 1 < base)
    (digit : ∀ d < base, motive d)
    (more : ∀ n, base ≤ n → motive (n / base) → motive n) (n : Nat) : motive n := by
  induction n using Nat.strong_induction_on with
  | _ n ih =>
    by_cases hlt : n < base
    · exact digit n hlt
    · exact more n (by omega) (ih _ (Nat.div_lt_self (by omega) hbase))

/-- The digits of a base up to sixteen are `hexChars`. -/
theorem mem_toDigits (hbase : 1 < base) (hle : base ≤ 16) (n : Nat) :
    ∀ c ∈ Nat.toDigits base n, c ∈ hexChars := by
  induction n using toDigits_induction hbase with
  | digit d hd =>
    rw [Nat.toDigits_of_lt_base hd, List.forall_mem_singleton]
    exact digitChar_mem d (by omega)
  | more n hn ih =>
    have hmod := Nat.mod_lt n (show 0 < base by omega)
    rw [Nat.toDigits_of_base_le hbase hn, List.forall_mem_append, List.forall_mem_singleton]
    exact ⟨ih, digitChar_mem _ (by omega)⟩

theorem head?_toDigits (hbase : 1 < base) (hle : base ≤ 16) (hn : n ≠ 0) :
    (Nat.toDigits base n).head? ≠ some '0' := by
  have hdigit : ∀ d < 16, d ≠ 0 → Nat.digitChar d ≠ '0' := by decide
  induction n using toDigits_induction hbase with
  | digit d hd =>
    rw [Nat.toDigits_of_lt_base hd]
    intro h
    exact hdigit d (by omega) hn (Option.some.inj h)
  | more n hge ih =>
    have hquot : n / base ≠ 0 := by
      have hpos := Nat.div_pos hge (show 0 < base by omega)
      omega
    rw [Nat.toDigits_of_base_le hbase hge, List.head?_append_of_ne_nil _ Nat.toDigits_ne_nil]
    exact ih hquot

/-! ## Reading digits -/

/-- `readBase?` with one more digit. -/
theorem readBase?_append_singleton (base : Nat) (cs : List Char) (c : Char) :
    readBase? base (cs ++ [c]) =
      match readBase? base cs, hexValue? c with
      | some n, some d => if d < base then some (n * base + d) else none
      | _, _ => none := by
  unfold readBase?
  rw [List.foldl_append]
  rfl

theorem readBase?_toDigits (hbase : 1 < base) (hle : base ≤ 16) (n : Nat) :
    readBase? base (Nat.toDigits base n) = some n := by
  induction n using toDigits_induction hbase with
  | digit d hd =>
    rw [Nat.toDigits_of_lt_base hd, ← List.nil_append [d.digitChar], readBase?_append_singleton,
      hexValue?_digitChar d (by omega)]
    show (if d < base then some (0 * base + d) else none) = some d
    rw [if_pos hd, Nat.zero_mul, Nat.zero_add]
  | more n hge ih =>
    have hmod := Nat.mod_lt n (show 0 < base by omega)
    rw [Nat.toDigits_of_base_le hbase hge, readBase?_append_singleton, ih,
      hexValue?_digitChar _ (by omega)]
    show (if n % base < base then some (n / base * base + n % base) else none) = some n
    rw [if_pos hmod, Nat.mul_comm, Nat.div_add_mod]

/-- `readBase? base cs` is below `base ^ cs.length`. -/
theorem lt_of_readBase? (cs : List Char) :
    ∀ {n : Nat}, readBase? base cs = some n → n < base ^ cs.length := by
  induction cs using List.reverseRecOn with
  | nil =>
    intro n h
    rw [← Option.some.inj (show some 0 = some n from h)]
    exact Nat.one_pos
  | append_singleton cs c ih =>
    intro n h
    rw [readBase?_append_singleton] at h
    split at h
    · next m d hm hd =>
      split at h
      · next hlt =>
        have hless := ih hm
        rw [← Option.some.inj h, List.length_append, List.length_singleton, Nat.pow_succ]
        calc m * base + d < m * base + base := Nat.add_lt_add_left hlt _
          _ = (m + 1) * base := (Nat.succ_mul m base).symm
          _ ≤ base ^ cs.length * base := Nat.mul_le_mul_right base hless
      · cases h
    · cases h

/-! ## Decimal numbers -/

theorem isDigit_of_mem_toDigits (h : c ∈ Nat.toDigits 10 n) : isDigit c = true :=
  Nat.isDigit_of_mem_toDigits (by decide) (by decide) h

theorem digitsValue_toDigits (n : Nat) : digitsValue 0 (Nat.toDigits 10 n) = n := by
  have hdigit : ∀ d < 10, digitValue (Nat.digitChar d) = d := by decide
  unfold digitsValue
  induction n using toDigits_induction (show 1 < 10 by decide) with
  | digit d hd =>
    rw [Nat.toDigits_of_lt_base hd, List.foldl_cons, List.foldl_nil, hdigit d hd]
    omega
  | more n hge ih =>
    rw [Nat.toDigits_of_base_le (by decide) hge, List.foldl_append, ih, List.foldl_cons,
      List.foldl_nil, hdigit _ (by omega)]
    omega

end Interlock.Url
