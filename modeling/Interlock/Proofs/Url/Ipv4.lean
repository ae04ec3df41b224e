import Interlock.Proofs.Text.Split
import Interlock.Proofs.Url.Digits
import Interlock.Url.Host

/-!
# Addresses of version 4 both ways

`readIpv4` returns numbers below `256 ^ 4` (`lt_of_readIpv4`), and reads `ipv4Text`, four decimal
numbers with points between them, as its number (`readIpv4_ipv4Text`).
-/

namespace Interlock.Url

open Text

variable {n : Nat}

/-! ## The value -/

/-- `k` bytes write a number below `256 ^ k`. -/
theorem foldl_bytes_lt (bytes : List Nat) (h : ∀ b ∈ bytes, b < 256) :
    bytes.foldl (fun n b => n * 256 + b) 0 < 256 ^ bytes.length := by
  induction bytes using List.reverseRecOn with
  | nil => exact Nat.one_pos
  | append_singleton bytes b ih =>
    obtain ⟨hbytes, hb⟩ := List.forall_mem_append.mp h
    have hless := ih hbytes
    have hlast := hb b List.mem_cons_self
    rw [List.foldl_append, List.foldl_cons, List.foldl_nil, List.length_append,
      List.length_singleton, Nat.pow_succ]
    omega

/-- `readIpv4` returns less than `256 ^ 4`: the last number fills what the others leave. -/
theorem lt_of_readIpv4 {name : List Char} (h : readIpv4 name = .ok n) : n < 256 ^ 4 := by
  unfold readIpv4 at h
  dsimp only at h
  split at h
  · cases h
  next numbers hnumbers =>
  split at h
  · cases h
  next hok =>
  simp only [Bool.or_eq_true, decide_eq_true_eq, List.any_eq_true, not_or, not_exists, not_and,
    Nat.not_lt, Nat.not_le] at hok
  obtain ⟨⟨hlength, hfront⟩, hlast⟩ := hok
  have hcount : numbers.length = (properLabels name).length := by
    have hmap := congrArg List.length (mapM_eq_some_iff.mp hnumbers)
    rw [List.length_map, List.length_map] at hmap
    exact hmap.symm
  have hle : numbers.dropLast.length ≤ 4 := by
    rw [List.length_dropLast]
    omega
  have hless := foldl_bytes_lt numbers.dropLast (fun b hb => Nat.lt_succ_of_le (hfront b hb))
  generalize numbers.dropLast.length = k at *
  generalize numbers.dropLast.foldl (fun n b => n * 256 + b) 0 = m at *
  generalize numbers.getLast?.getD 0 = last at *
  rw [← Except.ok.inj h]
  calc m * 256 ^ (4 - k) + last < m * 256 ^ (4 - k) + 256 ^ (4 - k) := Nat.add_lt_add_left hlast _
    _ = (m + 1) * 256 ^ (4 - k) := (Nat.succ_mul m _).symm
    _ ≤ 256 ^ k * 256 ^ (4 - k) := Nat.mul_le_mul_right _ hless
    _ = 256 ^ 4 := by rw [← Nat.pow_add, Nat.add_sub_cancel' hle]

/-! ## The usual form -/

/-- The bytes of an address. -/
def ipv4Bytes (n : Nat) : List Nat := [n / 256 ^ 3, n / 256 ^ 2 % 256, n / 256 % 256, n % 256]

theorem toList_ipv4Text (n : Nat) :
    (ipv4Text n).toList = ['.'].intercalate ((ipv4Bytes n).map (Nat.toDigits 10)) := by
  unfold ipv4Text
  rw [toList_join, List.map_map]
  congr 1
  apply List.map_congr_left
  intro b _
  exact String.toList_ofList

/-- The labels of `ipv4Text n` are the digits of its bytes. -/
theorem properLabels_ipv4Text (n : Nat) :
    properLabels (ipv4Text n).toList = (ipv4Bytes n).map (Nat.toDigits 10) := by
  have hpoint : ∀ c ∈ hexChars, c ≠ '.' := by decide
  have hlabels : (ipv4Text n).toList.splitOn '.' = (ipv4Bytes n).map (Nat.toDigits 10) := by
    rw [toList_ipv4Text]
    refine List.splitOn_intercalate '.' ?_ (List.cons_ne_nil _ _)
    intro digits hdigits hmem
    obtain ⟨b, -, rfl⟩ := List.mem_map.mp hdigits
    exact hpoint '.' (mem_toDigits (by decide) (by decide) b '.' hmem) rfl
  have hlast : ((ipv4Bytes n).map (Nat.toDigits 10)).getLast? =
      some (Nat.toDigits 10 (n % 256)) := rfl
  unfold properLabels
  dsimp only
  rw [hlabels, hlast, if_neg]
  intro h
  exact Nat.toDigits_ne_nil (Option.some.inj h)

theorem readIpv4Number?_toDigits (n : Nat) : readIpv4Number? (Nat.toDigits 10 n) = some n := by
  by_cases hn : n = 0
  · rw [hn]
    rfl
  · have hread := readBase?_toDigits (show 1 < 10 by decide) (by decide) n
    have hhead := head?_toDigits (show 1 < 10 by decide) (by decide) hn
    unfold readIpv4Number?
    -- a zero in front would ask for another base
    split
    · next heq => exact absurd heq Nat.toDigits_ne_nil
    · next heq => exact absurd (congrArg List.head? heq) hhead
    · next heq => exact absurd (congrArg List.head? heq) hhead
    · next heq => exact absurd (congrArg List.head? heq) hhead
    · next heq => exact absurd (congrArg List.head? heq) hhead
    · exact hread

/-- `ipv4Text` has to be read as an address. -/
theorem endsInNumber_ipv4Text (n : Nat) : endsInNumber (ipv4Text n).toList = true := by
  have hdigits : (Nat.toDigits 10 (n % 256)).all isDigit = true := by
    rw [List.all_eq_true]
    intro c hc
    exact isDigit_of_mem_toDigits hc
  have hlast : ((ipv4Bytes n).map (Nat.toDigits 10)).getLast? =
      some (Nat.toDigits 10 (n % 256)) := rfl
  unfold endsInNumber
  rw [properLabels_ipv4Text, hlast]
  dsimp only
  rw [hdigits, readIpv4Number?_toDigits]
  simp

/-- `readIpv4` of `ipv4Text n` is `n`. -/
theorem readIpv4_ipv4Text (h : n < 256 ^ 4) : readIpv4 (ipv4Text n).toList = .ok n := by
  have hread : ((ipv4Bytes n).map (Nat.toDigits 10)).mapM readIpv4Number? = some (ipv4Bytes n) := by
    rw [mapM_eq_some_iff, List.map_map]
    apply List.map_congr_left
    intro b _
    exact readIpv4Number?_toDigits b
  have hfits : ¬ (4 < ((ipv4Bytes n).map (Nat.toDigits 10)).length ||
      (ipv4Bytes n).dropLast.any (255 < ·) ||
      Nat.pow 256 (4 - (ipv4Bytes n).dropLast.length) ≤ (ipv4Bytes n).getLast?.getD 0) = true := by
    simp [ipv4Bytes]
    omega
  unfold readIpv4
  rw [properLabels_ipv4Text]
  dsimp only
  rw [hread]
  dsimp only
  rw [if_neg hfits]
  simp [ipv4Bytes]
  omega

end Interlock.Url
