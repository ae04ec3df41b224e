import Interlock.Proofs.Text.Split
import Interlock.Proofs.Url.Digits
import Interlock.Url.Host

/-!
# Addresses of version 6 both ways

`readIpv6` returns eight pieces of two bytes (`groups_of_readIpv6`), and reads `ipv6Text` as its
pieces (`readIpv6_ipv6Text`). `ipv6Text` leaves out the longest run of zeros, so the way back has to
find the double colon that stands for it (`splitGap_append`) and fill in as many zeros
(`exists_longestZeroRun`).
-/

namespace Interlock.Url

open Text

/-- Eight pieces of two bytes. -/
structure Groups (pieces : List Nat) : Prop where
  length : pieces.length = 8
  lt : ∀ p ∈ pieces, p < 0x10000

/-! ## The pieces of an address that has been read -/

theorem lt_of_readByte? {cs : List Char} {n : Nat} (h : readByte? cs = some n) : n < 256 := by
  unfold readByte? at h
  split at h
  · cases h
  · have hlt := (Option.filter_eq_some_iff.mp h).2
    simpa using hlt

/-- An address of version 4 at the end makes two pieces of two bytes. -/
theorem lt_of_readEmbedded? {cs : List Char} {ns : List Nat} (h : readEmbedded? cs = some ns) :
    ∀ n ∈ ns, n < 0x10000 := by
  unfold readEmbedded? at h
  split at h
  · next a b c d hbytes =>
    have hlt : ∀ x ∈ [a, b, c, d], x < 256 := by
      intro x hx
      have hmem : some x ∈ (cs.splitOn '.').map readByte? := by
        rw [mapM_eq_some_iff.mp hbytes]
        exact List.mem_map_of_mem hx
      obtain ⟨label, -, hread⟩ := List.mem_map.mp hmem
      exact lt_of_readByte? hread
    simp only [List.forall_mem_cons, List.not_mem_nil, false_implies, implies_true, and_true] at hlt
    rw [← Option.some.inj h]
    simp only [List.forall_mem_cons, List.not_mem_nil, false_implies, implies_true, and_true]
    omega
  · cases h

theorem lt_of_piece {cs : List Char} {n : Nat} (hlength : ¬ 4 < cs.length)
    (h : readBase? 16 cs = some n) : n < 0x10000 :=
  calc n < 16 ^ cs.length := lt_of_readBase? cs h
    _ ≤ 16 ^ 4 := Nat.pow_le_pow_right (by decide) (Nat.le_of_not_lt hlength)
    _ = 0x10000 := rfl

/-- A piece before others is one to four digits. -/
theorem readPieces?_cons_cons (p q : List Char) (rest : List (List Char)) :
    readPieces? (p :: q :: rest) =
      if p.isEmpty || 4 < p.length then none
      else
        match readBase? 16 p, readPieces? (q :: rest) with
        | some n, some ns => some (n :: ns)
        | _, _ => none :=
  readPieces?.eq_3 p (q :: rest) (List.cons_ne_nil q rest)

/-- `readPieces?` returns pieces of two bytes. -/
theorem lt_of_readPieces? (parts : List (List Char)) :
    ∀ {ns : List Nat}, readPieces? parts = some ns → ∀ n ∈ ns, n < 0x10000 := by
  induction parts with
  | nil =>
    intro ns h
    rw [readPieces?] at h
    rw [← Option.some.inj h]
    exact List.forall_mem_nil _
  | cons p parts ih =>
    intro ns h
    cases parts with
    | nil =>
      rw [readPieces?] at h
      split at h
      · exact lt_of_readEmbedded? h
      · split at h
        · cases h
        · next hok =>
          simp only [Bool.or_eq_true, decide_eq_true_eq, not_or] at hok
          obtain ⟨n, hread, rfl⟩ := Option.map_eq_some_iff.mp h
          rw [List.forall_mem_singleton]
          exact lt_of_piece hok.2 hread
    | cons q rest =>
      rw [readPieces?_cons_cons] at h
      split at h
      · cases h
      · next hok =>
        simp only [Bool.or_eq_true, decide_eq_true_eq, not_or] at hok
        split at h
        · next n ns' hn hns =>
          rw [← Option.some.inj h, List.forall_mem_cons]
          exact ⟨lt_of_piece hok.2 hn, ih hns⟩
        · cases h

/-- `readSide?` returns pieces of two bytes. -/
theorem lt_of_readSide? {cs : List Char} {ns : List Nat} (h : readSide? cs = some ns) :
    ∀ n ∈ ns, n < 0x10000 := by
  unfold readSide? at h
  split at h
  · rw [← Option.some.inj h]
    exact List.forall_mem_nil _
  · exact lt_of_readPieces? _ h

/-- `readIpv6` returns `Groups`. -/
theorem groups_of_readIpv6 {cs : List Char} {pieces : List Nat} (h : readIpv6 cs = .ok pieces) :
    Groups pieces := by
  unfold readIpv6 at h
  split at h
  · split at h
    · next ns hread =>
      split at h
      · next hlength =>
        rw [← Except.ok.inj h]
        exact ⟨hlength, lt_of_readPieces? _ hread⟩
      · cases h
    · cases h
  · split at h
    · next a b hfront hback =>
      split at h
      · cases h
      · next hok =>
        have hless : ¬ 8 ≤ a.length + b.length := fun hle => hok (.inl hle)
        rw [← Except.ok.inj h]
        constructor
        · simp only [List.length_append, List.length_replicate]
          omega
        · refine List.forall_mem_append.mpr ⟨List.forall_mem_append.mpr ⟨?_, ?_⟩, ?_⟩
          · exact lt_of_readSide? hfront
          · intro n hn
            rw [List.eq_of_mem_replicate hn]
            decide
          · exact lt_of_readSide? hback
    · cases h

/-! ## Pieces and colons -/

/-- Pieces in hexadecimal with a colon between each two. -/
def colonChars (ps : List Nat) : List Char := [':'].intercalate (ps.map (Nat.toDigits 16))

theorem toList_join_hexText (ps : List Nat) :
    (join ":" (ps.map hexText)).toList = colonChars ps := by
  unfold colonChars
  rw [toList_join, List.map_map]
  congr 1
  apply List.map_congr_left
  intro p _
  exact String.toList_ofList

theorem colonChars_cons_cons (p q : Nat) (ps : List Nat) :
    colonChars (p :: q :: ps) = Nat.toDigits 16 p ++ ':' :: colonChars (q :: ps) := by
  unfold colonChars
  simp only [List.map_cons, List.intercalate_cons_cons, List.append_assoc, List.singleton_append]

theorem colonChars_singleton (p : Nat) : colonChars [p] = Nat.toDigits 16 p := by
  unfold colonChars
  rw [List.map_singleton, List.intercalate_singleton]

theorem mem_colonChars {ps : List Nat} {c : Char} (h : c ∈ colonChars ps) :
    c = ':' ∨ c ∈ hexChars := by
  rcases mem_intercalate_singleton h with h | ⟨digits, hdigits, hc⟩
  · exact .inl h
  · obtain ⟨p, -, rfl⟩ := List.mem_map.mp hdigits
    exact .inr (mem_toDigits (by decide) (by decide) p c hc)

theorem colon_not_mem_toDigits (p : Nat) : ':' ∉ Nat.toDigits 16 p := by
  have hcolon : ∀ c ∈ hexChars, c ≠ ':' := by decide
  intro hmem
  exact hcolon ':' (mem_toDigits (by decide) (by decide) p ':' hmem) rfl

/-- `colonChars` cut at its colons are the digits of the pieces. -/
theorem splitOn_colonChars {ps : List Nat} (hne : ps ≠ []) :
    (colonChars ps).splitOn ':' = ps.map (Nat.toDigits 16) := by
  refine List.splitOn_intercalate ':' ?_ (mt List.map_eq_nil_iff.mp hne)
  intro digits hdigits
  obtain ⟨p, -, rfl⟩ := List.mem_map.mp hdigits
  exact colon_not_mem_toDigits p

/-- A piece of two bytes has one to four digits. -/
theorem piece_ok {p : Nat} (h : p < 0x10000) :
    ¬ ((Nat.toDigits 16 p).isEmpty || 4 < (Nat.toDigits 16 p).length) = true := by
  have hlength : (Nat.toDigits 16 p).length ≤ 4 :=
    (Nat.length_toDigits_le_iff (by decide) (by decide)).mpr h
  simp only [Bool.or_eq_true, List.isEmpty_iff, decide_eq_true_eq, not_or]
  exact ⟨Nat.toDigits_ne_nil, Nat.not_lt_of_le hlength⟩

theorem readPieces?_toDigits (ps : List Nat) (h : ∀ p ∈ ps, p < 0x10000) :
    readPieces? (ps.map (Nat.toDigits 16)) = some ps := by
  have hread := fun p => readBase?_toDigits (show 1 < 16 by decide) (by decide) p
  induction ps with
  | nil => rfl
  | cons p ps ih =>
    obtain ⟨hp, hps⟩ := List.forall_mem_cons.mp h
    cases ps with
    | nil =>
      have hpoint : ¬ (Nat.toDigits 16 p).contains '.' = true := by
        have hnone : ∀ c ∈ hexChars, c ≠ '.' := by decide
        rw [List.contains_iff_mem]
        intro hmem
        exact hnone '.' (mem_toDigits (by decide) (by decide) p '.' hmem) rfl
      rw [List.map_singleton, readPieces?, if_neg hpoint, if_neg (piece_ok hp), hread]
      rfl
    | cons q ps =>
      rw [List.map_cons, List.map_cons, readPieces?_cons_cons, if_neg (piece_ok hp), hread,
        ← List.map_cons, ih hps]

/-- `readSide?` of `colonChars ps` is `ps`. -/
theorem readSide?_colonChars (ps : List Nat) (h : ∀ p ∈ ps, p < 0x10000) :
    readSide? (colonChars ps) = some ps := by
  unfold readSide?
  cases ps with
  | nil => rfl
  | cons p ps =>
    have hne : ¬ (colonChars (p :: ps)).isEmpty = true := by
      rw [List.isEmpty_iff]
      cases ps with
      | nil =>
        rw [colonChars_singleton]
        exact Nat.toDigits_ne_nil
      | cons q ps =>
        rw [colonChars_cons_cons]
        simp
    rw [if_neg hne, splitOn_colonChars (List.cons_ne_nil p ps), readPieces?_toDigits _ h]

/-! ## The double colon -/

/-- There is no double colon, and none could start with the last character. -/
structure Ungapped (cs : List Char) : Prop where
  none : splitGap cs = none
  last : cs.getLast? ≠ some ':'

theorem splitGap_cons {c : Char} {cs : List Char} (h : ¬ (c = ':' ∧ cs.head? = some ':')) :
    splitGap (c :: cs) = (splitGap cs).map fun ab => (c :: ab.1, ab.2) := by
  rw [splitGap.eq_def]
  split
  · next heq => cases heq
  · next heq =>
    obtain ⟨rfl, rfl⟩ := List.cons.inj heq
    exact absurd ⟨rfl, rfl⟩ h
  · next heq =>
    obtain ⟨rfl, rfl⟩ := List.cons.inj heq
    rfl

/-- `splitGap` finds the first double colon behind an `Ungapped` text. -/
theorem splitGap_append (front back : List Char) (h : Ungapped front) :
    splitGap (front ++ ':' :: ':' :: back) = some (front, back) := by
  obtain ⟨hnone, hlast⟩ := h
  induction front with
  | nil => rw [List.nil_append, splitGap]
  | cons c front ih =>
    have hstart : ¬ (c = ':' ∧ front.head? = some ':') := by
      rintro ⟨rfl, hhead⟩
      obtain ⟨rest, rfl⟩ : ∃ rest, front = ':' :: rest := by
        cases front with
        | nil => cases hhead
        | cons d rest => exact ⟨rest, by rw [Option.some.inj hhead]⟩
      rw [splitGap] at hnone
      cases hnone
    rw [splitGap_cons hstart, Option.map_eq_none_iff] at hnone
    rw [List.cons_append]
    cases front with
    | nil =>
      have hc : c ≠ ':' := fun heq => hlast (by rw [heq]; rfl)
      rw [List.nil_append, splitGap_cons (fun hboth => hc hboth.1), splitGap]
      rfl
    | cons d front =>
      rw [List.getLast?_cons_cons] at hlast
      have hstart' : ¬ (c = ':' ∧ (d :: front ++ ':' :: ':' :: back).head? = some ':') := hstart
      rw [splitGap_cons hstart', ih hnone hlast]
      rfl

/-- `Ungapped` is kept by a part without colons in front. -/
theorem Ungapped.append {part cs : List Char} (hpart : ':' ∉ part) (h : Ungapped cs)
    (hne : cs ≠ []) : Ungapped (part ++ cs) := by
  induction part with
  | nil => exact h
  | cons c part ih =>
    obtain ⟨hc, hrest⟩ := List.ne_and_not_mem_of_not_mem_cons hpart
    obtain ⟨hnone, hlast⟩ := ih hrest
    rw [List.cons_append]
    constructor
    · rw [splitGap_cons (fun hboth => hc hboth.1.symm), hnone]
      rfl
    · obtain ⟨d, ds, heq⟩ :=
        List.exists_cons_of_ne_nil (List.append_ne_nil_of_right_ne_nil part hne)
      rw [heq] at hlast ⊢
      rw [List.getLast?_cons_cons]
      exact hlast

theorem ungapped_of_not_mem {cs : List Char} (h : ':' ∉ cs) : Ungapped cs := by
  constructor
  · induction cs with
    | nil => rfl
    | cons c cs ih =>
      obtain ⟨hc, hcs⟩ := List.ne_and_not_mem_of_not_mem_cons h
      rw [splitGap_cons (fun hboth => hc hboth.1.symm), ih hcs]
      rfl
  · intro hlast
    exact h (List.mem_of_getLast? hlast)

/-- `colonChars` is `Ungapped`. -/
theorem ungapped_colonChars (ps : List Nat) : Ungapped (colonChars ps) := by
  induction ps with
  | nil => exact ungapped_of_not_mem List.not_mem_nil
  | cons p ps ih =>
    cases ps with
    | nil =>
      rw [colonChars_singleton]
      exact ungapped_of_not_mem (colon_not_mem_toDigits p)
    | cons q ps =>
      obtain ⟨hnone, hlast⟩ := ih
      -- the piece behind the colon starts with a digit
      obtain ⟨d, ds, heq, hd⟩ : ∃ d ds, colonChars (q :: ps) = d :: ds ∧ d ≠ ':' := by
        obtain ⟨d, ds, hdigits⟩ := List.exists_cons_of_ne_nil
          (show Nat.toDigits 16 q ≠ [] from Nat.toDigits_ne_nil)
        have hd : d ≠ ':' := by
          rintro rfl
          exact colon_not_mem_toDigits q (by rw [hdigits]; exact List.mem_cons_self)
        cases ps with
        | nil => exact ⟨d, ds, by rw [colonChars_singleton, hdigits], hd⟩
        | cons r ps =>
          exact ⟨d, ds ++ ':' :: colonChars (r :: ps),
            by rw [colonChars_cons_cons, hdigits, List.cons_append], hd⟩
      rw [colonChars_cons_cons]
      refine Ungapped.append (colon_not_mem_toDigits p) ⟨?_, ?_⟩ (List.cons_ne_nil _ _)
      · rw [splitGap_cons, hnone]
        · rfl
        · rw [heq]
          rintro ⟨-, hhead⟩
          exact hd (Option.some.inj hhead)
      · rw [heq] at hlast ⊢
        rw [List.getLast?_cons_cons]
        exact hlast

/-! ## The longest run of zeros -/

/-- Pieces begin with `zeroRun` zeros. -/
theorem eq_zeroRun (ps : List Nat) :
    ps = List.replicate (zeroRun ps) 0 ++ ps.drop (zeroRun ps) := by
  induction ps with
  | nil => rfl
  | cons p ps ih =>
    rw [zeroRun.eq_def]
    split
    · next heq =>
      obtain ⟨rfl, rfl⟩ := List.cons.inj heq
      rw [List.replicate_succ, List.cons_append, List.drop_succ_cons, ← ih]
    · rfl

/-- `longestZeroRun` returns the place and the length of a run of zeros. -/
theorem exists_longestZeroRun (ps : List Nat) : ∀ place, ∃ before after,
    ps = before ++ List.replicate (longestZeroRun place ps).2 0 ++ after ∧
      (0 < (longestZeroRun place ps).2 → (longestZeroRun place ps).1 = place + before.length) := by
  induction ps with
  | nil =>
    intro place
    exact ⟨[], [], rfl, fun h => absurd h (Nat.lt_irrefl 0)⟩
  | cons p ps ih =>
    intro place
    rw [longestZeroRun]
    split
    · exact ⟨[], (p :: ps).drop (zeroRun (p :: ps)), eq_zeroRun (p :: ps), fun _ => rfl⟩
    · obtain ⟨before, after, heq, hplace⟩ := ih (place + 1)
      refine ⟨p :: before, after, ?_, ?_⟩
      · rw [List.cons_append, List.cons_append, ← heq]
      · intro hpos
        rw [hplace hpos, List.length_cons]
        omega

/-! ## The usual form -/

/-- `ipv6Text` is `colonChars`, or those before and behind a double colon for the zeros left out. -/
theorem ipv6Text_cases (pieces : List Nat) :
    (ipv6Text pieces).toList = colonChars pieces ∨
      ∃ before after zeros, pieces = before ++ List.replicate (zeros + 2) 0 ++ after ∧
        (ipv6Text pieces).toList = colonChars before ++ ':' :: ':' :: colonChars after := by
  obtain ⟨before, after, heq, hplace⟩ := exists_longestZeroRun pieces 0
  unfold ipv6Text
  generalize longestZeroRun 0 pieces = run at *
  obtain ⟨place, length⟩ := run
  dsimp only at heq hplace ⊢
  split
  · exact .inl (toList_join_hexText pieces)
  · next hlong =>
    obtain ⟨zeros, rfl⟩ : ∃ zeros, length = zeros + 2 := ⟨length - 2, by omega⟩
    have hstart : place = before.length := by
      have h := hplace (by omega)
      omega
    have htake : pieces.take place = before := by
      rw [heq, hstart, List.append_assoc, List.take_left]
    have hdrop : pieces.drop (place + (zeros + 2)) = after := by
      rw [heq, List.drop_left' (by rw [List.length_append, List.length_replicate, hstart])]
    refine .inr ⟨before, after, zeros, heq, ?_⟩
    rw [htake, hdrop, String.toList_append, String.toList_append, toList_join_hexText,
      toList_join_hexText, List.append_assoc]
    rfl

/-- `readIpv6` of `ipv6Text pieces` is `pieces`. -/
theorem readIpv6_ipv6Text {pieces : List Nat} (h : Groups pieces) :
    readIpv6 (ipv6Text pieces).toList = .ok pieces := by
  obtain ⟨hlength, hlt⟩ := h
  unfold readIpv6
  rcases ipv6Text_cases pieces with hplain | ⟨before, after, zeros, heq, hgap⟩
  · have hne : pieces ≠ [] := by
      rintro rfl
      cases hlength
    rw [hplain, (ungapped_colonChars pieces).none]
    dsimp only
    rw [splitOn_colonChars hne, readPieces?_toDigits pieces hlt]
    dsimp only
    rw [if_pos hlength]
  · rw [heq] at hlt hlength
    obtain ⟨hleft, hafter⟩ := List.forall_mem_append.mp hlt
    obtain ⟨hbefore, -⟩ := List.forall_mem_append.mp hleft
    have hpoint : ¬ (colonChars before).contains '.' = true := by
      have hnone : ∀ c ∈ hexChars, c ≠ '.' := by decide
      rw [List.contains_iff_mem]
      intro hmem
      rcases mem_colonChars hmem with h | h
      · cases h
      · exact hnone '.' h rfl
    simp only [List.length_append, List.length_replicate] at hlength
    have hzeros : 8 - before.length - after.length = zeros + 2 := by omega
    rw [hgap, splitGap_append _ _ (ungapped_colonChars before)]
    dsimp only
    rw [readSide?_colonChars before hbefore, readSide?_colonChars after hafter]
    dsimp only
    rw [if_neg (not_or.mpr ⟨by omega, hpoint⟩), hzeros, heq]

end Interlock.Url
