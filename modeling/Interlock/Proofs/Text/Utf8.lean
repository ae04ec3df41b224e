import Interlock.Proofs.Text.Split
import Interlock.Text.Utf8
import Mathlib.Data.List.Basic
import Mathlib.Tactic.IntervalCases

/-!
# UTF-8 both ways

`decode?_eq_some_iff` is the specification of the decoder: `decode?` returns `cs` if and only if the
bytes are `encode cs`. `pieces` reads one character off the front at a time
(`pieces_encodeChar_append`), and a piece that is a character was its encoding
(`eq_encodeChar_append`).
-/

namespace Interlock.Text.Utf8

/-! ## First bytes -/

/-- A byte below `0x80` is a character by itself. -/
theorem lead?_one {k : Nat} (h : k < 0x80) : lead? k = some ⟨0, k, 0, 0⟩ := by
  unfold lead?
  rw [if_pos h]

/-- The first byte of two: from `0xC2`, because `0xC0` and `0xC1` would write a smaller number
again. -/
theorem lead?_two {k : Nat} (h₁ : 2 ≤ k) (h₂ : k < 0x20) :
    lead? (0xC0 + k) = some ⟨1, k, 0x80, 0xBF⟩ := by
  interval_cases k <;> rfl

/-- The first byte of three: the second one must not write a smaller number again and must not write
a surrogate. -/
theorem lead?_three {k : Nat} (h : k < 0x10) :
    lead? (0xE0 + k) =
      some ⟨2, k, if k = 0 then 0xA0 else 0x80, if k = 0xD then 0x9F else 0xBF⟩ := by
  interval_cases k <;> rfl

/-- The first byte of four: the second one must not write a smaller number again and nothing above
the last code point. -/
theorem lead?_four {k : Nat} (h : k < 5) :
    lead? (0xF0 + k) =
      some ⟨3, k, if k = 0 then 0x90 else 0x80, if k = 4 then 0x8F else 0xBF⟩ := by
  interval_cases k <;> rfl

/-- Every `lead?` is one of these. -/
theorem lead?_cases {b : Nat} {l : Lead} (h : lead? b = some l) :
    (b < 0x80 ∧ l = ⟨0, b, 0, 0⟩) ∨
    (∃ k, 2 ≤ k ∧ k < 0x20 ∧ b = 0xC0 + k ∧ l = ⟨1, k, 0x80, 0xBF⟩) ∨
    (∃ k, k < 0x10 ∧ b = 0xE0 + k ∧
      l = ⟨2, k, if k = 0 then 0xA0 else 0x80, if k = 0xD then 0x9F else 0xBF⟩) ∨
    (∃ k, k < 5 ∧ b = 0xF0 + k ∧
      l = ⟨3, k, if k = 0 then 0x90 else 0x80, if k = 4 then 0x8F else 0xBF⟩) := by
  have hlt : b < 0xF5 := by
    by_contra hge
    have hnone : lead? b = none := by
      unfold lead?
      simp only [beq_iff_eq]
      repeat rw [if_neg (by omega)]
    rw [hnone] at h
    cases h
  by_cases h₁ : b < 0x80
  · rw [lead?_one h₁] at h
    exact .inl ⟨h₁, (Option.some.inj h).symm⟩
  by_cases h₂ : b < 0xC2
  · unfold lead? at h
    rw [if_neg h₁, if_pos h₂] at h
    cases h
  by_cases h₃ : b < 0xE0
  · obtain ⟨k, rfl⟩ : ∃ k, b = 0xC0 + k := ⟨b - 0xC0, by omega⟩
    rw [lead?_two (by omega) (by omega)] at h
    exact .inr (.inl ⟨k, by omega, by omega, rfl, (Option.some.inj h).symm⟩)
  by_cases h₄ : b < 0xF0
  · obtain ⟨k, rfl⟩ : ∃ k, b = 0xE0 + k := ⟨b - 0xE0, by omega⟩
    rw [lead?_three (by omega)] at h
    exact .inr (.inr (.inl ⟨k, by omega, rfl, (Option.some.inj h).symm⟩))
  · obtain ⟨k, rfl⟩ : ∃ k, b = 0xF0 + k := ⟨b - 0xF0, by omega⟩
    rw [lead?_four (by omega)] at h
    exact .inr (.inr (.inr ⟨k, by omega, rfl, (Option.some.inj h).symm⟩))

/-! ## Bytes that follow -/

theorem follow_cons {more bits low high : Nat} {b : UInt8} {bs : List UInt8}
    (h : low ≤ b.toNat ∧ b.toNat ≤ high) :
    follow (more + 1) bits low high (b :: bs) =
      follow more (bits * 0x40 + (b.toNat - 0x80)) 0x80 0xBF bs := by
  rw [follow, if_pos h]

/-- If `follow` finds all bytes, the first of them is in its range. -/
theorem exists_of_follow {more bits low high n : Nat} {bs rest : List UInt8}
    (h : follow (more + 1) bits low high bs = ((n, true), rest)) : ∃ b bs', bs = b :: bs' ∧
      low ≤ b.toNat ∧ b.toNat ≤ high ∧
      follow more (bits * 0x40 + (b.toNat - 0x80)) 0x80 0xBF bs' = ((n, true), rest) := by
  cases bs with
  | nil => simp [follow] at h
  | cons b bs =>
    by_cases hb : low ≤ b.toNat ∧ b.toNat ≤ high
    · rw [follow_cons hb] at h
      exact ⟨b, bs, rfl, hb.1, hb.2, h⟩
    · rw [follow, if_neg hb] at h
      simp at h

/-- With no more bytes to come, `follow` returns the bits it has. -/
theorem follow_zero {bits low high n : Nat} {bs rest : List UInt8}
    (h : follow 0 bits low high bs = ((n, true), rest)) : n = bits ∧ rest = bs := by
  rw [follow] at h
  simp only [Prod.mk.injEq, and_true] at h
  exact ⟨h.1.symm, h.2.symm⟩

/-! ## One character -/

theorem toNat_valid (c : Char) : c.toNat < 0xD800 ∨ 0xDFFF < c.toNat ∧ c.toNat < 0x110000 := by
  have h := c.valid
  rcases h with h | h
  · exact .inl h
  · exact .inr h

theorem toNat_ofNat {n : Nat} (h : n < 0xD800 ∨ 0xDFFF < n ∧ n < 0x110000) :
    (Char.ofNat n).toNat = n := by
  unfold Char.ofNat
  rw [dif_pos h]
  rfl

theorem toNat_toUInt8 {n : Nat} (h : n < 0x100) : n.toUInt8.toNat = n := by
  show (UInt8.ofNat n).toNat = n
  rw [UInt8.toNat_ofNat']
  exact Nat.mod_eq_of_lt h

theorem encodeChar_one {c : Char} (h : c.toNat < 0x80) : encodeChar c = [c.toNat.toUInt8] := by
  unfold encodeChar
  exact if_pos h

/-- The two bytes of a character below `0x800`: 5 and 6 bits. -/
theorem encodeChar_two {c : Char} (h₁ : 0x80 ≤ c.toNat) (h₂ : c.toNat < 0x800) :
    encodeChar c = [(0xC0 + c.toNat / 0x40).toUInt8, (0x80 + c.toNat % 0x40).toUInt8] := by
  unfold encodeChar
  dsimp only
  rw [if_neg (by omega), if_pos h₂]

/-- The three bytes of a character below `0x10000`: 4, 6 and 6 bits. -/
theorem encodeChar_three {c : Char} (h₁ : 0x800 ≤ c.toNat) (h₂ : c.toNat < 0x10000) :
    encodeChar c = [(0xE0 + c.toNat / 0x1000).toUInt8, (0x80 + c.toNat / 0x40 % 0x40).toUInt8,
      (0x80 + c.toNat % 0x40).toUInt8] := by
  unfold encodeChar
  dsimp only
  rw [if_neg (by omega), if_neg (by omega), if_pos h₂]

/-- The four bytes of any other character: 3, 6, 6 and 6 bits. -/
theorem encodeChar_four {c : Char} (h : 0x10000 ≤ c.toNat) :
    encodeChar c = [(0xF0 + c.toNat / 0x40000).toUInt8, (0x80 + c.toNat / 0x1000 % 0x40).toUInt8,
      (0x80 + c.toNat / 0x40 % 0x40).toUInt8, (0x80 + c.toNat % 0x40).toUInt8] := by
  unfold encodeChar
  dsimp only
  rw [if_neg (by omega), if_neg (by omega), if_neg (by omega)]

theorem pieces_cons {b : UInt8} {bs rest : List UInt8} {l : Lead} {n : Nat}
    (hl : lead? b.toNat = some l)
    (hf : follow l.more l.bits l.low l.high bs = ((n, true), rest)) :
    pieces (b :: bs) = some (Char.ofNat n) :: pieces rest := by
  rw [pieces, hl]
  simp only [hf, if_true]

/-- `pieces` reads `encodeChar c` as `c`, whatever comes behind it. -/
theorem pieces_encodeChar_append (c : Char) (bs : List UInt8) :
    pieces (encodeChar c ++ bs) = some c :: pieces bs := by
  have hvalid := toNat_valid c
  -- a byte that follows carries six bits
  have hbyte : ∀ m, (0x80 + m % 0x40).toUInt8.toNat = 0x80 + m % 0x40 :=
    fun m => toNat_toUInt8 (by omega)
  have hread : ∀ {b : UInt8} {bs' : List UInt8} {l : Lead}, lead? b.toNat = some l →
      follow l.more l.bits l.low l.high bs' = ((c.toNat, true), bs) →
      pieces (b :: bs') = some c :: pieces bs := by
    intro b bs' l hl hf
    rw [pieces_cons hl hf, Char.ofNat_toNat]
  by_cases h₁ : c.toNat < 0x80
  · have hl : lead? c.toNat.toUInt8.toNat = some ⟨0, c.toNat, 0, 0⟩ := by
      rw [toNat_toUInt8 (by omega)]
      exact lead?_one h₁
    rw [encodeChar_one h₁]
    exact hread hl rfl
  by_cases h₂ : c.toNat < 0x800
  · have hl : lead? (0xC0 + c.toNat / 0x40).toUInt8.toNat =
        some ⟨1, c.toNat / 0x40, 0x80, 0xBF⟩ := by
      rw [toNat_toUInt8 (by omega)]
      exact lead?_two (by omega) (by omega)
    rw [encodeChar_two (by omega) h₂]
    show pieces (_ :: _ :: bs) = _
    apply hread hl
    dsimp only
    rw [follow_cons (by rw [hbyte]; omega), follow, hbyte]
    simp only [Prod.mk.injEq, and_true]
    omega
  by_cases h₃ : c.toNat < 0x10000
  · have hl : lead? (0xE0 + c.toNat / 0x1000).toUInt8.toNat =
        some ⟨2, c.toNat / 0x1000, if c.toNat / 0x1000 = 0 then 0xA0 else 0x80,
          if c.toNat / 0x1000 = 0xD then 0x9F else 0xBF⟩ := by
      rw [toNat_toUInt8 (by omega)]
      exact lead?_three (by omega)
    rw [encodeChar_three (by omega) h₃]
    show pieces (_ :: _ :: _ :: bs) = _
    apply hread hl
    dsimp only
    rw [follow_cons (by rw [hbyte]; constructor <;> split <;> omega),
      follow_cons (by rw [hbyte]; omega), follow, hbyte, hbyte]
    simp only [Prod.mk.injEq, and_true]
    omega
  · have hl : lead? (0xF0 + c.toNat / 0x40000).toUInt8.toNat =
        some ⟨3, c.toNat / 0x40000, if c.toNat / 0x40000 = 0 then 0x90 else 0x80,
          if c.toNat / 0x40000 = 4 then 0x8F else 0xBF⟩ := by
      rw [toNat_toUInt8 (by omega)]
      exact lead?_four (by omega)
    rw [encodeChar_four (by omega)]
    show pieces (_ :: _ :: _ :: _ :: bs) = _
    apply hread hl
    dsimp only
    rw [follow_cons (by rw [hbyte]; constructor <;> split <;> omega),
      follow_cons (by rw [hbyte]; omega), follow_cons (by rw [hbyte]; omega), follow, hbyte,
      hbyte, hbyte]
    simp only [Prod.mk.injEq, and_true]
    omega

/-- What `follow` reads as a character is its `encodeChar`. -/
theorem eq_encodeChar_append {b : UInt8} {bs rest : List UInt8} {l : Lead} {n : Nat}
    (hl : lead? b.toNat = some l)
    (hf : follow l.more l.bits l.low l.high bs = ((n, true), rest)) :
    b :: bs = encodeChar (Char.ofNat n) ++ rest := by
  -- a byte is the number that it is
  have hbyte : ∀ {b : UInt8} {m : Nat}, b.toNat = m → m.toUInt8 = b := by
    intro b m h
    rw [← h]
    exact UInt8.ofNat_toNat
  rcases lead?_cases hl with
    ⟨hb, rfl⟩ | ⟨k, hk₁, hk₂, hb, rfl⟩ | ⟨k, hk, hb, rfl⟩ | ⟨k, hk, hb, rfl⟩
  · obtain ⟨rfl, rfl⟩ := follow_zero hf
    have hn : (Char.ofNat b.toNat).toNat = b.toNat := toNat_ofNat (by omega)
    show b :: rest = encodeChar (Char.ofNat b.toNat) ++ rest
    rw [encodeChar_one (by omega), hn, hbyte rfl]
    rfl
  · obtain ⟨b₁, bs, rfl, hlow, hhigh, hf⟩ := exists_of_follow hf
    obtain ⟨hm, rfl⟩ := follow_zero hf
    dsimp only at hlow hhigh hm
    have hn : (Char.ofNat n).toNat = n := toNat_ofNat (by omega)
    rw [encodeChar_two (by omega) (by omega), hn, hbyte (b := b) (by omega),
      hbyte (b := b₁) (by omega)]
    rfl
  · obtain ⟨b₁, bs, rfl, hlow₁, hhigh₁, hf⟩ := exists_of_follow hf
    obtain ⟨b₂, bs, rfl, hlow₂, hhigh₂, hf⟩ := exists_of_follow hf
    obtain ⟨hm, rfl⟩ := follow_zero hf
    dsimp only at hlow₁ hhigh₁ hm
    -- no number below 0x800 and no surrogate, by the range of the second byte
    have hrange : 0x800 ≤ n ∧ n < 0x10000 ∧ ¬ (0xD800 ≤ n ∧ n ≤ 0xDFFF) := by
      split at hlow₁ <;> split at hhigh₁ <;> omega
    have hlow : 0x80 ≤ b₁.toNat := by split at hlow₁ <;> omega
    have hhigh : b₁.toNat ≤ 0xBF := by split at hhigh₁ <;> omega
    have hn : (Char.ofNat n).toNat = n := toNat_ofNat (by omega)
    rw [encodeChar_three (by omega) (by omega), hn, hbyte (b := b) (by omega),
      hbyte (b := b₁) (by omega), hbyte (b := b₂) (by omega)]
    rfl
  · obtain ⟨b₁, bs, rfl, hlow₁, hhigh₁, hf⟩ := exists_of_follow hf
    obtain ⟨b₂, bs, rfl, hlow₂, hhigh₂, hf⟩ := exists_of_follow hf
    obtain ⟨b₃, bs, rfl, hlow₃, hhigh₃, hf⟩ := exists_of_follow hf
    obtain ⟨hm, rfl⟩ := follow_zero hf
    dsimp only at hlow₁ hhigh₁ hm
    -- no number below 0x10000 and none above the last code point, by the range of the second byte
    have hrange : 0x10000 ≤ n ∧ n < 0x110000 := by
      split at hlow₁ <;> split at hhigh₁ <;> omega
    have hlow : 0x80 ≤ b₁.toNat := by split at hlow₁ <;> omega
    have hhigh : b₁.toNat ≤ 0xBF := by split at hhigh₁ <;> omega
    have hn : (Char.ofNat n).toNat = n := toNat_ofNat (by omega)
    rw [encodeChar_four (by omega), hn, hbyte (b := b) (by omega), hbyte (b := b₁) (by omega),
      hbyte (b := b₂) (by omega), hbyte (b := b₃) (by omega)]
    rfl

/-! ## Byte sequences -/

/-- `pieces` of `encode cs` are the characters `cs`, whatever comes behind. -/
theorem pieces_encode_append (cs : List Char) (bs : List UInt8) :
    pieces (encode cs ++ bs) = cs.map some ++ pieces bs := by
  unfold encode
  induction cs with
  | nil => rfl
  | cons c cs ih =>
    rw [List.flatMap_cons, List.append_assoc, pieces_encodeChar_append, ih]
    rfl

/-- A sequence of bytes whose `pieces` are all characters is their `encode`. -/
theorem eq_encode_of_pieces (bs : List UInt8) :
    ∀ cs : List Char, pieces bs = cs.map some → bs = encode cs := by
  induction bs using pieces.induct with
  | case1 =>
    intro cs h
    rw [pieces] at h
    rw [List.map_eq_nil_iff.mp h.symm]
    rfl
  | case2 b bs hl ih =>
    intro cs h
    rw [pieces, hl] at h
    cases cs with
    | nil => cases h
    | cons c cs => simp at h
  | case3 b bs l hl this r ih =>
    intro cs h
    rw [pieces, hl] at h
    cases cs with
    | nil => cases h
    | cons c cs =>
      obtain ⟨hhead, htail⟩ := List.cons.inj h
      have hall : r.1.2 = true := by
        by_contra hno
        rw [if_neg hno] at hhead
        cases hhead
      rw [if_pos hall] at hhead
      have hf : follow l.more l.bits l.low l.high bs = ((r.1.1, true), r.2) := by
        rw [← hall]
      rw [eq_encodeChar_append hl hf, Option.some.inj hhead, ih cs htail]
      rfl

/-- `decode?` accepts exactly what `encode` returns. -/
theorem decode?_eq_some_iff {bs : List UInt8} {cs : List Char} :
    decode? bs = some cs ↔ bs = encode cs := by
  unfold decode?
  rw [mapM_eq_some_iff, List.map_id]
  constructor
  · exact eq_encode_of_pieces bs cs
  · intro h
    have hpieces := pieces_encode_append cs []
    rw [List.append_nil] at hpieces
    rw [h, hpieces, pieces, List.append_nil]

/-! ## The last character -/

/-- A byte that goes on with a character. -/
def Continues (b : UInt8) : Prop := 0x80 ≤ b.toNat ∧ b.toNat < 0xC0

/-- `encodeChar` starts with a byte that does not `Continues`, and all others do. -/
theorem exists_encodeChar (c : Char) : ∃ b bs, encodeChar c = b :: bs ∧ ¬ Continues b ∧
    ∀ x ∈ bs, Continues x := by
  have hvalid := toNat_valid c
  have hbyte : ∀ m, Continues (0x80 + m % 0x40).toUInt8 := by
    intro m
    unfold Continues
    rw [toNat_toUInt8 (by omega)]
    omega
  have hfirst : ∀ m, m < 0x80 ∨ 0xC0 ≤ m ∧ m < 0x100 → ¬ Continues m.toUInt8 := by
    intro m h
    unfold Continues
    rw [toNat_toUInt8 (by omega)]
    omega
  by_cases h₁ : c.toNat < 0x80
  · exact ⟨_, _, encodeChar_one h₁, hfirst _ (by omega), List.forall_mem_nil _⟩
  by_cases h₂ : c.toNat < 0x800
  · refine ⟨_, _, encodeChar_two (by omega) h₂, hfirst _ (by omega), ?_⟩
    simp only [List.forall_mem_cons, hbyte, List.not_mem_nil, false_implies, implies_true, and_self]
  by_cases h₃ : c.toNat < 0x10000
  · refine ⟨_, _, encodeChar_three (by omega) h₃, hfirst _ (by omega), ?_⟩
    simp only [List.forall_mem_cons, hbyte, List.not_mem_nil, false_implies, implies_true, and_self]
  · refine ⟨_, _, encodeChar_four (by omega), hfirst _ (by omega), ?_⟩
    simp only [List.forall_mem_cons, hbyte, List.not_mem_nil, false_implies, implies_true, and_self]

/-- `encodeChar` is injective. -/
theorem encodeChar_injective {c d : Char} (h : encodeChar c = encodeChar d) : c = d := by
  have hc := pieces_encodeChar_append c []
  rw [h, pieces_encodeChar_append d []] at hc
  exact (Option.some.inj (List.cons.inj hc).1).symm

/-- Where a sequence ends in the encoding of a character, no other character ends. -/
theorem eq_of_append_encodeChar {xs ys : List UInt8} {c d : Char}
    (h : xs ++ encodeChar c = ys ++ encodeChar d) : c = d := by
  apply encodeChar_injective
  obtain ⟨b, bs, hc, hb, hbs⟩ := exists_encodeChar c
  obtain ⟨e, es, hd, he, hes⟩ := exists_encodeChar d
  rw [hc, hd] at h ⊢
  -- if one were longer, the first byte of the other would go on with it
  rcases List.append_eq_append_iff.mp h with ⟨zs, -, hzs⟩ | ⟨zs, -, hzs⟩
  · cases zs with
    | nil => exact hzs
    | cons z zs =>
      have hmem : e ∈ bs := by simp [(List.cons.inj hzs).2]
      exact absurd (hbs e hmem) he
  · cases zs with
    | nil => exact hzs.symm
    | cons z zs =>
      have hmem : b ∈ es := by simp [(List.cons.inj hzs).2]
      exact absurd (hes b hmem) hb

/-- `decode?` of bytes that end in `encodeChar c` ends in `c`. -/
theorem exists_of_decode?_append_encodeChar {bs : List UInt8} {c : Char} {cs : List Char}
    (h : decode? (bs ++ encodeChar c) = some cs) : ∃ cs', cs = cs' ++ [c] := by
  have heq := decode?_eq_some_iff.mp h
  rcases List.eq_nil_or_concat' cs with rfl | ⟨cs', d, rfl⟩
  · obtain ⟨b, bs', hc, -, -⟩ := exists_encodeChar c
    rw [hc] at heq
    simp [encode] at heq
  · have hsplit : encode (cs' ++ [d]) = encode cs' ++ encodeChar d := by
      simp [encode]
    rw [hsplit] at heq
    exact ⟨cs', by rw [eq_of_append_encodeChar heq]⟩

end Interlock.Text.Utf8
