import Interlock.Proofs.Text.Utf8
import Interlock.Proofs.Text.Visible
import Interlock.Url.Punycode
import Mathlib.Data.List.TakeWhile
import Mathlib.Tactic.Ring

/-!
# Punycode both ways

`decode?_encode`: `decode? (encode label)` is `label`.

* `decodeNumber_encodeNumber`: a number of variable length is read as it was written, whatever comes
  behind it.
* `Behind` ties the `Decoder` to the `Encoder`: the decoder has put in the characters below the
  encoder's counter, and those at the counter up to the encoder's place in the label. Between the
  two stands the distance that the encoder has not written yet, an equation that every step of the
  encoder keeps.
* `Behind.pass`, `Behind.pass_label` and `Behind.run` carry it through the label and through the
  code points: what the encoder still writes makes the decoder come to the label.
-/

namespace Interlock.Url.Punycode

/-! ## Digits and numbers -/

/-- The digits that numbers are written with. -/
def digitChars : List Char := "abcdefghijklmnopqrstuvwxyz0123456789".toList

theorem digitChar_mem : ∀ d < 36, digitChar d ∈ digitChars := by decide

/-- `digitValue?` reads `digitChar` back. -/
theorem digitValue?_digitChar : ∀ d < 36, digitValue? (digitChar d) = some d := by decide

/-- A `threshold` is at least 1. -/
theorem threshold_pos (bias k : Nat) : 1 ≤ threshold bias k := by
  unfold threshold
  split
  · omega
  · split <;> omega

theorem threshold_le (bias k : Nat) : threshold bias k ≤ 26 := by
  unfold threshold
  split
  · omega
  · split <;> omega

theorem mem_encodeNumber {bias : Nat} {c : Char} (k q : Nat) (h : c ∈ encodeNumber bias k q) :
    c ∈ digitChars := by
  induction q using Nat.strong_induction_on generalizing k with
  | _ q ih =>
    have hpos := threshold_pos bias k
    have hle := threshold_le bias k
    rw [encodeNumber] at h
    split at h
    · rw [List.mem_singleton.mp h]
      exact digitChar_mem q (by omega)
    · have hmod := Nat.mod_lt (q - threshold bias k) (show 0 < 36 - threshold bias k by omega)
      rcases List.mem_cons.mp h with rfl | h
      · exact digitChar_mem _ (by omega)
      · have hless := Nat.div_le_self (q - threshold bias k) (36 - threshold bias k)
        exact ih _ (by omega) _ h

/-- `decodeNumber` reads `encodeNumber bias k q` as `q`, whatever stands behind it. -/
theorem decodeNumber_encodeNumber (bias : Nat) (rest : List Char) (k w i q : Nat) :
    decodeNumber bias (encodeNumber bias k q ++ rest) k w i = some (i + q * w, rest) := by
  induction q using Nat.strong_induction_on generalizing k w i with
  | _ q ih =>
    have hpos := threshold_pos bias k
    have hle := threshold_le bias k
    rw [encodeNumber]
    split
    · next hlast =>
      rw [List.cons_append, List.nil_append, decodeNumber, digitValue?_digitChar q (by omega)]
      exact if_pos hlast
    · next hmore =>
      -- the digit is what is left over, and the other digits write the quotient
      have hmod := Nat.mod_lt (q - threshold bias k) (show 0 < 36 - threshold bias k by omega)
      have hdiv := Nat.mod_add_div (q - threshold bias k) (36 - threshold bias k)
      have hless := Nat.div_le_self (q - threshold bias k) (36 - threshold bias k)
      rw [List.cons_append, decodeNumber, digitValue?_digitChar _ (by omega)]
      dsimp only
      rw [if_neg (by omega), ih _ (by omega)]
      generalize threshold bias k = t at *
      generalize (q - t) % (36 - t) = r at *
      generalize (q - t) / (36 - t) = p at *
      have hq : t + r + (36 - t) * p = q := by omega
      have hvalue : i + (t + r) * w + p * (w * (36 - t)) = i + q * w := by
        rw [← hq]
        ring
      rw [hvalue]

theorem length_encodeNumber_pos (bias k q : Nat) : 0 < (encodeNumber bias k q).length := by
  rw [encodeNumber]
  split <;> simp

/-! ## What the decoder comes to -/

/-- The characters that are in their places, and the code point and the place that are reached. -/
structure Decoder where
  out : List Char
  point : Nat
  place : Nat

/-- The decoder comes to `label` when it reads `digits`. It started from `basic` characters. -/
def Yields (label : List Char) (basic : Nat) (digits : List Char) (bias : Nat) (d : Decoder) :
    Prop :=
  ∀ steps, digits.length < steps →
    decodeFrom steps digits d.point d.place bias (d.out.length == basic) d.out = some label

variable {label digits : List Char} {basic n bias delta : Nat}

theorem yields_nil {d : Decoder} (h : d.out = label) : Yields label basic [] bias d := by
  intro steps hsteps
  cases steps with
  | zero => exact absurd hsteps (Nat.not_lt_zero _)
  | succ steps => rw [decodeFrom, h]

/-- One number moves the decoder on and puts in one character. -/
theorem yields_number {d : Decoder} {c : Char} {before after : List Char}
    (hout : d.out = before ++ after) (hbasic : basic ≤ d.out.length) (hpoint : d.point ≤ c.toNat)
    (hdelta : d.place + delta = (c.toNat - d.point) * (d.out.length + 1) + before.length)
    (h : Yields label basic digits (adapt delta (d.out.length + 1) (d.out.length == basic))
      ⟨before ++ c :: after, c.toNat, before.length + 1⟩) :
    Yields label basic (encodeNumber bias 36 delta ++ digits) bias d := by
  intro steps hsteps
  obtain ⟨x, xs, hxs⟩ := List.exists_cons_of_length_pos (length_encodeNumber_pos bias 36 delta)
  have hread := decodeNumber_encodeNumber bias digits 36 1 d.place delta
  rw [hxs, List.cons_append, List.length_cons, List.length_append] at hsteps
  rw [hxs, List.cons_append, Nat.mul_one] at hread
  rw [hxs, List.cons_append]
  cases steps with
  | zero => exact absurd hsteps (Nat.not_lt_zero _)
  | succ steps =>
    -- the number counts places of the label, and whole passes through it
    have hlen : d.out.length = before.length + after.length := by
      rw [hout, List.length_append]
    have hquot : (d.place + delta) / (d.out.length + 1) = c.toNat - d.point := by
      rw [hdelta, Nat.mul_comm, Nat.mul_add_div (Nat.succ_pos _),
        Nat.div_eq_of_lt (by omega), Nat.add_zero]
    have hrem : (d.place + delta) % (d.out.length + 1) = before.length := by
      rw [hdelta, Nat.mul_add_mod_of_lt (by omega)]
    have hcode : d.point + (c.toNat - d.point) = c.toNat := by omega
    have hfirst : ((before ++ c :: after).length == basic) = false := by
      rw [List.length_append, List.length_cons, beq_eq_false_iff_ne]
      omega
    have hvalid := Text.Utf8.toNat_valid c
    have hnext := h steps (by omega)
    dsimp only at hnext
    rw [hfirst] at hnext
    rw [decodeFrom, hread]
    · dsimp only
      rw [hquot, hrem, hcode, if_pos (by omega), Char.ofNat_toNat, Nat.add_sub_cancel_left]
      rw [hout, List.take_left, List.drop_left, ← hout]
      exact hnext
    · exact List.cons_ne_nil _ _

/-! ## The encoder and the decoder side by side -/

/-- What the encoder writes from `e₁` to `e₂` takes the decoder from `d₁` to `d₂`: if `label` is
reached from `d₂`, it is from `d₁`. -/
def Writes (label : List Char) (basic : Nat) (e e' : Encoder) (d d' : Decoder) : Prop :=
  ∃ digits, e'.out = e.out ++ digits ∧ (∀ c ∈ digits, c ∈ digitChars) ∧
    ∀ rest, Yields label basic rest e'.bias d' → Yields label basic (digits ++ rest) e.bias d

variable {e e₁ e₂ e₃ : Encoder} {d d₁ d₂ d₃ : Decoder}

theorem Writes.nothing (hout : e₂.out = e₁.out) (hbias : e₂.bias = e₁.bias) :
    Writes label basic e₁ e₂ d d := by
  refine ⟨[], ?_, List.forall_mem_nil _, ?_⟩
  · rw [hout, List.append_nil]
  · intro rest h
    rw [hbias] at h
    exact h

theorem Writes.trans (h₁ : Writes label basic e₁ e₂ d₁ d₂) (h₂ : Writes label basic e₂ e₃ d₂ d₃) :
    Writes label basic e₁ e₃ d₁ d₃ := by
  obtain ⟨ds₁, hout₁, hchars₁, hyields₁⟩ := h₁
  obtain ⟨ds₂, hout₂, hchars₂, hyields₂⟩ := h₂
  refine ⟨ds₁ ++ ds₂, ?_, ?_, ?_⟩
  · rw [hout₂, hout₁, List.append_assoc]
  · exact List.forall_mem_append.mpr ⟨hchars₁, hchars₂⟩
  · intro rest h
    rw [List.append_assoc]
    exact hyields₁ _ (hyields₂ _ h)

/-- The counter stands at `n`, and `earlier` has been passed. The decoder has what is below `n`, and
of `earlier` also what is at `n`; `e.delta` is the distance between the two. -/
structure Behind (basic n : Nat) (earlier later : List Char) (e : Encoder) (d : Decoder) :
    Prop where
  out : d.out = earlier.filter (·.toNat ≤ n) ++ later.filter (·.toNat < n)
  placed : e.placed = d.out.length
  basic_le : basic ≤ e.placed
  point_le : d.point ≤ n
  distance : d.place + e.delta =
    (n - d.point) * (e.placed + 1) + (earlier.filter (·.toNat ≤ n)).length

/-- `Encoder.pass` of one character keeps `Behind`. -/
theorem Behind.pass (label : List Char) {earlier later : List Char} {c : Char}
    (h : Behind basic n earlier (c :: later) e d) : ∃ d',
      Behind basic n (earlier ++ [c]) later (e.pass basic n c) d' ∧
      Writes label basic e (e.pass basic n c) d d' := by
  obtain ⟨hout, hplaced, hbasic, hpoint, hdist⟩ := h
  rcases Nat.lt_trichotomy c.toNat n with hlt | heq | hgt
  · -- it has its place already: the way grows by one place
    have hpass : e.pass basic n c = { e with delta := e.delta + 1 } := by
      unfold Encoder.pass
      rw [if_pos hlt]
    rw [hpass]
    refine ⟨d, ⟨?_, hplaced, hbasic, hpoint, ?_⟩, Writes.nothing rfl rfl⟩
    · rw [hout, List.filter_cons_of_pos (by simpa using hlt)]
      simp [Nat.le_of_lt hlt]
    · dsimp only
      simp [Nat.le_of_lt hlt]
      omega
  · -- it is put in here: the way so far is written
    subst heq
    have hpass : e.pass basic c.toNat c =
        { out := e.out ++ encodeNumber e.bias 36 e.delta
          delta := 0
          bias := adapt e.delta (e.placed + 1) (e.placed == basic)
          placed := e.placed + 1 } := by
      unfold Encoder.pass
      rw [if_neg (Nat.lt_irrefl _), if_pos rfl]
    rw [List.filter_cons_of_neg (by simp)] at hout
    rw [hpass]
    refine ⟨⟨earlier.filter (·.toNat ≤ c.toNat) ++ c :: later.filter (·.toNat < c.toNat), c.toNat,
      (earlier.filter (·.toNat ≤ c.toNat)).length + 1⟩, ⟨?_, ?_, ?_, ?_, ?_⟩, ?_⟩
    · simp
    · dsimp only
      rw [hplaced, hout]
      simp
      omega
    · exact Nat.le_succ_of_le hbasic
    · exact Nat.le_refl _
    · simp
    · refine ⟨encodeNumber e.bias 36 e.delta, rfl, ?_, ?_⟩
      · intro x hx
        exact mem_encodeNumber 36 _ hx
      · intro rest hrest
        dsimp only at hrest
        rw [hplaced] at hbasic hdist hrest
        exact yields_number hout hbasic hpoint hdist hrest
  · -- it is left for later
    have hpass : e.pass basic n c = e := by
      unfold Encoder.pass
      rw [if_neg (Nat.lt_asymm hgt), if_neg (Nat.ne_of_gt hgt)]
    rw [hpass]
    refine ⟨d, ⟨?_, hplaced, hbasic, hpoint, ?_⟩, Writes.nothing rfl rfl⟩
    · rw [hout, List.filter_cons_of_neg (by simp; omega)]
      simp [Nat.not_le_of_lt hgt]
    · rw [hdist]
      simp [Nat.not_le_of_lt hgt]

/-- `Behind.pass` for the whole label. -/
theorem Behind.pass_label (label later : List Char) :
    ∀ {earlier : List Char} {e : Encoder} {d : Decoder}, Behind basic n earlier later e d → ∃ d',
      Behind basic n (earlier ++ later) [] (later.foldl (Encoder.pass basic n) e) d' ∧
      Writes label basic e (later.foldl (Encoder.pass basic n) e) d d' := by
  induction later with
  | nil =>
    intro earlier e d h
    rw [List.append_nil]
    exact ⟨d, h, Writes.nothing rfl rfl⟩
  | cons c later ih =>
    intro earlier e d h
    obtain ⟨d₁, hbehind₁, hwrites₁⟩ := h.pass label
    obtain ⟨d₂, hbehind₂, hwrites₂⟩ := ih hbehind₁
    rw [List.append_assoc] at hbehind₂
    exact ⟨d₂, hbehind₂, hwrites₁.trans hwrites₂⟩

/-- Moving the counter on to `n` adds one pass through the label for each code point. -/
theorem Behind.move {start : Nat} (h : Behind basic start [] label e d) (hle : start ≤ n)
    (hnone : ∀ c ∈ label, start ≤ c.toNat → n ≤ c.toNat) :
    Behind basic n [] label { e with delta := e.delta + (n - start) * (e.placed + 1) } d := by
  obtain ⟨hout, hplaced, hbasic, hpoint, hdist⟩ := h
  refine ⟨?_, hplaced, hbasic, Nat.le_trans hpoint hle, ?_⟩
  · rw [hout]
    simp only [List.filter_nil, List.nil_append]
    apply List.filter_congr
    intro c hc
    have hc' := hnone c hc
    rw [decide_eq_decide]
    omega
  · dsimp only
    rw [← Nat.add_assoc, hdist]
    simp only [List.filter_nil, List.length_nil, Nat.add_zero]
    rw [← Nat.add_mul]
    congr 1
    omega

/-- After the last place of the label the counter goes on to the next code point. -/
theorem Behind.next (h : Behind basic n label [] e d) :
    Behind basic (n + 1) [] label { e with delta := e.delta + 1 } d := by
  obtain ⟨hout, hplaced, hbasic, hpoint, hdist⟩ := h
  rw [List.filter_nil, List.append_nil] at hout
  refine ⟨?_, hplaced, hbasic, Nat.le_succ_of_le hpoint, ?_⟩
  · rw [hout, List.filter_nil, List.nil_append]
    simp only [Nat.lt_succ_iff]
  · rw [← hout, ← hplaced] at hdist
    have hmore : n + 1 - d.point = n - d.point + 1 := by omega
    simp only [List.filter_nil, List.length_nil, Nat.add_zero]
    rw [hmore, Nat.add_mul, Nat.one_mul]
    omega

/-- The counter runs through all code points that are left, and the decoder comes to the label. -/
theorem Behind.run (ns : List Nat) :
    ∀ {start : Nat} {e : Encoder} {d : Decoder}, ns.Pairwise (· < ·) → (∀ n ∈ ns, start ≤ n) →
      (∀ c ∈ label, start ≤ c.toNat → c.toNat ∈ ns) → Behind basic start [] label e d →
      ∃ d', d'.out = label ∧ Writes label basic e (Encoder.run label basic ns start e) d d' := by
  induction ns with
  | nil =>
    intro start e d _ _ hall h
    refine ⟨d, ?_, Writes.nothing rfl rfl⟩
    rw [h.out, List.filter_nil, List.nil_append, List.filter_eq_self]
    intro c hc
    have hlt : ¬ start ≤ c.toNat := fun hle => List.not_mem_nil (hall c hc hle)
    simpa using hlt
  | cons n ns ih =>
    intro start e d hsorted hge hall h
    obtain ⟨hfirst, hsorted⟩ := List.pairwise_cons.mp hsorted
    have hmoved := h.move (hge n List.mem_cons_self) (by
      intro c hc hle
      rcases List.mem_cons.mp (hall c hc hle) with heq | hmem
      · exact Nat.le_of_eq heq.symm
      · exact Nat.le_of_lt (hfirst _ hmem))
    obtain ⟨d₁, hpassed, hwrites₁⟩ := hmoved.pass_label label label
    rw [List.nil_append] at hpassed
    obtain ⟨d₂, hout, hwrites₂⟩ := ih hsorted hfirst (by
      intro c hc hle
      rcases List.mem_cons.mp (hall c hc (by
        have hn := hge n List.mem_cons_self
        omega)) with heq | hmem
      · omega
      · exact hmem) hpassed.next
    refine ⟨d₂, hout, ?_⟩
    have hstart :
        Writes label basic e { e with delta := e.delta + (n - start) * (e.placed + 1) } d d :=
      Writes.nothing rfl rfl
    have hnext : ∀ e₁ : Encoder, Writes label basic e₁ { e₁ with delta := e₁.delta + 1 } d₁ d₁ :=
      fun _ => Writes.nothing rfl rfl
    exact hstart.trans (hwrites₁.trans ((hnext _).trans hwrites₂))

/-! ## The code points of a label -/

theorem mem_place {k m : Nat} (ns : List Nat) : m ∈ codePoints.place k ns ↔ m = k ∨ m ∈ ns := by
  induction ns with
  | nil => simp [codePoints.place]
  | cons n ns ih =>
    rw [codePoints.place]
    split
    · rw [List.mem_cons]
    · split
      · next heq =>
        rw [heq, List.mem_cons]
        tauto
      · rw [List.mem_cons, ih, List.mem_cons]
        tauto

theorem pairwise_place {k : Nat} (ns : List Nat) (h : ns.Pairwise (· < ·)) :
    (codePoints.place k ns).Pairwise (· < ·) := by
  induction ns with
  | nil => exact List.pairwise_singleton _ _
  | cons n ns ih =>
    obtain ⟨hfirst, hrest⟩ := List.pairwise_cons.mp h
    rw [codePoints.place]
    split
    · next hlt =>
      refine List.pairwise_cons.mpr ⟨?_, h⟩
      intro m hm
      rcases List.mem_cons.mp hm with rfl | hm
      · exact hlt
      · exact Nat.lt_trans hlt (hfirst m hm)
    · split
      · exact h
      · next hlt hne =>
        refine List.pairwise_cons.mpr ⟨?_, ih hrest⟩
        intro m hm
        rcases (mem_place ns).mp hm with rfl | hm
        · omega
        · exact hfirst m hm

/-- `codePoints` are those of the characters outside ASCII. -/
theorem mem_codePoints {m : Nat} (label : List Char) :
    m ∈ codePoints label ↔ ∃ c ∈ label, 128 ≤ c.toNat ∧ c.toNat = m := by
  have hfold : ∀ cs : List Char,
      m ∈ cs.foldr (fun c ns => codePoints.place c.toNat ns) [] ↔ ∃ c ∈ cs, c.toNat = m := by
    intro cs
    induction cs with
    | nil => simp
    | cons c cs ih =>
      rw [List.foldr_cons, mem_place, ih]
      simp [eq_comm]
  unfold codePoints
  rw [hfold]
  simp [List.mem_filter, and_assoc]

/-- `codePoints` increase. -/
theorem pairwise_codePoints (label : List Char) : (codePoints label).Pairwise (· < ·) := by
  unfold codePoints
  induction label.filter (128 ≤ ·.toNat) with
  | nil => exact List.Pairwise.nil
  | cons c cs ih => exact pairwise_place _ ih

/-! ## The label -/

/-- The characters of a label that are written as they are. -/
def plainPart (label : List Char) : List Char := label.filter (·.toNat < 128)

/-- `encode label` is `plainPart`, set off by a hyphen if there is one, and digits that `Yields` the
label. -/
theorem exists_encode (label : List Char) : ∃ digits, (∀ c ∈ digits, c ∈ digitChars) ∧
    encode label = (if (plainPart label).isEmpty then [] else plainPart label ++ ['-']) ++ digits ∧
    Yields label (plainPart label).length digits 72 ⟨plainPart label, 128, 0⟩ := by
  have hbehind : Behind (plainPart label).length 128 [] label
      ⟨[], 0, 72, (plainPart label).length⟩ ⟨plainPart label, 128, 0⟩ := by
    refine ⟨?_, rfl, Nat.le_refl _, Nat.le_refl _, ?_⟩
    · rw [List.filter_nil, List.nil_append]
      rfl
    · simp
  obtain ⟨d, hout, digits, hdigits, hchars, hyields⟩ :=
    hbehind.run (codePoints label) (pairwise_codePoints label)
      (by
        intro n hn
        obtain ⟨c, -, hge, rfl⟩ := (mem_codePoints label).mp hn
        exact hge)
      (fun c hc hge => (mem_codePoints label).mpr ⟨c, hc, hge, rfl⟩)
  refine ⟨digits, hchars, ?_, ?_⟩
  · have hplain : label.filter (·.toNat < 128) = plainPart label := rfl
    unfold encode
    rw [hplain]
    dsimp only
    rw [hdigits]
    rfl
  · have hyield := hyields [] (yields_nil hout)
    rw [List.append_nil] at hyield
    exact hyield

/-- `encode label` holds ASCII characters of the label, hyphens and digits. -/
theorem mem_encode {c : Char} (h : c ∈ encode label) :
    c ∈ label ∧ c.toNat < 128 ∨ c = '-' ∨ c ∈ digitChars := by
  have hplain : c ∈ plainPart label → c ∈ label ∧ c.toNat < 128 := by
    intro hc
    simpa [plainPart] using hc
  obtain ⟨digits, hchars, hencode, -⟩ := exists_encode label
  rw [hencode] at h
  rcases List.mem_append.mp h with h | h
  · split at h
    · cases h
    · rcases List.mem_append.mp h with h | h
      · exact .inl (hplain h)
      · exact .inr (.inl (List.mem_singleton.mp h))
  · exact .inr (.inr (hchars c h))

theorem toNat_lt_of_mem_encode {c : Char} (h : c ∈ encode label) : c.toNat < 128 := by
  have hdigits : ∀ c ∈ digitChars, c.toNat < 128 := by decide
  rcases mem_encode h with ⟨-, h⟩ | rfl | h
  · exact h
  · decide
  · exact hdigits c h

theorem ascii_of_decode? {cs : List Char} (h : decode? cs = some label) :
    ∀ c ∈ cs, c.toNat < 128 := by
  unfold decode? at h
  dsimp only at h
  split at h
  · next hall =>
    intro c hc
    simpa using List.all_eq_true.mp hall c hc
  · cases h

/-- The last hyphen sets the digits off. -/
theorem takeWhile_reverse_encode (plain digits : List Char) (hdigits : ∀ c ∈ digits, c ≠ '-') :
    (((if plain.isEmpty then [] else plain ++ ['-']) ++ digits).reverse.takeWhile
      (· != '-')).reverse = digits := by
  have hall : digits.reverse.takeWhile (· != '-') = digits.reverse := by
    rw [List.takeWhile_eq_self_iff]
    intro c hc
    simpa using hdigits c (List.mem_reverse.mp hc)
  split
  · rw [List.nil_append, hall, List.reverse_reverse]
  · rw [List.reverse_append, List.reverse_append, List.takeWhile_append, hall, if_pos rfl]
    simp

/-- `decode? (encode label)` is `label`. -/
theorem decode?_encode (label : List Char) : decode? (encode label) = some label := by
  have hascii : (encode label).all (·.toNat < 128) = true := by
    rw [List.all_eq_true]
    intro c hc
    simpa using toNat_lt_of_mem_encode hc
  have hhyphen : ∀ c ∈ digitChars, c ≠ '-' := by decide
  obtain ⟨digits, hchars, hencode, hyields⟩ := exists_encode label
  have htail : ((encode label).reverse.takeWhile (· != '-')).reverse = digits := by
    rw [hencode]
    exact takeWhile_reverse_encode _ _ fun c hc => hhyphen c (hchars c hc)
  have hplain : ((encode label).take ((encode label).length - digits.length)).dropLast =
      plainPart label := by
    rw [hencode, List.length_append, Nat.add_sub_cancel, List.take_left]
    split
    · next hempty => exact (List.isEmpty_iff.mp hempty).symm
    · rw [List.dropLast_concat]
  unfold decode?
  rw [htail]
  dsimp only
  rw [hplain, if_pos hascii]
  have hread := hyields (digits.length + 1) (Nat.lt_succ_self _)
  dsimp only at hread
  rw [beq_self_eq_true] at hread
  exact hread

end Interlock.Url.Punycode
