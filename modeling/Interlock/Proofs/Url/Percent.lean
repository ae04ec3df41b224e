import Interlock.Proofs.Text.Utf8
import Interlock.Proofs.Text.Visible
import Interlock.Url.Percent

/-!
# Percent encoding is done once

`percentEncode set` holds nothing of `set` any more, so a second pass leaves it as it is
(`percentEncode_clean`, `percentEncode_of_forall`). What every set leaves is `Visible`.
-/

namespace Interlock.Url

open Text

variable {set : Char → Bool} {cs : List Char} {c : Char}

/-! ## Encoding -/

/-- The characters that an encoded byte is written with. -/
def byteChars : List Char := "%0123456789ABCDEF".toList

/-- `encodeByte` writes a percent sign and two hexadecimal digits. -/
theorem mem_encodeByte {b : UInt8} (h : c ∈ encodeByte b) : c ∈ byteChars := by
  have hdigit : ∀ n < 16,
      (if n < 10 then Char.ofNat (48 + n) else Char.ofNat (55 + n)) ∈ byteChars := by decide
  have hb := b.toNat_lt
  simp only [encodeByte, List.mem_cons, List.not_mem_nil, or_false] at h
  rcases h with rfl | rfl | rfl
  · decide
  · exact hdigit _ (by omega)
  · exact hdigit _ (by omega)

/-- A character of `percentEncode set cs` is one of `cs` outside `set`, or one of `byteChars`. -/
theorem mem_percentEncode (h : c ∈ percentEncode set cs) :
    (c ∈ cs ∧ set c = false) ∨ c ∈ byteChars := by
  unfold percentEncode at h
  obtain ⟨d, hmem, hc⟩ := List.mem_flatMap.mp h
  unfold encodeChar at hc
  split at hc
  · obtain ⟨b, -, hb⟩ := List.mem_flatMap.mp hc
    exact .inr (mem_encodeByte hb)
  · next hd =>
    rw [List.mem_singleton.mp hc]
    exact .inl ⟨hmem, eq_false_of_ne_true hd⟩

/-- `percentEncode set` holds nothing of `set`. -/
theorem percentEncode_clean (hset : ∀ c ∈ byteChars, set c = false) :
    ∀ c ∈ percentEncode set cs, set c = false := by
  intro c hc
  rcases mem_percentEncode hc with h | h
  · exact h.2
  · exact hset c h

/-- `percentEncode set` of a text with nothing of `set` is the text. -/
theorem percentEncode_of_forall (h : ∀ c ∈ cs, set c = false) : percentEncode set cs = cs := by
  unfold percentEncode
  induction cs with
  | nil => rfl
  | cons c cs ih =>
    obtain ⟨hc, hcs⟩ := List.forall_mem_cons.mp h
    have henc : encodeChar set c = [c] := by
      unfold encodeChar
      rw [if_neg (by simp [hc])]
    rw [List.flatMap_cons, henc, ih hcs]
    rfl

/-! ## The sets -/

theorem visible_of_isControl (h : isControl c = false) (hspace : c ≠ ' ') : Visible c := by
  simp only [isControl, Bool.or_eq_false_iff, decide_eq_false_iff_not] at h
  have hne : c.toNat ≠ 0x20 := by
    intro heq
    apply hspace
    rw [← Char.ofNat_toNat c, heq]
  constructor <;> omega

/-- What `inFragmentSet` leaves is `Visible`. -/
theorem visible_of_inFragmentSet (h : inFragmentSet c = false) : Visible c := by
  simp only [inFragmentSet, Bool.or_eq_false_iff, beq_eq_false_iff_ne] at h
  exact visible_of_isControl h.1.1.1.1.1 h.1.1.1.1.2

theorem visible_of_inQuerySet {special : Bool} (h : inQuerySet special c = false) : Visible c := by
  simp only [inQuerySet, Bool.or_eq_false_iff, beq_eq_false_iff_ne] at h
  exact visible_of_isControl h.1.1.1.1.1.1 h.1.1.1.1.1.2

/-- What `inPathSet` leaves, `inFragmentSet` leaves. -/
theorem inFragmentSet_of_inPathSet (h : inPathSet c = false) : inFragmentSet c = false := by
  simp only [inPathSet, Bool.or_eq_false_iff] at h
  exact h.1.1.1.1

/-- What `inUserinfoSet` leaves, `inPathSet` leaves. -/
theorem inPathSet_of_inUserinfoSet (h : inUserinfoSet c = false) : inPathSet c = false := by
  simp only [inUserinfoSet, Bool.or_eq_false_iff] at h
  exact h.1.1.1.1.1.1.1.1.1.1

/-! ## Decoding -/

/-- A text that starts with an encoded byte. -/
def StartsEncoded (cs : List Char) : Prop :=
  ∃ a b rest x y, cs = '%' :: a :: b :: rest ∧ hexValue? a = some x ∧ hexValue? b = some y

/-- A character that does not start an encoded byte stands for itself. -/
theorem percentDecode_cons (h : ¬ StartsEncoded (c :: cs)) :
    percentDecode (c :: cs) = Utf8.encodeChar c ++ percentDecode cs := by
  rw [percentDecode.eq_def]
  split
  · next a b rest heq =>
    obtain ⟨rfl, rfl⟩ := List.cons.inj heq
    split
    · next x y ha hb => exact absurd ⟨a, b, rest, x, y, rfl, ha, hb⟩ h
    · rfl
  · next heq =>
    obtain ⟨rfl, rfl⟩ := List.cons.inj heq
    rfl
  · next heq => cases heq

theorem percentDecode_of_forall (h : ∀ c ∈ cs, c ≠ '%') : percentDecode cs = Utf8.encode cs := by
  unfold Utf8.encode
  induction cs with
  | nil => rfl
  | cons c cs ih =>
    obtain ⟨hc, hcs⟩ := List.forall_mem_cons.mp h
    have hplain : ¬ StartsEncoded (c :: cs) := by
      rintro ⟨a, b, rest, x, y, heq, -⟩
      exact hc (List.cons.inj heq).1
    rw [percentDecode_cons hplain, ih hcs, List.flatMap_cons]

/-- A character that is no hexadecimal digit is decoded apart from what stands before it. -/
theorem percentDecode_append_singleton (cs : List Char) {w : Char} (hw : hexValue? w = none) :
    percentDecode (cs ++ [w]) = percentDecode cs ++ Utf8.encodeChar w := by
  induction hlen : cs.length using Nat.strong_induction_on generalizing cs with
  | _ n ih =>
    by_cases hstart : StartsEncoded cs
    · obtain ⟨a, b, rest, x, y, rfl, ha, hb⟩ := hstart
      have hrest := ih rest.length (by simp at hlen; omega) rest rfl
      simp only [List.cons_append, percentDecode, ha, hb, hrest]
    · cases cs with
      | nil =>
        have hplain : ¬ StartsEncoded [w] := by
          rintro ⟨a, b, rest, x, y, heq, -⟩
          cases heq
        rw [List.nil_append, percentDecode_cons hplain]
        simp [percentDecode]
      | cons c cs =>
        -- the new character cannot complete an encoded byte
        have hplain : ¬ StartsEncoded (c :: (cs ++ [w])) := by
          rintro ⟨a, b, rest, x, y, heq, ha, hb⟩
          obtain ⟨rfl, htail⟩ := List.cons.inj heq
          cases cs with
          | nil => cases htail
          | cons d cs =>
            obtain ⟨rfl, htail'⟩ := List.cons.inj htail
            cases cs with
            | nil =>
              obtain ⟨rfl, -⟩ := List.cons.inj htail'
              rw [hw] at hb
              cases hb
            | cons e cs =>
              obtain ⟨rfl, -⟩ := List.cons.inj htail'
              exact hstart ⟨d, e, cs, x, y, rfl, ha, hb⟩
        have hrest := ih cs.length (by simp at hlen; omega) cs rfl
        rw [List.cons_append, percentDecode_cons hplain, percentDecode_cons hstart, hrest,
          List.append_assoc]

end Interlock.Url
