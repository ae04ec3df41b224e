import Interlock.Proofs.Text.Case
import Interlock.Proofs.Text.Split
import Interlock.Proofs.Url.Punycode
import Interlock.Url.Domain

/-!
# Laws of the mapping of domain names

`LawfulIdna` says what reading an address relies on. `Domain.toAscii?` satisfies it:

* `image?_image?`: a character is mapped once, so `image? c = some d` gives `image? d = some d`;
* `labelToAscii?_settled`: the form of a label is its own form, for a label in Punycode by
  `Punycode.decode?_encode`;
* `toAscii?_settled`: the labels of `name` have forms, and these are the labels of its form.
-/

namespace Interlock.Url

open Text

/-- What a mapping of domain names promises. -/
class LawfulIdna [Idna] : Prop where
  /-- A form is ASCII. -/
  ascii {name form : List Char} : Idna.toAscii? name = some form → ∀ c ∈ form, c.toNat < 128
  /-- A form holds no forbidden character. -/
  allowed {name form : List Char} : Idna.toAscii? name = some form →
    ∀ c ∈ form, Domain.isForbidden c = false
  /-- A form is its own form. -/
  fixed {name form : List Char} : Idna.toAscii? name = some form → Idna.toAscii? form = some form
  /-- An ASCII name without labels in Punycode is only written small. -/
  lower {name : List Char} :
    (∀ c ∈ name, c.toNat < 128 ∧ Domain.isForbidden c = false) →
    (∀ label ∈ (name.map lowerChar).splitOn '.', ¬ Domain.mark <+: label) →
    Idna.toAscii? name = some (name.map lowerChar)
  /-- A name with blank space has no form. -/
  blank {name : List Char} {c : Char} : c ∈ name → isBlank c = true → Idna.toAscii? name = none

namespace Domain

/-! ## Characters -/

variable {c d : Char}

/-- No known character is a wide form. -/
theorem narrow_of_isKnown (h : isKnown c.toNat = true) : narrow c = c := by
  simp only [isKnown, knownLetters, Bool.or_eq_true, decide_eq_true_eq, List.any_cons, List.any_nil,
    Bool.and_eq_true, Bool.or_false] at h
  have hwide : ¬ (0xFF01 ≤ c.toNat ∧ c.toNat ≤ 0xFF5E) := by omega
  have hstop : ¬ (c.toNat = 0x3002 ∨ c.toNat = 0xFF61) := by omega
  unfold narrow
  rw [if_neg hwide, if_neg hstop]

/-- `image?` writes the `narrow` form of a character small, if that is known. -/
theorem image?_eq_some_iff :
    image? c = some d ↔ smallLetter (narrow c) = d ∧ isKnown d.toNat = true := by
  unfold image?
  rw [Option.filter_eq_some_iff, Option.some.injEq]

/-- A small letter is mapped to itself. -/
theorem image?_image? (h : image? c = some d) : image? d = some d := by
  obtain ⟨hd, hknown⟩ := image?_eq_some_iff.mp h
  rw [image?_eq_some_iff, narrow_of_isKnown hknown, ← hd, smallLetter_smallLetter, hd]
  exact ⟨rfl, hknown⟩

/-- In ASCII `image?` is `lowerChar`. -/
theorem image?_of_ascii (h : c.toNat < 128) : image? c = some (lowerChar c) := by
  have hall : ∀ n < 128, image? (Char.ofNat n) = some (lowerChar (Char.ofNat n)) := by
    decide +kernel
  have hc := hall c.toNat h
  rwa [Char.ofNat_toNat] at hc

/-- `lowerChar` stays in ASCII, and makes no character a forbidden one. -/
theorem allowed_lowerChar (hascii : c.toNat < 128) (h : isForbidden c = false) :
    (lowerChar c).toNat < 128 ∧ isForbidden (lowerChar c) = false := by
  have hall : ∀ n < 128, isForbidden (Char.ofNat n) = false →
      (lowerChar (Char.ofNat n)).toNat < 128 ∧ isForbidden (lowerChar (Char.ofNat n)) = false := by
    decide
  have hc := hall c.toNat hascii
  rw [Char.ofNat_toNat] at hc
  exact hc h

theorem image?_of_mem_mapM {name mapped : List Char} (h : name.mapM image? = some mapped) :
    ∀ d ∈ mapped, image? d = some d := by
  intro d hd
  have hmem : some d ∈ name.map image? := by
    rw [mapM_eq_some_iff.mp h]
    exact List.mem_map_of_mem hd
  obtain ⟨c, -, hc⟩ := List.mem_map.mp hmem
  exact image?_image? hc

/-! ## Labels -/

/-- A character of a label in its form: ASCII, not forbidden, no point, and mapped to itself. -/
structure Settled (c : Char) : Prop where
  ascii : c.toNat < 128
  allowed : isForbidden c = false
  no_point : c ≠ '.'
  mapped : image? c = some c

instance (c : Char) : Decidable (Settled c) :=
  decidable_of_iff (c.toNat < 128 ∧ isForbidden c = false ∧ c ≠ '.' ∧ image? c = some c)
    ⟨fun h => ⟨h.1, h.2.1, h.2.2.1, h.2.2.2⟩, fun h => ⟨h.1, h.2, h.3, h.4⟩⟩

/-- A label without the mark is its own form in ASCII, and `Punycode.encode` behind the mark
otherwise. -/
theorem labelToAscii?_of_ne_mark {label : List Char} (hmark : label.take 4 ≠ mark) :
    labelToAscii? label =
      if label.all (·.toNat < 128) then some label else some (mark ++ Punycode.encode label) := by
  unfold labelToAscii?
  rw [if_neg hmark]

/-- A label in Punycode stays as it is; it has to stand for one that needs it. -/
theorem labelToAscii?_of_mark {label plain : List Char} (hmark : label.take 4 = mark)
    (hdecode : Punycode.decode? (label.drop 4) = some plain) :
    labelToAscii? label =
      if plain.all (·.toNat < 128) || plain.any (fun c => image? c != some c) then none
      else some label := by
  unfold labelToAscii?
  rw [if_pos hmark, hdecode]

/-- The form of a label holds `Settled` characters, and is its own form. -/
theorem labelToAscii?_settled {label form : List Char} (hmapped : ∀ c ∈ label, image? c = some c)
    (hallowed : ∀ c ∈ label, isForbidden c = false) (hpoint : ∀ c ∈ label, c ≠ '.')
    (h : labelToAscii? label = some form) :
    (∀ c ∈ form, Settled c) ∧ labelToAscii? form = some form := by
  have hkept : (∀ c ∈ label, c.toNat < 128) → ∀ c ∈ label, Settled c :=
    fun hascii c hc => ⟨hascii c hc, hallowed c hc, hpoint c hc, hmapped c hc⟩
  by_cases hmark : label.take 4 = mark
  · -- a label in Punycode stays as it is
    cases hdecode : Punycode.decode? (label.drop 4) with
    | none =>
      unfold labelToAscii? at h
      rw [if_pos hmark, hdecode] at h
      cases h
    | some plain =>
      have hform : form = label := by
        rw [labelToAscii?_of_mark hmark hdecode] at h
        split at h
        · cases h
        · exact (Option.some.inj h).symm
      rw [hform] at h ⊢
      refine ⟨hkept ?_, h⟩
      rw [← List.take_append_drop 4 label, hmark, List.forall_mem_append]
      exact ⟨by decide, Punycode.ascii_of_decode? hdecode⟩
  · have hlabel := h
    rw [labelToAscii?_of_ne_mark hmark] at h
    by_cases hascii : label.all (·.toNat < 128) = true
    · -- so does a label in ASCII
      rw [if_pos hascii] at h
      have hform : form = label := (Option.some.inj h).symm
      rw [hform] at hlabel ⊢
      refine ⟨hkept ?_, hlabel⟩
      intro c hc
      simpa using List.all_eq_true.mp hascii c hc
    · -- and another one comes back from its Punycode
      rw [if_neg hascii] at h
      have hdigits : ∀ c ∈ Punycode.digitChars, Settled c := by decide
      have hhyphen : Settled '-' := by decide
      rw [← Option.some.inj h]
      constructor
      · refine List.forall_mem_append.mpr ⟨by decide, ?_⟩
        intro c hc
        rcases Punycode.mem_encode hc with ⟨hmem, hc⟩ | rfl | hdigit
        · exact ⟨hc, hallowed c hmem, hpoint c hmem, hmapped c hmem⟩
        · exact hhyphen
        · exact hdigits c hdigit
      · have hdecode : Punycode.decode? ((mark ++ Punycode.encode label).drop 4) = some label :=
          Punycode.decode?_encode label
        have hsame : label.any (fun c => image? c != some c) = false := by
          rw [List.any_eq_false]
          intro c hc
          simp [hmapped c hc]
        rw [labelToAscii?_of_mark rfl hdecode, hsame, Bool.or_false, if_neg hascii]

/-! ## Names -/

/-- Labels that are their own forms make a name that is its own form. -/
theorem toAscii?_intercalate {parts : List (List Char)} (hne : parts ≠ [])
    (h : ∀ part ∈ parts, (∀ c ∈ part, Settled c) ∧ labelToAscii? part = some part) :
    (∀ c ∈ ['.'].intercalate parts, c.toNat < 128 ∧ isForbidden c = false) ∧
      toAscii? (['.'].intercalate parts) = some (['.'].intercalate parts) := by
  have hchars : ∀ c ∈ ['.'].intercalate parts,
      c.toNat < 128 ∧ isForbidden c = false ∧ image? c = some c := by
    intro c hc
    rcases mem_intercalate_singleton hc with rfl | ⟨part, hpart, hmem⟩
    · decide
    · have hsettled := (h part hpart).1 c hmem
      exact ⟨hsettled.ascii, hsettled.allowed, hsettled.mapped⟩
  have hlabels : (['.'].intercalate parts).splitOn '.' = parts := by
    refine List.splitOn_intercalate '.' ?_ hne
    intro part hpart hmem
    exact ((h part hpart).1 '.' hmem).no_point rfl
  have hmapped : (['.'].intercalate parts).mapM image? = some (['.'].intercalate parts) := by
    rw [mapM_eq_some_iff]
    exact List.map_congr_left fun c hc => (hchars c hc).2.2
  have hread : parts.mapM labelToAscii? = some parts := by
    rw [mapM_eq_some_iff]
    exact List.map_congr_left fun part hpart => (h part hpart).2
  have hnone : ¬ (['.'].intercalate parts).any isForbidden = true := by
    rw [List.any_eq_true]
    rintro ⟨c, hc, hbad⟩
    rw [(hchars c hc).2.1] at hbad
    cases hbad
  refine ⟨fun c hc => ⟨(hchars c hc).1, (hchars c hc).2.1⟩, ?_⟩
  unfold toAscii?
  rw [hmapped]
  show (if (['.'].intercalate parts).any isForbidden = true then none else _) = _
  rw [if_neg hnone, hlabels, hread]
  rfl

/-- What `toAscii?` does, step by step. -/
theorem toAscii?_eq_some_iff {name form : List Char} :
    toAscii? name = some form ↔ ∃ mapped parts, name.mapM image? = some mapped ∧
      (∀ c ∈ mapped, isForbidden c = false) ∧
      (mapped.splitOn '.').mapM labelToAscii? = some parts ∧ ['.'].intercalate parts = form := by
  have hallowed (mapped : List Char) :
      ¬ mapped.any isForbidden = true ↔ ∀ c ∈ mapped, isForbidden c = false := by
    rw [Bool.not_eq_true, List.any_eq_false]
    simp only [Bool.not_eq_true]
  unfold toAscii?
  constructor
  · intro h
    obtain ⟨mapped, hmapped, h⟩ := Option.bind_eq_some_iff.mp h
    by_cases hbad : mapped.any isForbidden = true
    · rw [if_pos hbad] at h
      cases h
    · rw [if_neg hbad] at h
      obtain ⟨parts, hparts, hform⟩ := Option.bind_eq_some_iff.mp h
      exact ⟨mapped, parts, hmapped, (hallowed mapped).mp hbad, hparts, Option.some.inj hform⟩
  · rintro ⟨mapped, parts, hmapped, hgood, hparts, rfl⟩
    rw [hmapped]
    show (if mapped.any isForbidden = true then none else _) = _
    rw [if_neg ((hallowed mapped).mpr hgood), hparts]
    rfl

/-- A form is ASCII, holds no forbidden character, and is its own form. -/
theorem toAscii?_settled {name form : List Char} (h : toAscii? name = some form) :
    (∀ c ∈ form, c.toNat < 128 ∧ isForbidden c = false) ∧ toAscii? form = some form := by
  obtain ⟨mapped, parts, hmapped, hallowed, hparts, rfl⟩ := toAscii?_eq_some_iff.mp h
  have hmap := mapM_eq_some_iff.mp hparts
  have hne : parts ≠ [] := by
    intro hnil
    rw [hnil] at hmap
    exact List.splitOn_ne_nil '.' _ (List.map_eq_nil_iff.mp hmap)
  refine toAscii?_intercalate hne ?_
  -- every part of the form is the form of a label, and so its own form
  intro form hform
  obtain ⟨label, hlabel, hread⟩ : ∃ label ∈ mapped.splitOn '.',
      labelToAscii? label = some form := by
    have hmem : some form ∈ (mapped.splitOn '.').map labelToAscii? := by
      rw [hmap]
      exact List.mem_map_of_mem hform
    exact List.mem_map.mp hmem
  rw [List.splitOn_eq_splitOnP] at hlabel
  have hchars := forall_of_mem_splitOnP hlabel
  refine labelToAscii?_settled ?_ ?_ ?_ hread
  · exact fun c hc => image?_of_mem_mapM hmapped c (hchars c hc).1
  · exact fun c hc => hallowed c (hchars c hc).1
  · intro c hc
    simpa using (hchars c hc).2

/-- `toAscii?` only writes an ASCII name small, unless it has labels in Punycode. -/
theorem toAscii?_lower {name : List Char}
    (h : ∀ c ∈ name, c.toNat < 128 ∧ isForbidden c = false)
    (hmark : ∀ label ∈ (name.map lowerChar).splitOn '.', ¬ mark <+: label) :
    toAscii? name = some (name.map lowerChar) := by
  have hchars : ∀ c ∈ name.map lowerChar, c.toNat < 128 ∧ isForbidden c = false := by
    intro c hc
    obtain ⟨a, ha, rfl⟩ := List.mem_map.mp hc
    exact allowed_lowerChar (h a ha).1 (h a ha).2
  have hmapped : name.mapM image? = some (name.map lowerChar) := by
    rw [mapM_eq_some_iff, List.map_map]
    exact List.map_congr_left fun c hc => image?_of_ascii (h c hc).1
  have hlabels : ((name.map lowerChar).splitOn '.').mapM labelToAscii? =
      some ((name.map lowerChar).splitOn '.') := by
    rw [mapM_eq_some_iff]
    refine List.map_congr_left fun label hlabel => ?_
    have hne : label.take 4 ≠ mark := fun htake => hmark label hlabel (htake ▸ label.take_prefix 4)
    rw [List.splitOn_eq_splitOnP] at hlabel
    rw [labelToAscii?_of_ne_mark hne, if_pos]
    rw [List.all_eq_true]
    exact fun c hc => decide_eq_true (hchars c (forall_of_mem_splitOnP hlabel c hc).1).1
  exact toAscii?_eq_some_iff.mpr ⟨_, _, hmapped, fun c hc => (hchars c hc).2, hlabels,
    List.intercalate_splitOn '.'⟩

/-! ## Blank space -/

/-- The code points of blank space. -/
def blanks : List Nat :=
  [0x09, 0x0A, 0x0B, 0x0C, 0x0D, 0x20, 0x85, 0xA0, 0x1680, 0x2000, 0x2001, 0x2002, 0x2003, 0x2004,
    0x2005, 0x2006, 0x2007, 0x2008, 0x2009, 0x200A, 0x2028, 0x2029, 0x202F, 0x205F, 0x3000]

theorem mem_blanks (h : isBlank c = true) : c.toNat ∈ blanks := by
  simp only [isBlank, Bool.or_eq_true, Bool.and_eq_true, decide_eq_true_eq, beq_iff_eq] at h
  simp only [blanks, List.mem_cons, List.not_mem_nil, or_false]
  omega

/-- Blank space is not known, or it is forbidden. -/
theorem image?_of_isBlank (h : isBlank c = true) :
    image? c = none ∨ image? c = some c ∧ isForbidden c = true := by
  have hall : ∀ n ∈ blanks, image? (Char.ofNat n) = none ∨
      image? (Char.ofNat n) = some (Char.ofNat n) ∧ isForbidden (Char.ofNat n) = true := by decide
  have hc := hall c.toNat (mem_blanks h)
  rwa [Char.ofNat_toNat] at hc

/-- A name with blank space has no form. -/
theorem toAscii?_of_isBlank {name : List Char} (hc : c ∈ name) (h : isBlank c = true) :
    toAscii? name = none := by
  rw [Option.eq_none_iff_forall_ne_some]
  intro form hform
  obtain ⟨mapped, parts, hmapped, hallowed, -, -⟩ := toAscii?_eq_some_iff.mp hform
  have hmem : image? c ∈ mapped.map some := by
    rw [← mapM_eq_some_iff.mp hmapped]
    exact List.mem_map_of_mem hc
  rcases image?_of_isBlank h with hnone | ⟨hsame, hbad⟩
  · rw [hnone] at hmem
    simp at hmem
  · rw [hsame] at hmem
    obtain ⟨d, hd, heq⟩ := List.mem_map.mp hmem
    rw [Option.some.inj heq] at hd
    rw [hallowed c hd] at hbad
    cases hbad

instance : LawfulIdna where
  ascii h c hc := ((toAscii?_settled h).1 c hc).1
  allowed h c hc := ((toAscii?_settled h).1 c hc).2
  fixed h := (toAscii?_settled h).2
  lower := toAscii?_lower
  blank := toAscii?_of_isBlank

end Domain

end Interlock.Url
