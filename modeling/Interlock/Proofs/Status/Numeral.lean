import Interlock.Proofs.Json.Number
import Interlock.Proofs.Number.Readback
import Interlock.Proofs.Number.Visible
import Interlock.Proofs.Status.Revised
import Interlock.Proofs.Text.Strip
import Mathlib

/-!
# Numbers that arrive as texts

A source may send a number as the text of the number, with blank space around it. `count?`, `code?`
and `text?` are the same of the one and the other (`read_quoted`), whatever the number is, and so a
record stays what it is when numbers under `countKeys` are sent as texts (`read_quotes`).
-/

namespace Interlock

open Text Reading Json

variable {n : Json.Number} {before after : String}

/-! ## One number -/

/-- `trim` of a number's text with blank space around it is the text. -/
theorem trim_quoted (hbefore : ∀ c ∈ before.toList, isBlank c = true)
    (hafter : ∀ c ∈ after.toList, isBlank c = true) (n : Json.Number) :
    trim (before ++ n.text ++ after) = n.text := by
  have hunpadded : Unpadded isBlank n.text.toList :=
    unpadded_of_forall fun c hc => (n.visible_text c hc).isBlank
  apply String.toList_injective
  rw [toList_trim, String.toList_append, String.toList_append,
    strip_padded hunpadded hbefore hafter]

/-- `countOfText?` of a number's text is `count?` of the number. -/
theorem countOfText?_text (h : n.Fits) (hbefore : ∀ c ∈ before.toList, isBlank c = true)
    (hafter : ∀ c ∈ after.toList, isBlank c = true) :
    countOfText? (before ++ n.text ++ after) = count? (some (.number n)) := by
  unfold countOfText?
  dsimp only
  rw [trim_quoted hbefore hafter]
  cases h with
  | whole i _ hhigh =>
    cases i with
    | ofNat k =>
      rw [Int.ofNat_eq_natCast] at hhigh
      have hk : k < 2 ^ 64 := by exact_mod_cast hhigh
      rw [show Json.Number.text (.whole (.ofNat k)) = Text.ofNat k from rfl,
        Number.readWord?_ofNat hk]
      rfl
    | negSucc k =>
      -- its text is read as a double, where a rounding must not make it zero
      obtain ⟨x, hread, hpart⟩ := Number.readBinary64?_ofInt_negSucc k
      rw [show Json.Number.text (.whole (.negSucc k)) = Text.ofInt (.negSucc k) from rfl,
        Number.readWord?_ofInt_negSucc, hread, Option.none_or, Option.bind_some]
      unfold countOfReal?
      rw [hpart]
      rfl
  | real x hx =>
    -- not even a double that is whole is taken for a word: it keeps its point
    obtain ⟨s, m, e, rfl, hp⟩ := hx
    rw [show Json.Number.text (.real (.finite s m e)) = floatFormat.render (.finite s m e) from rfl,
      Number.readWord?_render rfl, Number.readBinary64?_render floatFormat s hp]
    rfl

/-- A number and its text between blank space have the same `count?`, `code?` and `text?`. -/
theorem read_quoted (h : n.Fits) (hbefore : ∀ c ∈ before.toList, isBlank c = true)
    (hafter : ∀ c ∈ after.toList, isBlank c = true) :
    count? (some (.string (before ++ n.text ++ after))) = count? (some (.number n)) ∧
      code? (some (.string (before ++ n.text ++ after))) = code? (some (.number n)) ∧
      text? (some (.string (before ++ n.text ++ after))) = text? (some (.number n)) := by
  have hcount : count? (some (.string (before ++ n.text ++ after))) = count? (some (.number n)) :=
    countOfText?_text h hbefore hafter
  refine ⟨hcount, ?_, ?_⟩
  · unfold code?
    rw [hcount]
  · show meaningful (trim (before ++ n.text ++ after)) = meaningful n.text
    rw [trim_quoted hbefore hafter]

/-- `read_quoted` for every number in a document that `readBytes` returned. -/
theorem read_quoted_of_readBytes {bytes : List UInt8} {j : Json} (h : Json.readBytes bytes = .ok j)
    (hn : (Json.number n).Within j) (hbefore : ∀ c ∈ before.toList, isBlank c = true)
    (hafter : ∀ c ∈ after.toList, isBlank c = true) :
    count? (some (.string (before ++ n.text ++ after))) = count? (some (.number n)) ∧
      code? (some (.string (before ++ n.text ++ after))) = code? (some (.number n)) ∧
      text? (some (.string (before ++ n.text ++ after))) = text? (some (.number n)) :=
  read_quoted (Json.fits_of_readBytes h hn) hbefore hafter

/-! ## Numbers in a document -/

/-- The keys of counts, in both spellings. -/
def countKeys : List String :=
  ["fail_streak", "failStreak", "last_http_code", "lastHttpCode", "lines", "cooldown_remaining_ms",
    "cooldownRemainingMs"]

/-- The number `v` arrives as the text `w`, with blank space around it. -/
inductive Quoted : Json → Json → Prop
  | mk (n : Json.Number) (before after : String) (fits : n.Fits)
    (blank_before : ∀ c ∈ before.toList, isBlank c = true)
    (blank_after : ∀ c ∈ after.toList, isBlank c = true) :
    Quoted (.number n) (.string (before ++ n.text ++ after))

/-- Some of the numbers under `countKeys` are sent as texts. -/
def Quotes (ms ms' : Members) : Prop :=
  ms'.map Prod.fst = ms.map Prod.fst ∧ ∀ (i : ℕ) m m', ms[i]? = some m → ms'[i]? = some m' →
    m'.2 = m.2 ∨ m.1 ∈ countKeys ∧ Quoted m.2 m'.2

/-- `lookup` after `Quotes`: the same, or a number of `countKeys` and its text. -/
theorem lookup_quotes {ms ms' : Members} (h : Quotes ms ms') (key : String) :
    lookup key ms' = lookup key ms ∨
      key ∈ countKeys ∧ ∃ v w, lookup key ms = some v ∧ lookup key ms' = some w ∧ Quoted v w := by
  obtain ⟨hkeys, hvalues⟩ := h
  -- the members stand side by side, with the same keys
  induction ms generalizing ms' with
  | nil =>
    cases ms' with
    | nil => exact .inl rfl
    | cons m' ms' => cases hkeys
  | cons m ms ih =>
    cases ms' with
    | nil => cases hkeys
    | cons m' ms' =>
      obtain ⟨hkey, hkeys⟩ := List.cons.inj hkeys
      unfold lookup
      rw [hkey]
      split
      · next heq =>
        rcases hvalues 0 m m' rfl rfl with hsame | ⟨hcount, hquoted⟩
        · exact .inl (by rw [hsame])
        · exact .inr ⟨heq ▸ hcount, m.2, m'.2, rfl, rfl, hquoted⟩
      · exact ih hkeys fun i => hvalues (i + 1)

/-- `field` under other keys is the same after `Quotes`. -/
theorem field_quotes_of_not_mem {ms ms' : Members} (h : Quotes ms ms') {keys : List String}
    (hkeys : ∀ key ∈ keys, key ∉ countKeys) :
    field keys (.object ms') = field keys (.object ms) := by
  apply field_congr_of_reported
  intro key hkey
  rcases lookup_quotes h key with hsame | ⟨hcount, -⟩
  · exact congrArg (Option.filter _) hsame
  · exact absurd hcount (hkeys key hkey)

/-- `field` after `Quotes`: the same, or a number and its text. -/
theorem field_quotes {ms ms' : Members} (h : Quotes ms ms') (keys : List String) :
    field keys (.object ms') = field keys (.object ms) ∨
      ∃ v w, field keys (.object ms) = some v ∧ field keys (.object ms') = some w ∧ Quoted v w := by
  unfold field
  induction keys with
  | nil => exact .inl rfl
  | cons key keys ih =>
    rw [List.findSome?_cons, List.findSome?_cons]
    have hmember (ms : Members) : (Json.object ms).member? key = lookup key ms := rfl
    rw [hmember, hmember]
    rcases lookup_quotes h key with hsame | ⟨-, v, w, hv, hw, hquoted⟩
    · rw [hsame]
      cases (lookup key ms).filter fun v => !v.isNull with
      | none => exact ih
      | some v => exact .inl rfl
    · rw [hv, hw]
      cases hquoted with
      | mk n before after fits hbefore hafter =>
        exact .inr ⟨_, _, rfl, rfl, .mk n before after fits hbefore hafter⟩

/-! ## Records -/

/-- A reader that sees no difference between a number and its text, nor inside of arrays and
objects. -/
structure Lenient {α : Type} (read : Option Json → Option α) : Prop where
  revised : ∀ v w, Revised Quotes v w → read (some w) = read (some v)
  quoted : ∀ v w, Quoted v w → read (some w) = read (some v)

theorem lenient_count? : Lenient count? where
  revised v w h := by cases h <;> rfl
  quoted v w h := by
    cases h with
    | mk n before after fits hbefore hafter => exact (read_quoted fits hbefore hafter).1

theorem lenient_code? : Lenient code? where
  revised v w h := by cases h <;> rfl
  quoted v w h := by
    cases h with
    | mk n before after fits hbefore hafter => exact (read_quoted fits hbefore hafter).2.1

section

variable {α : Type} {read : Option Json → Option α} {p q : Json}

/-- A `Lenient` reader reads the same under any keys. -/
theorem Lenient.read_field (hread : Lenient read) (h : Revised Quotes p q) (keys : List String) :
    read (field keys q) = read (field keys p) := by
  cases h with
  | same => rfl
  | array items items' => rw [field_of_not_object rfl, field_of_not_object rfl]
  | object ms ms' ms'' hkeys inner change =>
    -- the members are revised first, and then numbers among them become texts
    have hvalues : read (field keys (.object ms')) = read (field keys (.object ms)) := by
      have hrel := field_revised_of_lookup (lookup_revised hkeys inner) keys
      generalize field keys (.object ms) = o, field keys (.object ms') = o' at hrel
      cases hrel with
      | none => rfl
      | some hv => exact hread.revised _ _ hv
    rcases change with rfl | hquotes
    · exact hvalues
    · rw [← hvalues]
      rcases field_quotes hquotes keys with hsame | ⟨v, w, hv, hw, hquoted⟩
      · rw [hsame]
      · rw [hv, hw]
        exact hread.quoted v w hquoted

/-- A `Lenient` reader reads the same at a place that is not reached through `countKeys`. -/
theorem Lenient.read_follow (hread : Lenient read) (h : Revised Quotes p q) {way : Place}
    (hway : ∀ keys ∈ way, ∀ key ∈ keys, key ∉ countKeys) (keys : List String) :
    read (follow (way ++ [keys]) q) = read (follow (way ++ [keys]) p) := by
  induction way generalizing p q with
  | nil =>
    rw [List.nil_append, follow_one, follow_one]
    exact hread.read_field h keys
  | cons first way ih =>
    rw [List.forall_mem_cons] at hway
    have hfield := field_revised h fun ms ms' hquotes => field_quotes_of_not_mem hquotes hway.1
    rw [List.cons_append]
    unfold follow
    generalize field first p = o, field first q = o' at hfield
    cases hfield with
    | none => rfl
    | some hv => exact ih hv hway.2

end

namespace Field

variable {R α : Type} {f : Field R} {way : Place}

/-- `value` does not depend on which numbers are sent as texts. -/
def Kept (f : Field R) : Prop := ∀ p q, Revised Quotes p q → f.value q = f.value p

/-- A `Stable` field under other keys is `Kept`. -/
theorem kept_of_stable (hf : f.Stable Quotes)
    (hkeys : ∀ place ∈ f.places, ∀ keys ∈ place, ∀ key ∈ keys, key ∉ countKeys) : f.Kept := by
  intro p q h
  refine (value_revised h hf fun place hplace keys hmem ms ms' hquotes => ?_).symm
  exact field_quotes_of_not_mem hquotes (hkeys place hplace keys hmem)

theorem kept_count (keys : List String) (get : R → ℕ) : (count [[keys]] get).Kept := by
  intro p q h
  rw [value_count, value_count, followFirst_one, followFirst_one, follow_one, follow_one,
    lenient_count?.read_field h keys]

/-- A field of a `Lenient` reader is `Kept`. -/
theorem kept_reported {read : Option Json → Option α} (hread : Lenient read)
    (hnone : read none = none) (hway : ∀ keys ∈ way, ∀ key ∈ keys, key ∉ countKeys)
    (keys : List String) (get : R → Reported α) : (reported read [way ++ [keys]] get).Kept := by
  intro p q h
  rw [value_reported hnone, value_reported hnone, followFirst_one, followFirst_one,
    hread.read_follow h hway keys]

theorem kept_code (keys : List String) (get : R → Reported ℕ) :
    (reported code? [[keys]] get).Kept :=
  kept_reported lenient_code? rfl (List.forall_mem_nil _) keys get

end Field

namespace Source

theorem kept_intent : ∀ f ∈ IntentStatus.fields, f.Kept := by
  have hplain : ∀ keys ∈ keyGroups .intent, ∀ key ∈ keys, key ∉ countKeys := by decide
  have hneutral (ms ms' : Members) (h : Quotes ms ms') : Neutral .intent ms ms' :=
    fun keys hkeys => field_quotes_of_not_mem h (hplain keys hkeys)
  intro f hf
  refine Field.kept_of_stable (stable_fields .intent hneutral f hf) ?_
  intro place hplace keys hkeys
  exact hplain keys (Source.mem_keyGroups hf hplace hkeys)

theorem kept_ledger {keys : List String} (hkeys : ∀ key ∈ keys, key ∉ countKeys)
    (ledger : ChainStatus → Ledger) : ∀ f ∈ ChainStatus.ledgerFields keys ledger, f.Kept := by
  have hway : ∀ keys' ∈ [keys], ∀ key ∈ keys', key ∉ countKeys := by
    rw [List.forall_mem_singleton]
    exact hkeys
  have htext (keys' : List String) (hkeys' : ∀ key ∈ keys', key ∉ countKeys)
      (get : ChainStatus → Reported String) :
      (Field.reported text? [[keys, keys']] get).Kept := by
    refine Field.kept_of_stable (Field.stable_text _ _) (List.forall_mem_singleton.mpr ?_)
    intro group hgroup
    rcases List.mem_pair.mp hgroup with rfl | rfl
    · exact hkeys
    · exact hkeys'
  simp only [ChainStatus.ledgerFields, List.forall_mem_cons]
  exact ⟨Field.kept_reported lenient_count? rfl hway _ _, htext _ (by decide) _,
    htext _ (by decide) _, List.forall_mem_nil _⟩

/-- Every field of every record is `Kept`. -/
theorem kept_fields (k : Source) : ∀ f ∈ k.fields, f.Kept := by
  cases k with
  | intent => exact kept_intent
  | chain =>
    show ∀ f ∈ ChainStatus.fields, f.Kept
    simp only [ChainStatus.fields, List.forall_mem_append]
    exact ⟨⟨kept_ledger (by decide) _, kept_ledger (by decide) _⟩, kept_ledger (by decide) _⟩
  | executor =>
    show ∀ f ∈ ExecutorStatus.fields, f.Kept
    simp only [ExecutorStatus.fields, List.forall_mem_cons]
    exact ⟨Field.kept_of_stable (Field.stable_flag _ _) (by decide), Field.kept_count _ _,
      Field.kept_code _ _,
      Field.kept_of_stable (Field.stable_text _ _) (by decide),
      Field.kept_of_stable (Field.stable_text _ _) (by decide),
      Field.kept_of_stable (Field.stable_text _ _) (by decide), List.forall_mem_nil _⟩
  | risk =>
    show ∀ f ∈ RiskStatus.fields, f.Kept
    simp only [RiskStatus.fields, List.forall_mem_cons]
    exact ⟨Field.kept_of_stable (Field.stable_text _ _) (by decide),
      Field.kept_of_stable (Field.stable_text _ _) (by decide), Field.kept_count _ _,
      Field.kept_of_stable (Field.stable_texts _ _) (by decide),
      Field.kept_of_stable (Field.stable_texts _ _) (by decide), List.forall_mem_nil _⟩

/-- `read` is the same after `Revised Quotes`. -/
theorem read_quotes (k : Source) {p q : Json} (h : Revised Quotes p q) :
    k.read (some q) = k.read (some p) := by
  -- no envelope is held by the key of a count
  have hdata : ∀ key ∈ ["data"], key ∉ countKeys := by decide
  have hcontent : Revised Quotes (content p) (content q) :=
    openEnvelopes_revised maxEnvelopes h fun ms ms' hquotes => field_quotes_of_not_mem hquotes hdata
  rw [read_some, read_some]
  apply ext_fields
  intro f hf
  rw [get_readContent k _ f hf, get_readContent k _ f hf]
  exact k.kept_fields f hf _ _ hcontent

end Source

/-- Every number that `Fits` has the same `count?`, `code?` and `text?` as its text with any blank
space around it. So `k.read` is the same after `Revised Quotes`, for every source and payload. -/
theorem numbers_as_texts :
    (∀ (n : Json.Number) (before after : String), n.Fits →
      (∀ c ∈ before.toList, isBlank c = true) → (∀ c ∈ after.toList, isBlank c = true) →
        count? (some (.string (before ++ n.text ++ after))) = count? (some (.number n)) ∧
        code? (some (.string (before ++ n.text ++ after))) = code? (some (.number n)) ∧
        text? (some (.string (before ++ n.text ++ after))) = text? (some (.number n))) ∧
    ∀ (k : Source) (p q : Json), Revised Quotes p q → k.read (some q) = k.read (some p) :=
  ⟨fun _ _ _ fits hbefore hafter => read_quoted fits hbefore hafter,
    fun k _ _ h => k.read_quotes h⟩

/-- A code and a streak that an executor sends as texts. -/
theorem numbers_as_texts_executor :
    code? (some (.string " 503\n")) = some 503 ∧
      Source.executor.read (some (.object [("fail_streak", .string " 3 ")])) =
        Source.executor.read (some (.object [("fail_streak", .number (.whole 3))])) := by
  have hquotes : Quotes [("fail_streak", .number (.whole 3))] [("fail_streak", .string " 3 ")] := by
    refine ⟨rfl, fun i m m' hm hm' => .inr ?_⟩
    cases i with
    | succ i => cases hm
    | zero =>
      cases hm
      cases hm'
      exact ⟨by decide, .mk (.whole 3) " " " " (.whole 3 (by decide) (by decide)) (by decide)
        (by decide)⟩
  constructor
  · exact (numbers_as_texts.1 (.whole 503) " " "\n" (.whole 503 (by decide) (by decide)) (by decide)
      (by decide)).2.1
  · exact numbers_as_texts.2 .executor _ _
      (.object _ _ _ rfl (fun i m m' hm hm' => by
        cases hm.symm.trans hm'
        exact .same _) (.inr hquotes))

end Interlock
