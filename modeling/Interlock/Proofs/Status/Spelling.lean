import Interlock.Proofs.Status.Revised

/-!
# Two spellings of a key

Nineteen keys have a second spelling, and a record does not depend on which of the two a payload
uses. `neutral_renames`, `neutral_doubles` and `neutral_clears` say of a single object that its keys
may take their second spelling, that a second spelling may be added where the first one reports, and
that a null may go; `read_revised` carries each of them through a whole payload.
-/

namespace Interlock

open Reading Json

/-! ## The second spellings -/

namespace Source

/-- The keys of a source that have a second spelling, with that spelling. -/
def spellings : Source → List (String × String)
  | .intent => [("event_id", "eventId"), ("ts_iso", "tsIso"), ("execution_mode", "executionMode"),
    ("dry_run", "dryRun"), ("evidence_ok", "evidenceOk")]
  | .chain => [("execution_intent", "executionIntent"), ("paper_orders", "paperOrders"),
    ("paper_fills", "paperFills"), ("last_hash", "lastHash"),
    ("schema_expected", "schemaExpected")]
  | .executor => [("kill_switch", "killSwitch"), ("fail_streak", "failStreak"),
    ("last_http_code", "lastHttpCode"), ("last_event_id", "lastEventId"),
    ("source_path", "sourcePath"), ("ts_checked_iso", "tsCheckedIso")]
  | .risk => [("current_regime", "currentRegime"), ("target_regime", "targetRegime"),
    ("cooldown_remaining_ms", "cooldownRemainingMs")]

end Source

/-- All keys that have a second spelling, with that spelling. -/
def allSpellings : List (String × String) := Source.all.flatMap Source.spellings

/-- The second spelling of a key; a key that has none stays as it is. -/
def secondSpelling (key : String) : String :=
  match allSpellings.find? (·.1 = key) with
  | some s => s.2
  | none => key

theorem Source.mem_allSpellings {k : Source} {s : String × String} (h : s ∈ k.spellings) :
    s ∈ allSpellings := List.mem_flatMap.2 ⟨k, k.mem_all, h⟩

/-- No spelling stands for two keys. -/
theorem spellings_apart : ∀ s ∈ allSpellings, ∀ t ∈ allSpellings,
    s.2 ≠ t.1 ∧ (s.1 = t.1 → s = t) ∧ (s.2 = t.2 → s = t) := by
  decide

/-- The `keyGroups` are pairs of `spellings`, or keys with one spelling. -/
theorem Source.keyGroups_spelled (k : Source) : ∀ keys ∈ k.keyGroups,
    (∃ s ∈ k.spellings, keys = [s.1, s.2]) ∨
      ∀ key ∈ keys, ∀ s ∈ allSpellings, key ≠ s.1 ∧ key ≠ s.2 := by
  cases k <;> decide

/-- The key that a member takes, if the `chosen` keys take their second spelling. -/
def respell (chosen : String → Bool) (key : String) : String :=
  if chosen key then secondSpelling key else key

/-- `respell` gives the second spelling of a `chosen` key, or the key. -/
theorem respell_cases (chosen : String → Bool) (key : String) :
    (∃ s ∈ allSpellings, chosen key = true ∧ key = s.1 ∧ respell chosen key = s.2) ∨
      respell chosen key = key ∧ (chosen key = true → ∀ s ∈ allSpellings, key ≠ s.1) := by
  unfold respell secondSpelling
  cases hchosen : chosen key with
  | false => exact .inr ⟨rfl, nofun⟩
  | true =>
    cases hfind : allSpellings.find? (·.1 = key) with
    | none =>
      refine .inr ⟨rfl, fun _ s hs hkey => ?_⟩
      exact List.find?_eq_none.1 hfind s hs (decide_eq_true hkey.symm)
    | some s =>
      have hkey : s.1 = key := by simpa using List.find?_some hfind
      exact .inl ⟨s, List.mem_of_find?_eq_some hfind, rfl, hkey.symm, rfl⟩

theorem respell_eq_iff_of_plain {key : String}
    (h : ∀ s ∈ allSpellings, key ≠ s.1 ∧ key ≠ s.2) (chosen : String → Bool) (other : String) :
    respell chosen other = key ↔ other = key := by
  rcases respell_cases chosen other with ⟨s, hs, -, hother, hrespell⟩ | ⟨hrespell, -⟩
  · rw [hrespell, hother]
    exact ⟨fun heq => absurd heq.symm (h s hs).2, fun heq => absurd heq.symm (h s hs).1⟩
  · rw [hrespell]

section

variable {s : String × String} (hs : s ∈ allSpellings) (chosen : String → Bool) (key : String)
include hs

/-- `respell` gives `s.2` for `s.2`, and for `s.1` if `chosen`. -/
theorem respell_eq_second_iff :
    respell chosen key = s.2 ↔ key = s.2 ∨ chosen key = true ∧ key = s.1 := by
  rcases respell_cases chosen key with ⟨t, ht, hchosen, rfl, hrespell⟩ | ⟨hrespell, hplain⟩
  · have hst := spellings_apart s hs t ht
    rw [hrespell]
    constructor
    · intro heq
      exact .inr ⟨hchosen, by rw [hst.2.2 heq.symm]⟩
    · rintro (heq | ⟨-, heq⟩)
      · exact absurd heq.symm hst.1
      · rw [hst.2.1 heq.symm]
  · rw [hrespell]
    constructor
    · exact .inl
    · rintro (heq | ⟨hchosen, heq⟩)
      · exact heq
      · exact absurd heq (hplain hchosen s hs)

/-- `respell` gives `s.1` for `s.1` if not `chosen`. -/
theorem respell_eq_first_iff :
    respell chosen key = s.1 ↔ key = s.1 ∧ chosen key = false := by
  rcases respell_cases chosen key with ⟨t, ht, hchosen, rfl, hrespell⟩ | ⟨hrespell, hplain⟩
  · rw [hrespell, hchosen]
    constructor
    · intro heq
      exact absurd heq (spellings_apart t ht s hs).1
    · rintro ⟨-, ⟨⟩⟩
  · rw [hrespell]
    constructor
    · intro heq
      exact ⟨heq, Bool.eq_false_iff.2 fun hchosen => hplain hchosen s hs heq⟩
    · exact And.left

end

/-! ## Changes of the spelling -/

/-- Some members take the second spelling of their key. Of two members with one key the first one
counts, as for every `lookup`. -/
def Renames (ms ms' : Members) : Prop :=
  ∃ chosen, Json.object ms' = .ofMembers (ms.map fun m => (respell chosen m.1, m.2)).reverse

/-- Next to a key that is there and not null, its second spelling is added, with any value. -/
def Doubles (ms ms' : Members) : Prop :=
  ∃ s ∈ allSpellings, ∃ v w, lookup s.1 ms = some w ∧ w.isNull = false ∧
    ms' = insertMember s.2 v ms

/-- A key with a second spelling goes if it is null. -/
def Clears (ms ms' : Members) : Prop :=
  ∃ s ∈ allSpellings, lookup s.1 ms = some .null ∧ ms' = ms.filter (·.1 ≠ s.1)

namespace Json

theorem lookup_eq_none_iff {key : String} {ms : Members} :
    lookup key ms = none ↔ ∀ m ∈ ms, m.1 ≠ key := by
  induction ms with
  | nil => simp [lookup]
  | cons m ms ih =>
    unfold lookup
    split <;> simp_all

/-- `lookup` of a key that only the members of `key` take. -/
theorem lookup_map_key {f : String → String} {key key' : String} {ms : Members}
    (h : ∀ m ∈ ms, f m.1 = key' ↔ m.1 = key) :
    lookup key' (ms.map fun m => (f m.1, m.2)) = lookup key ms := by
  induction ms with
  | nil => rfl
  | cons m ms ih =>
    rw [List.forall_mem_cons] at h
    simp only [List.map_cons, lookup, h.1, ih h.2]

theorem lookup_filter_of_ne {key other : String} (h : other ≠ key) (ms : Members) :
    lookup other (ms.filter (·.1 ≠ key)) = lookup other ms := by
  induction ms with
  | nil => rfl
  | cons m ms ih =>
    by_cases hm : m.1 = key
    · rw [List.filter_cons_of_neg (by simp [hm]), ih]
      simp [lookup, hm, Ne.symm h]
    · rw [List.filter_cons_of_pos (by simp [hm])]
      simp only [lookup, ih]

theorem lookup_filter_self (key : String) (ms : Members) :
    lookup key (ms.filter (·.1 ≠ key)) = none := by
  rw [lookup_eq_none_iff]
  intro m hm
  simpa using (List.mem_filter.1 hm).2

end Json

/-- `lookup` after `Renames`. -/
theorem lookup_of_renames {chosen : String → Bool} {ms ms' : Members}
    (h : Json.object ms' = .ofMembers (ms.map fun m => (respell chosen m.1, m.2)).reverse)
    (key : String) : lookup key ms' = lookup key (ms.map fun m => (respell chosen m.1, m.2)) := by
  have hmember := member?_ofMembers key (ms.map fun m => (respell chosen m.1, m.2)).reverse
  rw [List.reverse_reverse, ← h] at hmember
  exact hmember

/-- `field` of two spellings: the first that is not null. -/
theorem Reading.field_two (first second : String) (ms : Members) :
    field [first, second] (.object ms) =
      ((lookup first ms).filter (!·.isNull)).or ((lookup second ms).filter (!·.isNull)) := by
  show ([first, second].findSome? fun key => (lookup key ms).filter _) = _
  rw [List.findSome?_cons, List.findSome?_cons, List.findSome?_nil]
  cases (lookup first ms).filter (!·.isNull) with
  | some v => rfl
  | none => cases (lookup second ms).filter (!·.isNull) <;> rfl

namespace Source

variable {k : Source} {ms ms' : Members}

/-- `Renames` is `Neutral` if no second spelling was there. -/
theorem neutral_renames (h : Renames ms ms') (hms : ∀ s ∈ k.spellings, lookup s.2 ms = none) :
    k.Neutral ms ms' := by
  obtain ⟨chosen, h⟩ := h
  have hlookup := lookup_of_renames h
  intro keys hkeys
  rcases k.keyGroups_spelled keys hkeys with ⟨s, hs, rfl⟩ | hplain
  · have hall := mem_allSpellings hs
    have hsecond : ∀ m ∈ ms, m.1 ≠ s.2 := lookup_eq_none_iff.1 (hms s hs)
    cases hchosen : chosen s.1 with
    | true =>
      -- the value has moved to the second spelling, and nothing is left under the first one
      have hmoved : lookup s.2 ms' = lookup s.1 ms := by
        rw [hlookup]
        apply lookup_map_key
        intro m hm
        rw [respell_eq_second_iff hall]
        constructor
        · rintro (heq | ⟨-, heq⟩)
          · exact absurd heq (hsecond m hm)
          · exact heq
        · intro heq
          exact .inr ⟨heq ▸ hchosen, heq⟩
      have hleft : lookup s.1 ms' = none := by
        rw [hlookup, lookup_eq_none_iff]
        intro m hm heq
        obtain ⟨m, -, rfl⟩ := List.mem_map.1 hm
        obtain ⟨hfirst, hkept⟩ := (respell_eq_first_iff hall chosen m.1).1 heq
        rw [hfirst, hchosen] at hkept
        cases hkept
      rw [field_two, field_two, hmoved, hleft, hms s hs]
      exact (Option.or_none).symm
    | false =>
      -- nothing has moved
      have hfirst : lookup s.1 ms' = lookup s.1 ms := by
        rw [hlookup]
        apply lookup_map_key
        intro m _
        rw [respell_eq_first_iff hall]
        exact ⟨And.left, fun heq => ⟨heq, heq ▸ hchosen⟩⟩
      have hsecond' : lookup s.2 ms' = lookup s.2 ms := by
        rw [hlookup]
        apply lookup_map_key
        intro m _
        rw [respell_eq_second_iff hall]
        constructor
        · rintro (heq | ⟨hm, heq⟩)
          · exact heq
          · rw [heq, hchosen] at hm
            cases hm
        · exact .inl
      rw [field_two, field_two, hfirst, hsecond']
  · apply field_congr_of_reported
    intro key hkey
    have hsame : lookup key ms' = lookup key ms := by
      rw [hlookup]
      apply lookup_map_key
      intro m _
      exact respell_eq_iff_of_plain (hplain key hkey) chosen m.1
    exact congrArg (Option.filter _) hsame

/-- `Doubles` is `Neutral`. -/
theorem neutral_doubles (h : Doubles ms ms') : k.Neutral ms ms' := by
  obtain ⟨s, hs, v, w, hfirst, hw, rfl⟩ := h
  have hother {key : String} (hkey : key ≠ s.2) :
      lookup key (insertMember s.2 v ms) = lookup key ms := lookup_insertMember_of_ne hkey v ms
  have hadded := hother (Ne.symm (spellings_apart s hs s hs).1)
  intro keys hkeys
  by_cases hsecond : s.2 ∈ keys
  · -- the keys are the two spellings, and the first one reports
    rcases k.keyGroups_spelled keys hkeys with ⟨t, ht, rfl⟩ | hplain
    · have hst : s = t := by
        have happart := spellings_apart s hs t (mem_allSpellings ht)
        rcases List.mem_pair.1 hsecond with heq | heq
        · exact absurd heq happart.1
        · exact happart.2.2 heq
      subst hst
      rw [field_two, field_two, hadded, hfirst, Option.filter_some_pos (by simp [hw])]
      rfl
    · exact absurd rfl (hplain s.2 hsecond s hs).2
  · apply field_congr_of_reported
    intro key hkey
    exact congrArg (Option.filter _) (hother fun heq => hsecond (heq ▸ hkey))

/-- `Clears` is `Neutral`. -/
theorem neutral_clears (h : Clears ms ms') : k.Neutral ms ms' := by
  obtain ⟨s, -, hnull, rfl⟩ := h
  intro keys _
  apply field_congr_of_reported
  intro key _
  show (lookup key (ms.filter (·.1 ≠ s.1))).filter _ = (lookup key ms).filter _
  by_cases hkey : key = s.1
  · rw [hkey, lookup_filter_self, hnull]
    rfl
  · rw [lookup_filter_of_ne hkey]

/-- No object of a document has a member under a second spelling of the source. -/
def Unaliased (k : Source) (p : Json) : Prop :=
  ∀ ms, (Json.object ms).Within p → ∀ s ∈ k.spellings, lookup s.2 ms = none

theorem revised_renames {p q : Json} (hp : k.Unaliased p) (h : Revised Renames p q) :
    Revised (fun ms ms' => Renames ms ms' ∧ ∀ s ∈ k.spellings, lookup s.2 ms = none) p q := by
  apply h.mono
  intro ms ms' ms'' hwithin hkeys hrenames
  refine ⟨hrenames, fun s hs => ?_⟩
  -- the values may have been revised, and the keys are those of the document
  rw [lookup_eq_none_iff]
  intro m hm heq
  obtain ⟨m', hm', hkey⟩ := List.mem_map.1 (hkeys ▸ List.mem_map_of_mem hm)
  exact lookup_eq_none_iff.1 (hp ms hwithin s hs) m' hm' (hkey.trans heq)

/-- `k.read` is the same after `Revised Renames` of an `Unaliased` payload, after `Revised Doubles`
and after `Revised Clears`, for every source and at whatever depth. -/
theorem spelling_immaterial (k : Source) (p q : Json) :
    (k.Unaliased p → Revised Renames p q → k.read (some q) = k.read (some p)) ∧
    (Revised Doubles p q → k.read (some q) = k.read (some p)) ∧
    (Revised Clears p q → k.read (some q) = k.read (some p)) := by
  refine ⟨?_, ?_, ?_⟩
  · intro hp h
    exact read_revised k (fun _ _ hchange => neutral_renames hchange.1 hchange.2)
      (revised_renames hp h)
  · exact read_revised k fun _ _ hchange => neutral_doubles hchange
  · exact read_revised k fun _ _ hchange => neutral_clears hchange

/-- The switch of the intent is read under its second spelling, and not the one beside the intent
instead. -/
theorem spelling_immaterial_intent :
    let payload (key : String) : Members :=
      [("dry_run", .bool false), ("intent", .object [(key, .bool true)])]
    let p := Json.object (payload "dry_run")
    let q := Json.object (payload "dryRun")
    Unaliased .intent p ∧ Revised Renames p q ∧ (IntentStatus.ofPayload (some p)).dryRun = true ∧
      Source.intent.read (some q) = Source.intent.read (some p) := by
  intro payload p q
  have hunaliased : Unaliased .intent p := by
    intro ms (h : (Json.object ms).Within (.object [("dry_run", .bool false),
      ("intent", .object [("dry_run", .bool true)])]))
    -- the payload and the intent are the objects there are
    cases h with
    | here => decide
    | member _ m hm h =>
      rcases List.mem_pair.1 hm with rfl | rfl
      · cases h
      · cases h with
        | here => decide
        | member _ m hm h =>
          obtain rfl := List.mem_singleton.1 hm
          cases h
  have hintent : Revised Renames (.object [("dry_run", .bool true)])
      (.object [("dryRun", .bool true)]) := by
    refine .object _ [("dry_run", .bool true)] _ rfl ?_ (.inr ⟨fun _ => true, rfl⟩)
    intro i m m' hm hm'
    rw [hm] at hm'
    cases hm'
    exact .same _
  have hrevised : Revised Renames p q := by
    refine .object _ (payload "dryRun") _ rfl (fun i m m' hm hm' => ?_) (.inl rfl)
    match i with
    | 0 =>
      cases hm
      cases hm'
      exact .same _
    | 1 =>
      cases hm
      cases hm'
      exact hintent
    | i + 2 => cases hm
  exact ⟨hunaliased, hrevised, by decide, (spelling_immaterial .intent p q).1 hunaliased hrevised⟩

end Source

end Interlock
