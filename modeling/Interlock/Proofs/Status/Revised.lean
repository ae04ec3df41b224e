import Interlock.Proofs.Status.Field
import Interlock.Proofs.Status.Written

/-!
# Revised documents

A payload may be written in other words: some members of its objects are changed, at whatever depth,
and its record is to stay what it is.

* `Json.Revised E p q`: `q` is `p` with the members of any of its objects changed as `E` allows.
* `followFirst_revised` and `openEnvelopes_revised`: what stands at the places of a document is
  `Revised` like the document, if `E` keeps what `field` reports on the way.
* `Source.read_revised`: changes that are `Neutral` for a source keep its record. The argument goes
  through the document along with the reader, and needs no more than that equal readings of equal
  places make equal fields.
-/

namespace Interlock

open Reading

/-! ## Revised documents -/

namespace Json

/-- The members of an object. -/
abbrev Members := List (String × Json)

/-- The document `q` is `p` with the members of any of its objects, at whatever depth, changed as
`E` allows. -/
inductive Revised (E : Members → Members → Prop) : Json → Json → Prop
  | same (j : Json) : Revised E j j
  /-- The items of an array are revised, each on its own. -/
  | array (items items' : List Json) (length : items'.length = items.length)
    (inner : ∀ (i : Nat) j j', items[i]? = some j → items'[i]? = some j' → Revised E j j') :
    Revised E (.array items) (.array items')
  /-- The values of an object are revised, each on its own, and then its members may be changed. -/
  | object (ms ms' ms'' : Members) (keys : ms'.map Prod.fst = ms.map Prod.fst)
    (inner : ∀ (i : Nat) m m', ms[i]? = some m → ms'[i]? = some m' → Revised E m.2 m'.2)
    (change : ms'' = ms' ∨ E ms' ms'') :
    Revised E (.object ms) (.object ms'')

variable {E E' : Members → Members → Prop} {p q : Json}

/-- `Revised E` is `Revised E'` if `E` implies `E'` on the objects of the document. -/
theorem Revised.mono (h : Revised E p q)
    (hE : ∀ ms ms' ms'', (Json.object ms).Within p → ms'.map Prod.fst = ms.map Prod.fst →
      E ms' ms'' → E' ms' ms'') : Revised E' p q := by
  induction h with
  | same j => exact .same j
  | array items items' length inner ih =>
    refine .array items items' length fun i j j' hj hj' => ih i j j' hj hj' ?_
    intro ms ms' ms'' hwithin
    exact hE ms ms' ms'' (.item items j (List.mem_of_getElem? hj) hwithin)
  | object ms ms' ms'' keys inner change ih =>
    refine .object ms ms' ms'' keys (fun i m m' hm hm' => ih i m m' hm hm' ?_)
      (change.imp_right (hE ms ms' ms'' .here keys))
    intro inside inside' inside'' hwithin
    exact hE inside inside' inside'' (.member ms m (List.mem_of_getElem? hm) hwithin)

theorem Revised.isObject (h : Revised E p q) : q.isObject = p.isObject := by
  cases h <;> rfl

theorem Revised.isNull (h : Revised E p q) : q.isNull = p.isNull := by
  cases h <;> rfl

/-- `lookup` among revised values is `Revised`. -/
theorem lookup_revised {ms ms' : Members} (keys : ms'.map Prod.fst = ms.map Prod.fst)
    (inner : ∀ (i : Nat) m m', ms[i]? = some m → ms'[i]? = some m' → Revised E m.2 m'.2)
    (key : String) : Option.Rel (Revised E) (lookup key ms) (lookup key ms') := by
  induction ms generalizing ms' with
  | nil =>
    cases ms' with
    | nil => exact .none
    | cons m' ms' => cases keys
  | cons m ms ih =>
    cases ms' with
    | nil => cases keys
    | cons m' ms' =>
      obtain ⟨hkey, hkeys⟩ := List.cons.inj keys
      unfold lookup
      rw [hkey]
      split
      · exact .some (inner 0 m m' rfl rfl)
      · exact ih hkeys fun i => inner (i + 1)

end Json

open Json

namespace Reading

variable {E : Members → Members → Prop} {p q : Json}

theorem rel_same (o : Option Json) : Option.Rel (Revised E) o o := by
  cases o with
  | none => exact .none
  | some v => exact .some (.same v)

/-- `field` is `Revised` if every `lookup` is. -/
theorem field_revised_of_lookup {ms ms' : Members}
    (h : ∀ key, Option.Rel (Revised E) (lookup key ms) (lookup key ms')) (keys : List String) :
    Option.Rel (Revised E) (field keys (.object ms)) (field keys (.object ms')) := by
  unfold field
  induction keys with
  | nil => exact .none
  | cons key keys ih =>
    have hfirst : Option.Rel (Revised E) ((Json.object ms).member? key)
        ((Json.object ms').member? key) := h key
    rw [List.findSome?_cons, List.findSome?_cons]
    generalize (Json.object ms).member? key = o, (Json.object ms').member? key = o' at hfirst
    cases hfirst with
    | none => exact ih
    | @some v v' hv =>
      -- a revised value is null if and only if it was null
      simp only [Option.filter_some, hv.isNull]
      cases v.isNull with
      | true => exact ih
      | false => exact .some hv

/-- `field` is `Revised` if `E` keeps it. -/
theorem field_revised (h : Revised E p q) {keys : List String}
    (hE : ∀ ms ms', E ms ms' → field keys (.object ms') = field keys (.object ms)) :
    Option.Rel (Revised E) (field keys p) (field keys q) := by
  cases h with
  | same => exact rel_same _
  | array items items' =>
    rw [field_of_not_object rfl, field_of_not_object rfl]
    exact .none
  | object ms ms' ms'' hkeys inner change =>
    have hchange : field keys (.object ms'') = field keys (.object ms') := by
      rcases change with rfl | hchange
      · rfl
      · exact hE ms' ms'' hchange
    rw [hchange]
    exact field_revised_of_lookup (lookup_revised hkeys inner) keys

/-- `follow` is `Revised` if `E` keeps `field` on the way. -/
theorem follow_revised (h : Revised E p q) {place : Place}
    (hE : ∀ keys ∈ place, ∀ ms ms', E ms ms' →
      field keys (.object ms') = field keys (.object ms)) :
    Option.Rel (Revised E) (follow place p) (follow place q) := by
  induction place generalizing p q with
  | nil => exact .some h
  | cons keys place ih =>
    rw [List.forall_mem_cons] at hE
    have hfield := field_revised h hE.1
    unfold follow
    generalize field keys p = o, field keys q = o' at hfield
    cases hfield with
    | none => exact .none
    | some hv => exact ih hv hE.2

/-- `followFirst` is `Revised` if `E` keeps `field` on the way. -/
theorem followFirst_revised (h : Revised E p q) {places : List Place}
    (hE : ∀ place ∈ places, ∀ keys ∈ place, ∀ ms ms', E ms ms' →
      field keys (.object ms') = field keys (.object ms)) :
    Option.Rel (Revised E) (followFirst places p) (followFirst places q) := by
  unfold followFirst
  induction places with
  | nil => exact .none
  | cons place places ih =>
    rw [List.forall_mem_cons] at hE
    have hfollow := follow_revised h hE.1
    rw [List.findSome?_cons, List.findSome?_cons]
    generalize follow place p = o, follow place q = o' at hfollow
    cases hfollow with
    | none => exact ih hE.2
    | some hv => exact .some hv

/-- `openEnvelopes` by `objectField`. -/
theorem openEnvelopes_succ (n : Nat) (j : Json) : openEnvelopes (n + 1) j =
    match objectField ["data"] j with
    | some inner => openEnvelopes n inner
    | none => j := by
  have hreported : objectField ["data"] j = (j.member? "data").filter Json.isObject := by
    unfold objectField field
    rw [List.findSome?_cons]
    cases j.member? "data" with
    | none => rfl
    | some v => cases v <;> rfl
  rw [hreported, openEnvelopes]
  cases j.member? "data" with
  | none => rfl
  | some inner => cases hobject : inner.isObject <;> simp [Option.filter_some, hobject]

/-- `openEnvelopes` is `Revised` if `E` keeps `data`. -/
theorem openEnvelopes_revised (n : Nat) (h : Revised E p q)
    (hE : ∀ ms ms', E ms ms' → field ["data"] (.object ms') = field ["data"] (.object ms)) :
    Revised E (openEnvelopes n p) (openEnvelopes n q) := by
  induction n generalizing p q with
  | zero => exact h
  | succ n ih =>
    have hdata := field_revised h hE
    rw [openEnvelopes_succ, openEnvelopes_succ]
    unfold objectField
    generalize field ["data"] p = o, field ["data"] q = o' at hdata
    cases hdata with
    | none => exact h
    | @some v v' hv =>
      simp only [Option.filter_some, hv.isObject]
      cases v.isObject with
      | true => exact ih hv
      | false => exact h

end Reading

/-! ## What is read of a revised document -/

namespace Field

variable {R α : Type} {E : Members → Members → Prop} {p q : Json}

/-- A field reads a `Revised` document like the document. -/
def Stable (E : Members → Members → Prop) (f : Field R) : Prop :=
  ∀ v v', Revised E v v' → f.read v = f.read v'

theorem stable_flag (places : List Place) (get : R → Bool) : (flag places get).Stable E := by
  intro v v' h
  cases h <;> rfl

theorem stable_count (places : List Place) (get : R → Nat) : (count places get).Stable E := by
  intro v v' h
  cases h <;> rfl

/-- A reader that refuses arrays and objects is `Stable`. -/
theorem stable_reported {read : Option Json → Option α}
    (harray : ∀ items, read (some (.array items)) = none)
    (hobject : ∀ ms, read (some (.object ms)) = none) (places : List Place)
    (get : R → Reported α) : (reported read places get).Stable E := by
  intro v v' h
  cases h with
  | same => rfl
  | array items items' =>
    show (read _).map some = (read _).map some
    rw [harray, harray]
  | object ms ms' ms'' =>
    show (read _).map some = (read _).map some
    rw [hobject, hobject]

theorem stable_text (places : List Place) (get : R → Reported String) :
    (reported text? places get).Stable E :=
  stable_reported (fun _ => rfl) (fun _ => rfl) places get

/-- A `list` is `Stable` if its items are. -/
theorem stable_list {β : Type} {item : Json → β} {collect : List β → List α}
    {read : List Json → List α} (hread : ∀ items, read items = collect (items.map item))
    (hitem : ∀ j j', Revised E j j' → item j = item j') (places : List Place)
    (get : R → List α) : (list read places get).Stable E := by
  intro v v' h
  cases h with
  | same => rfl
  | object => rfl
  | array items items' length inner =>
    have hitems : items.map item = items'.map item := by
      apply List.ext_getElem?
      intro i
      rw [List.getElem?_map, List.getElem?_map]
      cases hj : items[i]? with
      | none =>
        rw [List.getElem?_eq_none_iff.2 (by rw [length]; exact List.getElem?_eq_none_iff.1 hj)]
      | some j =>
        have hlt : i < items'.length := by
          rw [length]
          exact (List.getElem?_eq_some_iff.1 hj).1
        have hj' := List.getElem?_eq_getElem hlt
        rw [hj', Option.map_some, Option.map_some, hitem j _ (inner i j _ hj hj')]
    show some (read items) = some (read items')
    rw [hread, hread, hitems]

theorem stable_texts (places : List Place) (get : R → List String) :
    (list (List.filterMap fun j => text? (some j)) places get).Stable E := by
  have htexts (items : List Json) : items.filterMap (fun j => text? (some j)) =
      (items.map fun j => text? (some j)).filterMap id := by
    rw [List.filterMap_map]
    rfl
  have htext (j j' : Json) (h : Revised E j j') : text? (some j) = text? (some j') := by
    cases h <;> rfl
  exact stable_list htexts htext places get

/-- `value` of a `Stable` field is the same, if `E` keeps `field` under its keys. -/
theorem value_revised {f : Field R} (h : Revised E p q) (hf : f.Stable E)
    (hE : ∀ place ∈ f.places, ∀ keys ∈ place, ∀ ms ms', E ms ms' →
      field keys (.object ms') = field keys (.object ms)) : f.value p = f.value q := by
  have hfind : Option.Rel (Revised E) (f.find p) (f.find q) := followFirst_revised h hE
  unfold value
  generalize f.find p = o, f.find q = o' at hfind
  cases hfind with
  | none => rfl
  | some hv => rw [Option.bind_some, Option.bind_some, hf _ _ hv]

end Field

/-! ## The keys of a source -/

namespace Source

/-- The keys that a source reads, each with its spellings, at whatever depth. -/
def keyGroups (k : Source) : List (List String) :=
  ["data"] :: (k.fields.flatMap fun f => f.places.flatten) ++
    match k with
    | .intent => IntentItem.fields.flatMap fun f => f.places.flatten
    | _ => []

/-- A change of members that keeps `field` under the `keyGroups` of a source. -/
def Neutral (k : Source) (ms ms' : Members) : Prop :=
  ∀ keys ∈ k.keyGroups, field keys (.object ms') = field keys (.object ms)

variable {E : Members → Members → Prop} {p q : Json}

theorem mem_keyGroups {k : Source} {f : Field k.Record} (hf : f ∈ k.fields) {place : Place}
    (hplace : place ∈ f.places) {keys : List String} (hkeys : keys ∈ place) :
    keys ∈ k.keyGroups := by
  have hmem : keys ∈ k.fields.flatMap fun f => f.places.flatten :=
    List.mem_flatMap.2 ⟨f, hf, List.mem_flatten.2 ⟨place, hplace, hkeys⟩⟩
  exact List.mem_cons_of_mem _ (List.mem_append_left _ hmem)

/-- `IntentItem.ofJson` is the same after `Neutral` changes. -/
theorem ofJson_revised (hE : ∀ ms ms', E ms ms' → Neutral .intent ms ms') (h : Revised E p q) :
    IntentItem.ofJson p = IntentItem.ofJson q := by
  have hvalue : ∀ f ∈ IntentItem.fields, f.Stable E →
      f.get (IntentItem.ofJson p) = f.get (IntentItem.ofJson q) := by
    intro f hf hstable
    rw [IntentItem.get_ofJson p f hf, IntentItem.get_ofJson q f hf]
    refine Field.value_revised h hstable fun place hplace keys hkeys ms ms' hchange => ?_
    refine hE ms ms' hchange keys (List.mem_append_right _ ?_)
    exact List.mem_flatMap.2 ⟨f, hf, List.mem_flatten.2 ⟨place, hplace, hkeys⟩⟩
  simp only [IntentItem.fields, List.forall_mem_cons] at hvalue
  obtain ⟨hsymbol, hevidence, hdeny, -⟩ := hvalue
  exact IntentItem.ext (hsymbol (Field.stable_reported (fun _ => rfl) (fun _ => rfl) _ _))
    (hevidence (Field.stable_flag _ _)) (hdeny (Field.stable_flag _ _))

/-- Every field is `Stable` under `Neutral` changes. -/
theorem stable_fields (k : Source) (hE : ∀ ms ms', E ms ms' → k.Neutral ms ms') :
    ∀ f ∈ k.fields, f.Stable E := by
  cases k with
  | intent =>
    have hitems (items : List Json) : items.map IntentItem.ofJson =
        id (items.map IntentItem.ofJson) := rfl
    show ∀ f ∈ IntentStatus.fields, f.Stable E
    simp only [IntentStatus.fields, List.forall_mem_cons]
    exact ⟨Field.stable_text _ _, Field.stable_text _ _, Field.stable_text _ _,
      Field.stable_flag _ _, Field.stable_text _ _,
      Field.stable_list hitems (fun _ _ => ofJson_revised hE) _ _, List.forall_mem_nil _⟩
  | chain =>
    have hledger (keys : List String) (ledger : ChainStatus → Ledger) :
        ∀ f ∈ ChainStatus.ledgerFields keys ledger, f.Stable E := by
      simp only [ChainStatus.ledgerFields, List.forall_mem_cons]
      exact ⟨Field.stable_reported (fun _ => rfl) (fun _ => rfl) _ _, Field.stable_text _ _,
        Field.stable_text _ _, List.forall_mem_nil _⟩
    show ∀ f ∈ ChainStatus.fields, f.Stable E
    simp only [ChainStatus.fields, List.forall_mem_append]
    exact ⟨⟨hledger _ _, hledger _ _⟩, hledger _ _⟩
  | executor =>
    show ∀ f ∈ ExecutorStatus.fields, f.Stable E
    simp only [ExecutorStatus.fields, List.forall_mem_cons]
    exact ⟨Field.stable_flag _ _, Field.stable_count _ _,
      Field.stable_reported (fun _ => rfl) (fun _ => rfl) _ _, Field.stable_text _ _,
      Field.stable_text _ _, Field.stable_text _ _, List.forall_mem_nil _⟩
  | risk =>
    show ∀ f ∈ RiskStatus.fields, f.Stable E
    simp only [RiskStatus.fields, List.forall_mem_cons]
    exact ⟨Field.stable_text _ _, Field.stable_text _ _, Field.stable_count _ _,
      Field.stable_texts _ _, Field.stable_texts _ _, List.forall_mem_nil _⟩

/-- `read` is the same after `Neutral` changes. -/
theorem read_revised (k : Source) (hE : ∀ ms ms', E ms ms' → k.Neutral ms ms')
    (h : Revised E p q) : k.read (some q) = k.read (some p) := by
  have hcontent : Revised E (content p) (content q) :=
    openEnvelopes_revised maxEnvelopes h fun ms ms' hchange =>
      hE ms ms' hchange ["data"] List.mem_cons_self
  rw [read_some, read_some]
  apply ext_fields
  intro f hf
  rw [get_readContent k _ f hf, get_readContent k _ f hf]
  symm
  refine Field.value_revised hcontent (stable_fields k hE f hf) ?_
  intro place hplace keys hkeys ms ms' hchange
  exact hE ms ms' hchange keys (mem_keyGroups hf hplace hkeys)

end Source

end Interlock
