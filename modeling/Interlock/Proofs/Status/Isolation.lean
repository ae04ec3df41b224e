import Interlock.Proofs.Status.Field
import Interlock.Proofs.Status.Written

/-!
# One field at a time

`DifferAt path p q` says that two documents differ at most in what stands at `path`, and
`follow_differAt` what `follow` finds at another place of the two: the same, unless the place and
the path meet. From this follow, for every source, `get_read_congr` for the fields of its record and
`followFirst_items` for the items of an intent, each of which is read on its own.
-/

namespace Interlock

/-! ## Documents that differ at one path -/

/-- A step into a document. -/
inductive Json.Step
  /-- To the member of an object. -/
  | key (key : String)
  /-- To the item of an array. -/
  | entry (i : Nat)
  deriving DecidableEq

namespace Json

/-- The documents `p` and `q` differ at most in what stands at `path`. -/
inductive DifferAt : List Step → Json → Json → Prop
  /-- They may be any documents. -/
  | all (p q : Json) : DifferAt [] p q
  /-- They are objects that differ at most in the value, or the presence, of one member. -/
  | member (key : String) (ms ms' : List (String × Json))
    (others : ∀ other, other ≠ key → lookup other ms = lookup other ms') :
    DifferAt [.key key] (.object ms) (.object ms')
  /-- They are objects that differ at most inside one member. -/
  | inside (key : String) (s : Step) (path : List Step) (ms ms' : List (String × Json))
    (v v' : Json) (others : ∀ other, other ≠ key → lookup other ms = lookup other ms')
    (left : lookup key ms = some v) (right : lookup key ms' = some v')
    (differ : DifferAt (s :: path) v v') :
    DifferAt (.key key :: s :: path) (.object ms) (.object ms')
  /-- They are arrays that differ at most in one item. -/
  | entry (i : Nat) (path : List Step) (items : List Json) (x y : Json)
    (item : items[i]? = some x) (differ : DifferAt path x y) :
    DifferAt (.entry i :: path) (.array items) (.array (items.set i y))

theorem DifferAt.isNull {s : Step} {path : List Step} {p q : Json} (h : DifferAt (s :: path) p q) :
    p.isNull = false ∧ q.isNull = false := by
  cases h <;> exact ⟨rfl, rfl⟩

end Json

open Json Reading

namespace Reading

/-! ## What is found at a place -/

/-- A place and a path go on together until one of them ends. -/
def meets : Place → List Step → Bool
  | [], _ => true
  | _ :: _, [] => true
  | keys :: place, .key key :: path => keys.contains key && meets place path
  | _ :: _, .entry _ :: _ => false

/-- `field` under other keys is the same. -/
theorem field_of_others {key : String} {ms ms' : List (String × Json)} {keys : List String}
    (others : ∀ other, other ≠ key → lookup other ms = lookup other ms') (hkey : key ∉ keys) :
    field keys (.object ms) = field keys (.object ms') := by
  apply field_congr_of_reported
  intro other hother
  have hlookup := others other (fun heq => hkey (heq ▸ hother))
  show (lookup other ms).filter _ = (lookup other ms').filter _
  rw [hlookup]

/-- `field` of objects that differ in the value of one member is the same, or is that member. -/
theorem field_of_inside {key : String} {ms ms' : List (String × Json)} {v v' : Json}
    (others : ∀ other, other ≠ key → lookup other ms = lookup other ms')
    (left : lookup key ms = some v) (right : lookup key ms' = some v')
    (hv : v.isNull = false) (hv' : v'.isNull = false) (keys : List String) :
    field keys (.object ms) = field keys (.object ms') ∨
      field keys (.object ms) = some v ∧ field keys (.object ms') = some v' := by
  induction keys with
  | nil => exact .inl rfl
  | cons first keys ih =>
    by_cases hfirst : first = key
    · -- the member itself comes first
      subst hfirst
      exact .inr ⟨field_of_member? left hv, field_of_member? right hv'⟩
    · -- another member comes first, and it is the same in both
      have hsame : ((Json.object ms).member? first).filter (!·.isNull) =
          ((Json.object ms').member? first).filter (!·.isNull) :=
        congrArg (Option.filter _) (others first hfirst)
      unfold field at ih ⊢
      rw [List.findSome?_cons, List.findSome?_cons, hsame]
      cases ((Json.object ms').member? first).filter (!·.isNull) with
      | none => exact ih
      | some w => exact .inl rfl

/-- `follow place` is the same in both, unless the place meets the path. If the place ends first,
the two `DifferAt` the rest of the path behind it. -/
theorem follow_differAt {path : List Step} {p q : Json} (h : DifferAt path p q) (place : Place) :
    follow place p = follow place q ∨
      meets place path = true ∧ (place.length < path.length → ∃ v v',
        follow place p = some v ∧ follow place q = some v' ∧
          DifferAt (path.drop place.length) v v') := by
  induction place generalizing path p q with
  | nil => exact .inr ⟨rfl, fun _ => ⟨p, q, rfl, rfl, h⟩⟩
  | cons keys place ih =>
    have hfollow {j j' : Json} (hfield : field keys j = field keys j') :
        follow (keys :: place) j = follow (keys :: place) j' :=
      congrArg (Option.bind · (follow place)) hfield
    cases h with
    | all => exact .inr ⟨rfl, fun hlt => absurd hlt (Nat.not_lt_zero _)⟩
    | member key ms ms' others =>
      by_cases hkey : key ∈ keys
      · refine .inr ⟨?_, fun hlt => absurd hlt (by simp)⟩
        cases place <;> simp [meets, hkey]
      · exact .inl (hfollow (field_of_others others hkey))
    | inside key s path ms ms' v v' others left right differ =>
      by_cases hkey : key ∈ keys
      · obtain ⟨hv, hv'⟩ := differ.isNull
        rcases field_of_inside others left right hv hv' keys with hfield | ⟨hfield, hfield'⟩
        · exact .inl (hfollow hfield)
        · -- both go on from the member in which they differ
          have hp : follow (keys :: place) (.object ms) = follow place v :=
            congrArg (Option.bind · (follow place)) hfield
          have hq : follow (keys :: place) (.object ms') = follow place v' :=
            congrArg (Option.bind · (follow place)) hfield'
          rw [hp, hq]
          rcases ih differ with hsame | ⟨hmeets, hbehind⟩
          · exact .inl hsame
          · refine .inr ⟨by simp [meets, hkey, hmeets], fun hlt => ?_⟩
            exact hbehind (Nat.lt_of_succ_lt_succ hlt)
      · exact .inl (hfollow (field_of_others others hkey))
    | entry i path items x y item differ =>
      -- an array has no fields
      have hfield : field keys (.array items) = field keys (.array (items.set i y)) := by
        rw [field_of_not_object rfl, field_of_not_object rfl]
      exact .inl (hfollow hfield)

/-- `follow` of a place that the path does not meet is the same. -/
theorem follow_congr {path : List Step} {p q : Json} (h : DifferAt path p q) {place : Place}
    (hmeets : meets place path = false) : follow place p = follow place q := by
  rcases follow_differAt h place with hsame | ⟨hmeets', -⟩
  · exact hsame
  · rw [hmeets] at hmeets'
    cases hmeets'

end Reading

/-! ## Fields -/

namespace Field

variable {R : Type}

/-- A field is looked for where a path leads. -/
def readsAt (f : Field R) (path : List Step) : Bool := f.places.any (meets · path)

/-- `value` of a field is the same if it is not `readsAt` the path. -/
theorem value_congr {f : Field R} {path : List Step} {p q : Json} (h : DifferAt path p q)
    (hreads : f.readsAt path = false) : f.value p = f.value q := by
  have hplaces : ∀ place ∈ f.places, follow place p = follow place q := by
    intro place hplace
    apply follow_congr h
    exact Bool.eq_false_iff.2 fun hmeets =>
      Bool.eq_false_iff.1 hreads (List.any_eq_true.2 ⟨place, hplace, hmeets⟩)
  unfold value find
  rw [followFirst_congr hplaces]

end Field

namespace Source

/-- No field is looked for in the whole content. -/
theorem nil_not_mem_places {k : Source} : ∀ f ∈ k.fields, [] ∉ f.places := by
  cases k <;> decide

/-- `value_congr` for the records of two payloads. -/
theorem get_read_congr {k : Source} {path : List Step} {p q : Json}
    (h : DifferAt path (content p) (content q)) {f : Field k.Record} (hf : f ∈ k.fields)
    (hreads : f.readsAt path = false) : f.get (k.read (some p)) = f.get (k.read (some q)) := by
  rw [read_some, read_some, get_readContent k _ f hf, get_readContent k _ f hf,
    Field.value_congr h hreads]

/-- `read` rests on the members that are not null. -/
theorem read_congr_of_reported {p q : Json} (k : Source)
    (h : ∀ key, ((content p).member? key).filter (!·.isNull) =
      ((content q).member? key).filter (!·.isNull)) : k.read (some p) = k.read (some q) := by
  apply ext_fields
  intro f hf
  have hplaces : ∀ place ∈ f.places, follow place (content p) = follow place (content q) := by
    intro place hplace
    cases place with
    | nil => exact absurd hplace (nil_not_mem_places f hf)
    | cons keys place =>
      exact congrArg (Option.bind · (follow place)) (field_congr_of_reported fun key _ => h key)
  rw [read_some, read_some, get_readContent k _ f hf, get_readContent k _ f hf]
  unfold Field.value Field.find
  rw [followFirst_congr hplaces]

end Source

/-! ## The items of an intent -/

namespace IntentStatus

/-- `items` are read from the array that `followFirst` finds, each on its own. -/
theorem items_read (p : Json) : (ofPayload (some p)).items =
    (((followFirst (within ["items"]) (content p)).bind Json.items?).map
      (List.map IntentItem.ofJson)).getD [] := by
  have hget : (Field.list (List.map IntentItem.ofJson) (within ["items"]) items).get
      (ofContent (content p)) = _ := get_ofContent _ _ (by simp [fields])
  rw [Field.value_list] at hget
  exact hget

/-- The paths to the two arrays in which items may stand. -/
def itemPaths : List (List Step) := [[.key "intent", .key "items"], [.key "items"]]

/-- If two documents differ in one item, the arrays found are the same or differ in that item. -/
theorem followFirst_items {p q : Json} {front inner : List Step} {i : Nat}
    (hfront : front ∈ itemPaths) (h : DifferAt (front ++ .entry i :: inner) p q) :
    followFirst (within ["items"]) p = followFirst (within ["items"]) q ∨
      ∃ xs x y, followFirst (within ["items"]) p = some (.array xs) ∧ xs[i]? = some x ∧
        followFirst (within ["items"]) q = some (.array (xs.set i y)) ∧ DifferAt inner x y := by
  unfold within
  rw [followFirst_two, followFirst_two]
  simp only [itemPaths, List.mem_cons, List.not_mem_nil, or_false] at hfront
  rcases hfront with rfl | rfl
  · -- beside the intent nothing differs
    have hbeside : follow [["items"]] p = follow [["items"]] q := follow_congr h rfl
    rcases follow_differAt h [["intent"], ["items"]] with hsame | ⟨-, hbehind⟩
    · exact .inl (by rw [hsame, hbeside])
    · obtain ⟨v, v', hv, hv', hdiffer⟩ := hbehind (by simp)
      right
      rw [hv, hv']
      cases hdiffer with
      | entry i inner xs x y item differ => exact ⟨xs, x, y, rfl, item, rfl, differ⟩
  · -- in the intent nothing differs
    have hinside : follow [["intent"], ["items"]] p = follow [["intent"], ["items"]] q :=
      follow_congr h rfl
    rw [hinside]
    cases follow [["intent"], ["items"]] q with
    | some v => exact .inl rfl
    | none =>
      rw [Option.none_or, Option.none_or]
      rcases follow_differAt h [["items"]] with hsame | ⟨-, hbehind⟩
      · exact .inl hsame
      · obtain ⟨v, v', hv, hv', hdiffer⟩ := hbehind (by simp)
        right
        rw [hv, hv']
        cases hdiffer with
        | entry i inner xs x y item differ => exact ⟨xs, x, y, rfl, item, rfl, differ⟩

/-- Two lists of items that agree on all but one, and on that one in every field not `readsAt` the
path. -/
structure ItemsApart (i : Nat) (path : List Step) (xs ys : List IntentItem) : Prop where
  length : xs.length = ys.length
  others : ∀ j, j ≠ i → xs[j]? = ys[j]?
  fields : ∀ f ∈ IntentItem.fields, f.readsAt path = false → xs[i]?.map f.get = ys[i]?.map f.get

theorem ItemsApart.refl (i : Nat) (path : List Step) (xs : List IntentItem) :
    ItemsApart i path xs xs := ⟨rfl, fun _ _ => rfl, fun _ _ _ => rfl⟩

/-- If the contents differ in one item, the `items` read from them are `ItemsApart`. -/
theorem itemsApart_read {p q : Json} {front inner : List Step} {i : Nat}
    (hfront : front ∈ itemPaths)
    (h : DifferAt (front ++ .entry i :: inner) (content p) (content q)) :
    ItemsApart i inner (ofPayload (some p)).items (ofPayload (some q)).items := by
  rw [items_read, items_read]
  rcases followFirst_items hfront h with hsame | ⟨xs, x, y, hp, item, hq, differ⟩
  · rw [hsame]
    exact .refl i inner _
  · have hlt : i < xs.length := (List.getElem?_eq_some_iff.1 item).1
    rw [hp, hq]
    show ItemsApart i inner (xs.map IntentItem.ofJson) ((xs.set i y).map IntentItem.ofJson)
    constructor
    · simp
    · intro j hj
      rw [List.getElem?_map, List.getElem?_map, List.getElem?_set_ne (Ne.symm hj)]
    · intro f hf hreads
      rw [List.getElem?_map, List.getElem?_map, item, List.getElem?_set_self hlt]
      show some (f.get (IntentItem.ofJson x)) = some (f.get (IntentItem.ofJson y))
      rw [IntentItem.get_ofJson x f hf, IntentItem.get_ofJson y f hf,
        Field.value_congr differ hreads]

end IntentStatus

/-- If two contents `DifferAt` a path, the records agree on every field not `readsAt` it, and on
every item but the one on the path. Each field is what stands at its places, or its default. -/
theorem fields_isolated (p q : Json) :
    (∀ k : Source,
      (∀ path, DifferAt path (content p) (content q) →
        (∀ f ∈ k.fields, f.readsAt path = false →
          f.get (k.read (some p)) = f.get (k.read (some q))) ∧
        ((∀ f ∈ k.fields, f.readsAt path = false) → k.read (some p) = k.read (some q))) ∧
      (∀ f ∈ k.fields, f.get (k.read (some p)) =
        ((f.find (content p)).bind f.read).getD (f.get k.unknown)) ∧
      ((∀ key, ((content p).member? key).filter (!·.isNull) =
        ((content q).member? key).filter (!·.isNull)) → k.read (some p) = k.read (some q))) ∧
    (∀ front ∈ IntentStatus.itemPaths, ∀ i path,
      DifferAt (front ++ .entry i :: path) (content p) (content q) →
        IntentStatus.ItemsApart i path (IntentStatus.ofPayload (some p)).items
          (IntentStatus.ofPayload (some q)).items) := by
  refine ⟨fun k => ⟨?_, ?_, ?_⟩, ?_⟩
  · intro path hdiffer
    have hfields : ∀ f ∈ k.fields, f.readsAt path = false →
        f.get (k.read (some p)) = f.get (k.read (some q)) :=
      fun f hf => Source.get_read_congr hdiffer hf
    exact ⟨hfields, fun hunread => Source.ext_fields fun f hf => hfields f hf (hunread f hf)⟩
  · intro f hf
    rw [Source.read_some, Source.get_readContent k _ f hf, Source.get_unknown k f hf]
    rfl
  · exact Source.read_congr_of_reported k
  · intro front hfront i path hdiffer
    exact IntentStatus.itemsApart_read hfront hdiffer

/-- An item that is no object changes neither the switch beside the items nor the other item. -/
theorem fields_isolated_item :
    let item := Json.object [("symbol", .string "BTC")]
    let payload (last : Json) := Json.object [("intent", .object [("dry_run", .bool true),
      ("items", .array [item, last])])]
    let p := payload item
    let q := payload (.string "garbage")
    DifferAt [.key "intent", .key "items", .entry 1] (content p) (content q) ∧
      (IntentStatus.ofPayload (some p)).dryRun = (IntentStatus.ofPayload (some q)).dryRun ∧
      (IntentStatus.ofPayload (some p)).items[0]? =
        (IntentStatus.ofPayload (some q)).items[0]? := by
  intro item payload p q
  have hothers (key : String) (v v' : Json) (ms : List (String × Json)) :
      ∀ other, other ≠ key →
        lookup other (ms ++ [(key, v)]) = lookup other (ms ++ [(key, v')]) := by
    intro other hother
    rw [lookup_append, lookup_append]
    simp [lookup, Ne.symm hother]
  have hdiffer : DifferAt [.key "intent", .key "items", .entry 1] (content p) (content q) := by
    refine .inside "intent" _ _ _ _ _ _ (hothers _ _ _ []) rfl rfl ?_
    refine .inside "items" _ _ _ _ _ _ (hothers _ _ _ [("dry_run", .bool true)]) rfl rfl ?_
    exact .entry 1 [] [item, item] item (.string "garbage") rfl (.all _ _)
  have hisolated := fields_isolated p q
  refine ⟨hdiffer, ?_, ?_⟩
  · exact ((hisolated.1 .intent).1 _ hdiffer).1
      (.flag (IntentStatus.within ["dry_run", "dryRun"]) IntentStatus.dryRun)
      (by simp [Source.fields, IntentStatus.fields]) (by decide)
  · exact (hisolated.2 [.key "intent", .key "items"] (by simp [IntentStatus.itemPaths]) 1 []
      hdiffer).others 0 (by decide)

-- The fields that may change with the ledger of paper orders, with its count of lines, and with the
-- intent: the three of that ledger, one of them, and the mode, the dry run and the items.
example :
    ChainStatus.fields.map (·.readsAt [.key "paperOrders"]) =
      [false, false, false, true, true, true, false, false, false] ∧
    ChainStatus.fields.map (·.readsAt [.key "paper_orders", .key "lines"]) =
      [false, false, false, true, false, false, false, false, false] ∧
    IntentStatus.fields.map (·.readsAt [.key "intent"]) =
      [false, false, true, true, false, true] := by
  decide

end Interlock
