import Interlock.Proofs.Settings.Layers
import Interlock.Settings.Load

/-!
# Keys of settings

The settings have five keys, each in a section, with a `Value` of its own and a way to `convert` a
tree to it.

* `ofTree_eq_ok_iff`: `ofTree` reads settings key by key, from what is `standing` at each.
* `writes_path`: an entry named `Key.path` writes at that key and at no other.
-/

namespace Interlock.Settings

open Text Interlock.Settings.Tree

/-! ## Keys -/

/-- The keys of the settings. -/
inductive Key
  | baseUrl
  | requestTimeout
  | interval
  | logLevel
  | logJson
  deriving DecidableEq

namespace Key

/-- The section that a key belongs to. -/
def home : Key → Section
  | .baseUrl | .requestTimeout => .api
  | .interval => .polling
  | .logLevel | .logJson => .logging

/-- The name of a key in its section. -/
def name : Key → String
  | .baseUrl => "base_url"
  | .requestTimeout => "request_timeout_ms"
  | .interval => "interval_ms"
  | .logLevel => "level"
  | .logJson => "json"

/-- The `name` with its section, `section.name`. -/
def path (k : Key) : String := k.home.key ++ "." ++ k.name

/-- The name of the variable for a key, in small letters. -/
def variableName (k : Key) : String := variableMark ++ k.home.key ++ "__" ++ k.name

/-- The type of the values of a key. -/
def Value : Key → Type
  | .baseUrl | .logLevel => String
  | .requestTimeout | .interval => Nat
  | .logJson => Bool

/-- A tree as a value of a key. -/
def convert : (k : Key) → Tree → Except Error k.Value
  | .baseUrl, t => Place.text ⟨path .baseUrl, t⟩
  | .requestTimeout, t => Place.count ⟨path .requestTimeout, t⟩
  | .interval, t => Place.count ⟨path .interval, t⟩
  | .logLevel, t => Place.text ⟨path .logLevel, t⟩
  | .logJson, t => Place.truth ⟨path .logJson, t⟩

/-- The value of a key in settings. -/
def get (k : Key) (s : Settings) : k.Value :=
  match k with
  | .baseUrl => s.baseUrl
  | .requestTimeout => s.requestTimeoutMs
  | .interval => s.intervalMs
  | .logLevel => s.logLevel
  | .logJson => s.logJson

end Key

/-- `convert` refuses tables. -/
theorem Key.convert_of_isTable (k : Key) {t : Tree} (h : t.isTable = true) (a : k.Value) :
    k.convert t ≠ .ok a := by
  cases t with
  | scalar | list => cases h
  | table origin entries => cases k <;> (intro hok; cases hok)

/-! ## Reading laid trees -/

/-- What a tree has at a key. -/
def standing (root : Tree) (k : Key) : Option Tree := root.within k.home.key k.name

theorem bind_eq_ok_iff {α β : Type} {x : Except Error α} {f : α → Except Error β} {b : β} :
    (x >>= f) = .ok b ↔ ∃ a, x = .ok a ∧ f a = .ok b := by
  cases x with
  | error e => exact ⟨nofun, nofun⟩
  | ok a =>
    constructor
    · intro h
      exact ⟨a, rfl, h⟩
    · rintro ⟨_, ⟨⟩, h⟩
      exact h

/-- `fieldOr` reads the field that stands in its section. -/
theorem fieldOr_eq {α : Type} {root t : Tree} {s : Section} (hsection : root.HasTable s.key)
    {name : String} (ht : root.within s.key name = some t) (read : Place → Except Error α)
    (absent : Tree → Except Error α) :
    fieldOr s root name read absent = read ⟨s.key ++ "." ++ name, t⟩ := by
  obtain ⟨sec, hsec, htable⟩ := hsection
  unfold within at ht
  rw [hsec] at ht
  cases sec with
  | scalar | list => cases htable
  | table origin entries =>
    have hget : (Tree.table origin entries).get? name = some t := ht
    have hplace : fieldPlace? s (.table origin entries) (s.fields.idxOf name) name
        = .ok (some ⟨s.key ++ "." ++ name, t⟩) := by
      unfold fieldPlace?
      rw [hget]
      rfl
    unfold fieldOr
    rw [hsec]
    dsimp only
    rw [hplace]
    rfl

/-- `ofTree` returns `s` if and only if `convert` takes what is `standing` at every key to its value
in `s`. -/
theorem ofTree_eq_ok_iff {root : Tree} {s : Settings}
    (hsections : ∀ s : Section, root.HasTable s.key)
    {t : Key → Tree} (ht : ∀ k, standing root k = some (t k)) :
    ofTree root = .ok s ↔ ∀ k : Key, k.convert (t k) = .ok (k.get s) := by
  have hurl : root.within Section.api.key "base_url" = some (t .baseUrl) := ht .baseUrl
  have htimeout : root.within Section.api.key "request_timeout_ms" = some (t .requestTimeout) :=
    ht .requestTimeout
  have hinterval : root.within Section.polling.key "interval_ms" = some (t .interval) :=
    ht .interval
  have hlevel : root.within Section.logging.key "level" = some (t .logLevel) := ht .logLevel
  have hjson : root.within Section.logging.key "json" = some (t .logJson) := ht .logJson
  unfold ofTree
  dsimp only
  rw [fieldOr_eq (hsections .api) hurl, fieldOr_eq (hsections .api) htimeout,
    fieldOr_eq (hsections .polling) hinterval, fieldOr_eq (hsections .logging) hlevel,
    fieldOr_eq (hsections .logging) hjson]
  simp only [bind_eq_ok_iff]
  constructor
  · rintro ⟨_, hurl, _, htimeout, _, hinterval, _, hlevel, _, hjson, ⟨⟩⟩ k
    cases k with
    | baseUrl => exact hurl
    | requestTimeout => exact htimeout
    | interval => exact hinterval
    | logLevel => exact hlevel
    | logJson => exact hjson
  · intro h
    exact ⟨_, h .baseUrl, _, h .requestTimeout, _, h .interval, _, h .logLevel, _, h .logJson, rfl⟩

/-- Every key is `standing` in `defaultTree`, with its default. -/
theorem standing_defaultTree (k : Key) :
    ∃ t, standing defaultTree k = some t ∧ k.convert t = .ok (k.get default) := by
  cases k <;> exact ⟨_, rfl, rfl⟩

/-! ## What a layer writes -/

/-- A layer, given by its entries. -/
abbrev Layer := List (String × Tree)

/-- The sections of a layer are tables, where it has them. -/
def Sectioned (layer : Layer) : Prop :=
  ∀ s : Section, ∀ v ∈ under s.key (tops layer), v.isTable = true

instance (layer : Layer) : Decidable (Sectioned layer) :=
  decidable_of_iff
    (∀ s ∈ [Section.api, .polling, .logging], ∀ v ∈ under s.key (tops layer), v.isTable = true)
    ⟨fun h s => h s (by cases s <;> decide), fun h s _ => h s⟩

/-- What a layer writes at a key. -/
def writes (k : Key) (layer : Layer) : List Tree :=
  writings layer k.home.key k.name

theorem entryAt_path (k : Key) (t : Tree) :
    entryAt k.path t = (k.home.key, .table none [(k.name, t)]) := by
  have hparts : k.path.toList.splitOn '.' = [k.home.key.toList, k.name.toList] := by
    cases k <;> decide +kernel
  have hproper : (k.path.toList.splitOn '.').all (fun p => !p.isEmpty && p.all isPathChar)
      = true := by
    cases k <;> decide +kernel
  unfold entryAt
  dsimp only
  rw [if_pos hproper, hparts]
  show (String.ofList k.home.key.toList, nested [String.ofList k.name.toList] t) = _
  rw [String.ofList_toList, String.ofList_toList]
  rfl

/-- `writes` of the first entry, and then of the others. -/
theorem writes_cons (k : Key) (e : String × Tree) (layer : Layer) :
    writes k (e :: layer) = writes k [e] ++ writes k layer := by
  have hunder : ∀ (key : String) (e : String × Tree) (es : List (String × Tree)),
      under key (e :: es) = under key [e] ++ under key es := by
    intro key e es
    unfold under
    rw [← List.map_append, ← List.filter_append]
    rfl
  unfold writes writings
  rw [← List.flatMap_append]
  exact congrArg (List.flatMap _) (hunder k.home.key (entryAt e.1 e.2) (tops layer))

/-- An entry `k'.path` writes at `k'` only. -/
theorem writes_path (k k' : Key) (t : Tree) :
    writes k [(k'.path, t)] = if k' = k then [t] else [] := by
  have hhome : inSmallLetters k'.home.key = k'.home.key := by cases k' <;> decide +kernel
  have hname : inSmallLetters k'.name = k'.name := by cases k' <;> decide +kernel
  have hapart : k'.home.key = k.home.key → k'.name = k.name → k' = k := by
    cases k' <;> cases k <;> decide +kernel
  have hwrites : writes k [(k'.path, t)]
      = (under k.home.key [(k'.home.key, .table none [(k'.name, t)])]).flatMap
          fun t => under k.name t.entries := by
    rw [← entryAt_path]
    rfl
  rw [hwrites]
  by_cases h : k' = k
  · rw [h] at hhome hname ⊢
    simp [under, hhome, hname, entries]
  · rw [if_neg h]
    -- the other key differs in its section or in its name
    by_cases hsection : k'.home.key = k.home.key
    · have hother : k'.name ≠ k.name := fun hsame => h (hapart hsection hsame)
      simp [under, hname, entries, hsection, hother]
    · simp [under, hhome, hsection]

/-- A layer of `Key.path` entries is `Sectioned`. -/
theorem sectioned_of_paths {layer : Layer} (h : ∀ e ∈ layer, ∃ k : Key, e.1 = k.path) :
    Sectioned layer := by
  intro s v hv
  obtain ⟨e, he, rfl⟩ := List.mem_map.mp hv
  obtain ⟨e, hlayer, rfl⟩ := List.mem_map.mp (List.mem_filter.mp he).1
  obtain ⟨k, hk⟩ := h e hlayer
  rw [hk, entryAt_path]
  rfl

end Interlock.Settings
