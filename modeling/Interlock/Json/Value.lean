import Interlock.Number.Binary64

/-!
# JSON values

A number is a whole number of 64 bits, with or without a sign, or a finite double: which of the
two it is shows in its spelling and stays with it. An object is a list of members in the order of
their keys, each key once.
-/

namespace Interlock

/-- A number of a JSON document. -/
inductive Json.Number
  /-- A whole number, from `-2^63` up to `2^64 - 1`. -/
  | whole (i : Int)
  /-- A finite double. -/
  | real (x : Binary64)
  deriving DecidableEq, Repr, Inhabited

/-- A JSON document. -/
inductive Json
  | null
  | bool (b : Bool)
  | number (n : Json.Number)
  | string (s : String)
  | array (items : List Json)
  | object (members : List (String × Json))
  deriving Repr, Inhabited

namespace Json

/-! ## Members -/

/-- The value of the member with the given key. -/
def lookup (key : String) : List (String × Json) → Option Json
  | [] => none
  | (k, v) :: rest => if k = key then some v else lookup key rest

/-- Puts a member into a sorted member list: an equal key loses its old value. -/
def insertMember (key : String) (value : Json) : List (String × Json) → List (String × Json)
  | [] => [(key, value)]
  | (k, v) :: rest =>
    if key = k then (key, value) :: rest
    else if key < k then (key, value) :: (k, v) :: rest
    else (k, v) :: insertMember key value rest

/-- The object with the given members; of two equal keys the later one counts. -/
def ofMembers (members : List (String × Json)) : Json :=
  .object (members.foldl (fun ms m => insertMember m.1 m.2 ms) [])

/-- The members of an object. -/
def members? : Json → Option (List (String × Json))
  | .object ms => some ms
  | _ => none

/-- The items of an array. -/
def items? : Json → Option (List Json)
  | .array items => some items
  | _ => none

/-- The member of an object with the given key; anything else has no members. -/
def member? (j : Json) (key : String) : Option Json := j.members?.bind (lookup key)

/-- Whether a document is an object. -/
def isObject : Json → Bool
  | .object _ => true
  | _ => false

/-- Whether a document is null. -/
def isNull : Json → Bool
  | .null => true
  | _ => false

/-- A natural number as a document. -/
def ofNat (n : Nat) : Json := .number (.whole n)

/-- A value as a document, or null if there is none. -/
def ofOption {α : Type} (f : α → Json) : Option α → Json
  | none => .null
  | some a => f a

/-! ## Laws of members -/

theorem lookup_insertMember_self (key : String) (value : Json) (ms : List (String × Json)) :
    lookup key (insertMember key value ms) = some value := by
  induction ms with
  | nil => simp [insertMember, lookup]
  | cons m ms ih =>
    obtain ⟨k, v⟩ := m
    unfold insertMember
    by_cases hkey : key = k
    · simp [lookup, hkey]
    · rw [if_neg hkey]
      split
      · simp [lookup]
      · simp [lookup, Ne.symm hkey, ih]

theorem lookup_insertMember_of_ne {key other : String} (h : other ≠ key) (value : Json)
    (ms : List (String × Json)) :
    lookup other (insertMember key value ms) = lookup other ms := by
  induction ms with
  | nil => simp [insertMember, lookup, Ne.symm h]
  | cons m ms ih =>
    obtain ⟨k, v⟩ := m
    unfold insertMember
    by_cases hkey : key = k
    · simp [lookup, ← hkey, Ne.symm h]
    · rw [if_neg hkey]
      split
      · simp [lookup, Ne.symm h]
      · simp [lookup, ih]

theorem lookup_append (key : String) (ms ms' : List (String × Json)) :
    lookup key (ms ++ ms') = (lookup key ms).or (lookup key ms') := by
  induction ms with
  | nil => rfl
  | cons m ms ih =>
    simp only [List.cons_append, lookup]
    split
    · rfl
    · exact ih

/-- Of the members that are given, the last one with a key counts. -/
theorem member?_ofMembers (key : String) (ms : List (String × Json)) :
    (ofMembers ms).member? key = lookup key ms.reverse := by
  have hfold : ∀ acc, lookup key (ms.foldl (fun acc m => insertMember m.1 m.2 acc) acc) =
      (lookup key ms.reverse).or (lookup key acc) := by
    induction ms with
    | nil => exact fun acc => rfl
    | cons m ms ih =>
      intro acc
      rw [List.foldl_cons, ih, List.reverse_cons, lookup_append, Option.or_assoc]
      congr 1
      -- what is put in last is found, and nothing else is disturbed
      by_cases hkey : m.1 = key
      · subst hkey
        simp [lookup_insertMember_self, lookup]
      · simp [lookup_insertMember_of_ne (Ne.symm hkey), lookup, hkey]
  show lookup key (ms.foldl (fun acc m => insertMember m.1 m.2 acc) []) = _
  rw [hfold []]
  exact Option.or_none

theorem mem_insertMember {m : String × Json} {key : String} {value : Json}
    {ms : List (String × Json)} (h : m ∈ insertMember key value ms) :
    m = (key, value) ∨ m ∈ ms := by
  induction ms with
  | nil => simpa [insertMember] using h
  | cons m' ms ih =>
    unfold insertMember at h
    split at h
    · rcases List.mem_cons.1 h with rfl | h
      · exact .inl rfl
      · exact .inr (.tail _ h)
    · split at h
      · rcases List.mem_cons.1 h with rfl | h
        · exact .inl rfl
        · exact .inr h
      · rcases List.mem_cons.1 h with rfl | h
        · exact .inr (.head _)
        · exact (ih h).imp_right (.tail _)

/-- An object holds no other members than those that are given. -/
theorem mem_of_mem_ofMembers {m : String × Json} {ms ms' : List (String × Json)}
    (hms : ofMembers ms = .object ms') (h : m ∈ ms') : m ∈ ms := by
  have hfold : ∀ acc, m ∈ ms.foldl (fun acc m => insertMember m.1 m.2 acc) acc →
      m ∈ ms ∨ m ∈ acc := by
    clear hms
    induction ms with
    | nil => exact fun acc h => .inr h
    | cons m' ms ih =>
      intro acc h
      rcases ih _ h with h | h
      · exact .inl (.tail _ h)
      · rcases mem_insertMember h with rfl | h
        · exact .inl (.head _)
        · exact .inr h
  unfold ofMembers at hms
  injection hms with hms
  rw [← hms] at h
  simpa using hfold [] h

end Json

end Interlock
