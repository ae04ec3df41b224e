import Interlock.Proofs.Text.Strip
import Interlock.Proofs.Url.Authority

/-!
# An address of the web is read back from its text

`parse` reads an address of the web in one way (`parse_web`): scheme, then `authorityOf`, then
`pathOf`, `queryOf` and `fragmentOf`, and every address of the web was read so (`exists_of_parse`).
The `text` of an address is `frontChars`, `pathChars` and `tailChars` (`toList_address`), and
`parse` reads the front back whatever comes behind it (`parse_front`).
-/

namespace Interlock

/-- The address with a given name, password, host and port. -/
def Url.Authority.address (a : Url.Authority) (scheme : String) (path : Url.Path)
    (query fragment : Option String) : Url :=
  ⟨scheme, a.username, a.password, some a.host, a.port, path, query, fragment⟩

namespace Url

open Text

variable {scheme : String} {rest : List Char}

/-! ## Reading an address of the web -/

/-- What stands between the slashes behind the scheme and the path. -/
def authorityOf (rest : List Char) : List Char :=
  ((splitTail rest).1.dropWhile (isSlash true)).takeWhile fun c => !endsAuthority true c

/-- The path with its first slash. -/
def pathOf (rest : List Char) : List Char :=
  ((splitTail rest).1.dropWhile (isSlash true)).dropWhile fun c => !endsAuthority true c

/-- The encoded query. -/
def queryOf (rest : List Char) : Option String :=
  (splitTail rest).2.1.map fun q => String.ofList (percentEncode (inQuerySet true) q)

/-- The encoded fragment. -/
def fragmentOf (rest : List Char) : Option String :=
  (splitTail rest).2.2.map fun f => String.ofList (percentEncode inFragmentSet f)

/-- `parse` of a web address is `readAuthority` and `readPath` of its parts. -/
theorem parse_web [Idna] {s : String} (hweb : IsWeb scheme)
    (h : takeScheme? (clean s.toList) = some (scheme, rest)) :
    parse s = (readAuthority scheme (authorityOf rest)).map fun a =>
      a.address scheme (readPath scheme (pathOf rest)) (queryOf rest) (fragmentOf rest) := by
  unfold parse
  rw [h]
  unfold authorityOf pathOf queryOf fragmentOf readFront readWithAuthority
  simp only [if_neg hweb.ne_file, hweb.isSpecial, if_true]
  cases readAuthority scheme (((splitTail rest).1.dropWhile (isSlash true)).takeWhile
      fun c => !endsAuthority true c) with
  | error e => rfl
  | ok a => rfl

theorem scheme_of_readWithAuthority [Idna] {cs : List Char} {u : Url}
    (h : readWithAuthority scheme cs = .ok u) : u.scheme = scheme := by
  unfold readWithAuthority at h
  dsimp only at h
  cases hread :
      readAuthority scheme (cs.takeWhile fun c => !endsAuthority (isSpecial scheme) c) with
  | error e =>
    rw [hread] at h
    cases h
  | ok a =>
    rw [hread] at h
    rw [← Except.ok.inj h]

theorem scheme_of_readFile [Idna] {cs : List Char} {u : Url} (h : readFile cs = .ok u) :
    u.scheme = "file" := by
  have hbare : ∀ {host : Option Host} {path : Path}, .ok (bare "file" host path) =
      (Except.ok u : Except ParseError Url) → u.scheme = "file" := by
    intro host path heq
    rw [← Except.ok.inj heq]
    rfl
  unfold readFile at h
  split at h
  · next b c rest =>
    split at h
    · dsimp only at h
      split at h
      · exact hbare h
      · split at h
        · exact hbare h
        · cases hread : readHost (rest.takeWhile fun c => !isSlash true c) with
          | error e =>
            rw [hread] at h
            cases h
          | ok host =>
            rw [hread] at h
            exact hbare h
    · exact hbare h
  · exact hbare h

theorem scheme_of_readFront [Idna] {cs : List Char} {u : Url} (h : readFront scheme cs = .ok u) :
    u.scheme = scheme := by
  unfold readFront at h
  split at h
  · next hfile =>
    rw [hfile]
    exact scheme_of_readFile h
  split at h
  · exact scheme_of_readWithAuthority h
  split at h
  · exact scheme_of_readWithAuthority h
  · rw [← Except.ok.inj h]
    rfl
  · rw [← Except.ok.inj h]
    rfl

/-- What `parse` returns has the scheme that `takeScheme?` found. -/
theorem exists_takeScheme? [Idna] {s : String} {u : Url} (h : parse s = .ok u) :
    ∃ rest, takeScheme? (clean s.toList) = some (u.scheme, rest) := by
  unfold parse at h
  split at h
  · cases h
  · next scheme rest htake =>
    cases hfront : readFront scheme (splitTail rest).1 with
    | error e =>
      simp only [hfront] at h
      cases h
    | ok front =>
      simp only [hfront] at h
      have hscheme : u.scheme = front.scheme := by
        rw [← Except.ok.inj h]
      exact ⟨rest, by rw [htake, hscheme, scheme_of_readFront hfront]⟩

/-- A web address that `parse` returned was read as in `parse_web`. -/
theorem exists_of_parse [Idna] {s : String} {u : Url} (h : parse s = .ok u)
    (hweb : IsWeb u.scheme) :
    ∃ rest a, takeScheme? (clean s.toList) = some (u.scheme, rest) ∧
      readAuthority u.scheme (authorityOf rest) = .ok a ∧
      u = a.address u.scheme (readPath u.scheme (pathOf rest)) (queryOf rest)
        (fragmentOf rest) := by
  obtain ⟨rest, htake⟩ := exists_takeScheme? h
  rw [parse_web hweb htake] at h
  obtain ⟨a, ha, hu⟩ := ok_of_map h
  exact ⟨rest, a, htake, ha, hu.symm⟩

/-! ## Text -/

/-- What stands before the path. -/
def frontChars (scheme : String) (a : Authority) : List Char :=
  scheme.toList ++ ':' :: '/' :: '/' :: a.chars

/-- What stands behind the path. -/
def tailChars (query fragment : Option String) : List Char :=
  (query.map fun q => '?' :: q.toList).getD [] ++ (fragment.map fun f => '#' :: f.toList).getD []

/-- The text of an address of the web: `frontChars`, `pathChars` and `tailChars`. -/
theorem toList_address (a : Authority) (parts : List String) (query fragment : Option String) :
    (a.address scheme (.segments parts) query fragment).text.toList =
      frontChars scheme a ++ (pathChars parts ++ tailChars query fragment) := by
  have hname : (userinfoText (a.address scheme (.segments parts) query fragment)).toList =
      nameChars a.username a.password := by
    unfold userinfoText nameChars
    show String.toList (if a.username = "" ∧ a.password = "" then "" else _) = _
    split
    · rfl
    · rw [String.toList_append, String.toList_append]
      show a.username.toList ++ (if a.password = "" then "" else ":" ++ a.password).toList ++
        ['@'] = _
      split
      · rfl
      · rw [String.toList_append]
        rfl
  have hport : ((a.port.map fun p => ":" ++ Text.ofNat p).getD "").toList = portChars a.port := by
    unfold portChars
    cases a.port with
    | none => rfl
    | some p =>
      have hdigits : (Text.ofNat p).toList = Nat.toDigits 10 p := String.toList_ofList
      show (":" ++ Text.ofNat p).toList = ':' :: Nat.toDigits 10 p
      rw [String.toList_append, hdigits]
      rfl
  have htail : ((query.map ("?" ++ ·)).getD "").toList ++
      ((fragment.map ("#" ++ ·)).getD "").toList = tailChars query fragment := by
    unfold tailChars
    cases query <;> cases fragment <;> simp
  show (scheme ++ ":" ++
    ("//" ++ userinfoText (a.address scheme (.segments parts) query fragment) ++ a.host.text ++
      (a.port.map fun p => ":" ++ Text.ofNat p).getD "") ++ (Path.segments parts).text ++
    (query.map ("?" ++ ·)).getD "" ++ (fragment.map ("#" ++ ·)).getD "").toList = _
  simp only [String.toList_append]
  rw [hname, toList_pathText, hport, ← htail]
  unfold frontChars Authority.chars
  simp

/-! ## Reading what has been written -/

/-- `clean` leaves `Visible` characters. -/
theorem clean_of_visible {cs : List Char} (h : ∀ c ∈ cs, Visible c) : clean cs = cs := by
  have hedge : ∀ c ∈ cs, decide (c.toNat ≤ 0x20) = false :=
    fun c hc => decide_eq_false (Nat.not_le_of_lt (h c hc).1)
  have hbreak : ∀ c ∈ cs, (!(c == '\t' || c == '\n' || c == '\r')) = true := by
    intro c hc
    have hcontrol : ∀ d ∈ ['\t', '\n', '\r'], ¬ Visible d := by decide
    have hne : ∀ d ∈ ['\t', '\n', '\r'], c ≠ d := by
      rintro d hd rfl
      exact hcontrol c hd (h c hc)
    simp only [List.forall_mem_cons, List.not_mem_nil, false_implies, implies_true, and_true] at hne
    simp [hne]
  show List.filter _ (strip (fun c => decide (c.toNat ≤ 0x20)) cs) = cs
  rw [strip_of_unpadded (unpadded_of_forall hedge), List.filter_eq_self.mpr hbreak]

theorem takeScheme?_web (hweb : IsWeb scheme) (rest : List Char) :
    takeScheme? (scheme.toList ++ ':' :: rest) = some (scheme, rest) := by
  rcases hweb with rfl | rfl <;> rfl

/-- `splitTail` leaves a text without `#` and `?`. -/
theorem splitTail_append {front : List Char} (h : ∀ c ∈ front, c ≠ '#' ∧ c ≠ '?')
    (tail : List Char) :
    splitTail (front ++ tail) = (front ++ (splitTail tail).1, (splitTail tail).2) := by
  have hhash : ∀ c ∈ front, (c != '#') = true := by
    intro c hc
    simpa using (h c hc).1
  have hmark : ∀ c ∈ front, (c != '?') = true := by
    intro c hc
    simpa using (h c hc).2
  unfold splitTail
  dsimp only
  rw [List.takeWhile_append_of_pos hhash, List.dropWhile_append_of_pos hhash,
    List.takeWhile_append_of_pos hmark, List.dropWhile_append_of_pos hmark]

/-- What may follow `frontChars`. -/
def EndsFront (tail : List Char) : Prop :=
  tail = [] ∨ tail.head? = some '/' ∨ tail.head? = some '?' ∨ tail.head? = some '#'

/-- The path of what follows is empty or starts with a slash. -/
theorem EndsFront.path {tail : List Char} (h : EndsFront tail) :
    (splitTail tail).1 = [] ∨ (splitTail tail).1.head? = some '/' := by
  cases tail with
  | nil => exact .inl rfl
  | cons c tail =>
    rcases h with h | h | h | h
    · cases h
    · rw [List.head?_cons, Option.some.injEq] at h
      rw [h]
      exact .inr rfl
    · rw [List.head?_cons, Option.some.injEq] at h
      rw [h]
      exact .inl rfl
    · rw [List.head?_cons, Option.some.injEq] at h
      rw [h]
      exact .inl rfl

/-- The path of what follows belongs to no host. -/
theorem EndsFront.stops {tail : List Char} (h : EndsFront tail) :
    (splitTail tail).1.takeWhile (fun c => !endsAuthority true c) = [] ∧
      (splitTail tail).1.dropWhile (fun c => !endsAuthority true c) = (splitTail tail).1 := by
  rcases h.path with hnil | hslash
  · rw [hnil]
    exact ⟨rfl, rfl⟩
  · cases hcs : (splitTail tail).1 with
    | nil =>
      rw [hcs] at hslash
      cases hslash
    | cons c cs =>
      rw [hcs, List.head?_cons, Option.some.injEq] at hslash
      rw [hslash]
      exact ⟨rfl, rfl⟩

theorem frontChars_append (scheme : String) (a : Authority) (tail : List Char) :
    frontChars scheme a ++ tail = scheme.toList ++ ':' :: '/' :: '/' :: (a.chars ++ tail) := by
  unfold frontChars
  simp only [List.append_assoc, List.cons_append]

section Front

variable [Idna] {a : Authority} {tail : List Char}

/-- `clean` leaves `frontChars` with a `Visible` tail. -/
theorem clean_frontChars (hweb : IsWeb scheme) (ha : a.Usual scheme) (h : ∀ c ∈ tail, Visible c) :
    clean (frontChars scheme a ++ tail) = frontChars scheme a ++ tail := by
  have hscheme : ∀ c ∈ scheme.toList, Visible c := by
    rcases hweb with rfl | rfl <;> decide
  apply clean_of_visible
  rw [frontChars_append]
  simp only [List.forall_mem_append, List.forall_mem_cons]
  exact ⟨hscheme, by decide, by decide, by decide, fun c hc => (ha.shows c hc).1, h⟩

theorem splitTail_chars (ha : a.Usual scheme) (tail : List Char) :
    splitTail ('/' :: '/' :: (a.chars ++ tail)) =
      ('/' :: '/' :: (a.chars ++ (splitTail tail).1), (splitTail tail).2) := by
  have hfront : ∀ c ∈ '/' :: '/' :: a.chars, c ≠ '#' ∧ c ≠ '?' := by
    refine List.forall_mem_cons.mpr ⟨by decide, List.forall_mem_cons.mpr ⟨by decide, ?_⟩⟩
    intro c hc
    have hends := (ha.shows c hc).2
    simp only [endsAuthority, Bool.or_eq_false_iff, beq_eq_false_iff_ne] at hends
    exact ⟨hends.2, hends.1.2⟩
  exact splitTail_append hfront tail

/-- Dropping slashes stops at the `chars` of a `Usual` authority. -/
theorem dropWhile_chars (ha : a.Usual scheme) (path : List Char) :
    ('/' :: '/' :: (a.chars ++ path)).dropWhile (isSlash true) = a.chars ++ path := by
  obtain ⟨c, cs, heq⟩ := List.exists_cons_of_ne_nil ha.chars_ne_nil
  have hc := (ha.shows c (by rw [heq]; exact List.mem_cons_self)).2
  simp only [endsAuthority, Bool.or_eq_false_iff] at hc
  rw [heq, List.dropWhile_cons_of_pos rfl, List.dropWhile_cons_of_pos rfl, List.cons_append,
    List.dropWhile_cons_of_neg (by simp [hc.1.1])]

theorem Authority.Usual.goesOn (ha : a.Usual scheme) :
    ∀ c ∈ a.chars, (!endsAuthority true c) = true := by
  intro c hc
  rw [(ha.shows c hc).2]
  rfl

/-- `authorityOf` finds the `chars` of a `Usual` authority. -/
theorem authorityOf_chars (ha : a.Usual scheme) (hends : EndsFront tail) :
    authorityOf ('/' :: '/' :: (a.chars ++ tail)) = a.chars := by
  unfold authorityOf
  rw [splitTail_chars ha, dropWhile_chars ha, List.takeWhile_append_of_pos ha.goesOn,
    hends.stops.1, List.append_nil]

/-- `pathOf` finds the path behind a `Usual` authority. -/
theorem pathOf_chars (ha : a.Usual scheme) (hends : EndsFront tail) :
    pathOf ('/' :: '/' :: (a.chars ++ tail)) = (splitTail tail).1 := by
  unfold pathOf
  rw [splitTail_chars ha, dropWhile_chars ha, List.dropWhile_append_of_pos ha.goesOn,
    hends.stops.2]

/-- `parse` reads `frontChars` back, whatever path, query and fragment come behind. -/
theorem parse_front (hweb : IsWeb scheme) (ha : a.Usual scheme) (hvisible : ∀ c ∈ tail, Visible c)
    (hends : EndsFront tail) :
    parse (String.ofList (frontChars scheme a ++ tail)) = .ok (a.address scheme
      (readPath scheme (splitTail tail).1) (queryOf tail) (fragmentOf tail)) := by
  have htake : takeScheme? (clean (String.ofList (frontChars scheme a ++ tail)).toList) =
      some (scheme, '/' :: '/' :: (a.chars ++ tail)) := by
    rw [String.toList_ofList, clean_frontChars hweb ha hvisible, frontChars_append,
      takeScheme?_web hweb]
  rw [parse_web hweb htake, authorityOf_chars ha hends, pathOf_chars ha hends,
    readAuthority_chars hweb ha]
  unfold queryOf fragmentOf
  rw [splitTail_chars ha]
  rfl

end Front

end Url

end Interlock
