import Interlock.Proofs.Url.Parser

/-!
# Blank space around an address of the web

`parse` reads a text without controls and spaces at its ends (`clean`); `Text.trim` takes off more,
all blank space of Unicode. What it takes off beyond that is `Padding` at the end
(`exists_padding`). A host or a port cannot end so, so only the path, the query or the fragment
changes (`parse_trim`).
-/

namespace Interlock.Url

open Text

variable {scheme : String} {c : Char} {cs z rest : List Char}

/-- What `trim` takes off the end of a clean text: nothing `Visible`, and blank space outside ASCII
at the end. -/
structure Padding (z : List Char) : Prop where
  hidden : ∀ c ∈ z, ¬ Visible c
  last : ∀ c ∈ z.getLast?, isBlank c = true ∧ 0x80 ≤ c.toNat

theorem not_visible_of_isBlank (h : isBlank c = true) : ¬ Visible c := by
  intro hvisible
  rw [hvisible.isBlank] at h
  cases h

/-- Blank space beyond the spaces of ASCII lies outside ASCII. -/
theorem wide_of_isBlank (h : isBlank c = true) (hspace : 0x20 < c.toNat) : 0x80 ≤ c.toNat := by
  have hvisible := not_visible_of_isBlank h
  unfold Visible at hvisible
  have hdelete : c.toNat ≠ 0x7F := by
    intro heq
    rw [← Char.ofNat_toNat c, heq] at h
    revert h
    decide
  omega

/-! ## Cleaning and trimming -/

/-- A control or a space, which `clean` takes off the ends. -/
def isEdge (c : Char) : Bool := c.toNat ≤ 0x20

/-- What `clean` keeps between the ends. -/
def isKept (c : Char) : Bool := !(c == '\t' || c == '\n' || c == '\r')

/-- `clean` strips `isEdge` and filters `isKept`. -/
theorem clean_eq (cs : List Char) : clean cs = (strip isEdge cs).filter isKept := rfl

theorem isKept_of_not_isEdge (h : isEdge c = false) : isKept c = true := by
  have hcontrol : ∀ d ∈ ['\t', '\n', '\r'], isEdge d = true := by decide
  have hne : ∀ d ∈ ['\t', '\n', '\r'], c ≠ d := by
    rintro d hd rfl
    rw [hcontrol c hd] at h
    cases h
  simp only [List.forall_mem_cons, List.not_mem_nil, false_implies, implies_true, and_true] at hne
  unfold isKept
  simp [hne]

theorem head?_clean (cs : List Char) : (clean cs).head? = (cs.dropWhile isEdge).head? := by
  rw [clean_eq]
  unfold strip
  cases hdrop : cs.dropWhile isEdge with
  | nil => rfl
  | cons w ws =>
    have hw : isEdge w = false := by
      have h := List.head?_dropWhile_not isEdge cs
      rw [hdrop] at h
      exact h
    have hkeep : (w :: ws).rdropWhile isEdge = w :: ws.rdropWhile isEdge :=
      rdropWhile_append_of_last (List.cons_ne_nil w []) (by
        intro c hc
        rw [← Option.some.inj hc]
        exact hw)
    rw [hkeep, List.filter_cons_of_pos (isKept_of_not_isEdge hw)]
    rfl

/-- A scheme starts with a letter. -/
theorem isLetter_of_takeScheme? (h : takeScheme? cs = some (scheme, rest)) :
    ∃ c, cs.head? = some c ∧ isLetter c = true := by
  unfold takeScheme? at h
  split at h
  · next hletter => simpa [Option.any_eq_true] using hletter
  · cases h

/-- What `trim` and `clean` take off. -/
def IsPad (c : Char) : Prop := isBlank c = true ∨ isEdge c = true

theorem IsPad.not_visible (h : IsPad c) : ¬ Visible c := by
  rcases h with hblank | hedge
  · exact not_visible_of_isBlank hblank
  · intro hvisible
    exact absurd (of_decide_eq_true hedge) (Nat.not_le_of_lt hvisible.1)

/-- What `clean` leaves of `IsPad` characters at the end is `Padding`. -/
theorem padding_of_isPad (h : ∀ c ∈ cs, IsPad c) :
    Padding ((cs.rdropWhile isEdge).filter isKept) := by
  have hmem : ∀ c ∈ cs.rdropWhile isEdge, c ∈ cs :=
    fun c hc => (List.rdropWhile_prefix _ _).subset hc
  constructor
  · intro c hc
    exact (h c (hmem c (List.mem_of_mem_filter hc))).not_visible
  · intro c hc
    by_cases hnil : cs.rdropWhile isEdge = []
    · rw [hnil] at hc
      cases hc
    · -- the last character is no edge, so it is kept, and it is blank
      have hedge := eq_false_of_ne_true (List.rdropWhile_last_not isEdge cs hnil)
      have hin := hmem _ (List.getLast_mem hnil)
      rw [← List.dropLast_append_getLast hnil, List.filter_append, List.filter_cons_of_pos
        (isKept_of_not_isEdge hedge), List.filter_nil, List.getLast?_concat] at hc
      rw [← Option.some.inj hc]
      rcases h _ hin with hblank | hbad
      · have hspace := of_decide_eq_false hedge
        exact ⟨hblank, wide_of_isBlank hblank (Nat.lt_of_not_le hspace)⟩
      · rw [hbad] at hedge
        cases hedge

/-- `clean` of a text with a scheme is `clean` of its `trim`, with `Padding` behind it. -/
theorem exists_padding {s : String} (h : takeScheme? (clean s.toList) = some (scheme, rest)) :
    ∃ z, clean s.toList = clean (trim s).toList ++ z ∧ Padding z := by
  obtain ⟨first, hfirst, hletter⟩ := isLetter_of_takeScheme? h
  have hshown := visible_of_isLetter hletter
  obtain ⟨before, after, hs, hbefore, hafter⟩ := exists_append_strip isBlank s.toList
  obtain ⟨before', after', ht, hbefore', hafter'⟩ := exists_append_strip isEdge (trim s).toList
  obtain ⟨hhead, hlast⟩ := unpadded_strip isEdge (trim s).toList
  have hfront : ∀ c ∈ before ++ before', IsPad c := List.forall_mem_append.mpr
    ⟨fun c hc => .inl (hbefore c hc), fun c hc => .inr (hbefore' c hc)⟩
  have hback : ∀ c ∈ after' ++ after, IsPad c := List.forall_mem_append.mpr
    ⟨fun c hc => .inr (hafter' c hc), fun c hc => .inl (hafter c hc)⟩
  rw [← toList_trim] at hs
  rw [head?_clean] at hfirst
  rw [clean_eq, clean_eq]
  generalize strip isEdge (trim s).toList = kept at ht hhead hlast ⊢
  have hall : s.toList = (before ++ before') ++ (kept ++ (after' ++ after)) := by
    rw [hs, ht]
    simp only [List.append_assoc]
  -- nothing but edges stands in front, or the text would start with blank space
  have hdrop : s.toList.dropWhile isEdge = (kept ++ (after' ++ after)).dropWhile isEdge := by
    rw [hall, List.dropWhile_append]
    split
    · rfl
    · next hne =>
      exfalso
      obtain ⟨w, ws, hw⟩ := List.exists_cons_of_ne_nil (fun h => hne (List.isEmpty_iff.mpr h))
      have hmem : w ∈ before ++ before' :=
        (List.dropWhile_suffix isEdge).subset (by rw [hw]; exact List.mem_cons_self)
      rw [hall, List.dropWhile_append, if_neg hne, hw, List.cons_append, List.head?_cons] at hfirst
      rw [← Option.some.inj hfirst] at hshown
      exact (hfront w hmem).not_visible hshown
  have hne : kept ≠ [] := by
    rintro rfl
    rw [hdrop, List.nil_append] at hfirst
    have hmem : first ∈ after' ++ after :=
      (List.dropWhile_suffix isEdge).subset (List.mem_of_mem_head? hfirst)
    exact (hback first hmem).not_visible hshown
  have hstays : (kept ++ (after' ++ after)).dropWhile isEdge = kept ++ (after' ++ after) := by
    obtain ⟨c, cs, rfl⟩ := List.exists_cons_of_ne_nil hne
    exact List.dropWhile_cons_of_neg (by simp [hhead c rfl])
  refine ⟨((after' ++ after).rdropWhile isEdge).filter isKept, ?_, padding_of_isPad hback⟩
  unfold strip
  rw [hdrop, hstays, rdropWhile_append_of_last hne hlast, List.filter_append]

/-! ## Padding behind the parts of an address -/

/-- `Padding` holds no `Visible` character, and so no mark of an address. -/
theorem Padding.ne (h : Padding z) {d : Char} (hd : Visible d) : ∀ c ∈ z, c ≠ d := by
  rintro c hc rfl
  exact h.hidden c hc hd

/-- `takeWhile` ends before what is behind the text, or takes all of it. -/
theorem takeWhile_append_or {p : Char → Bool} (h : ∀ c ∈ z, p c = true) (cs : List Char) :
    (cs ++ z).takeWhile p = cs.takeWhile p ∨
      (cs ++ z).takeWhile p = cs.takeWhile p ++ z := by
  rw [List.takeWhile_append]
  split
  · next hlength =>
    right
    have hall : cs.takeWhile p = cs := (List.takeWhile_prefix p).eq_of_length hlength
    rw [hall, List.takeWhile_eq_self_iff.mpr h]
  · exact .inl rfl

/-- `takeScheme?` does not reach the `Padding`. -/
theorem takeScheme?_append (hz : Padding z) (h : takeScheme? (cs ++ z) = some (scheme, rest)) :
    ∃ rest', takeScheme? cs = some (scheme, rest') ∧ rest = rest' ++ z := by
  obtain ⟨first, hfirst, hletter⟩ := isLetter_of_takeScheme? h
  have hhead : cs.head? = some first := by
    cases cs with
    | nil =>
      have hmem := List.mem_of_mem_head? (show first ∈ z.head? from hfirst)
      exact absurd (visible_of_isLetter hletter) (hz.hidden first hmem)
    | cons c cs => exact hfirst
  have hany : cs.head?.any isLetter = true := by
    rw [hhead]
    exact hletter
  have hany' : (cs ++ z).head?.any isLetter = true := by
    rw [hfirst]
    exact hletter
  unfold takeScheme? at h ⊢
  rw [if_pos hany'] at h
  rw [if_pos hany]
  have hcolon : ∀ c ∈ z, c ≠ ':' := hz.ne (by decide)
  rw [List.dropWhile_append, List.takeWhile_append] at h
  cases hdrop : cs.dropWhile isSchemeChar with
  | nil =>
    -- a colon would have to stand in the padding
    rw [hdrop, List.isEmpty_nil, if_pos rfl] at h
    split at h
    · next heq =>
      have hmem : ':' ∈ z := (List.dropWhile_suffix isSchemeChar).subset
        (by rw [heq]; exact List.mem_cons_self)
      exact absurd rfl (hcolon ':' hmem)
    · cases h
  | cons d ds =>
    have hlength : ¬ (cs.takeWhile isSchemeChar).length = cs.length := by
      intro hlength
      have hsplit := congrArg List.length
        (List.takeWhile_append_dropWhile (p := isSchemeChar) (l := cs))
      rw [List.length_append, hdrop, List.length_cons] at hsplit
      omega
    rw [hdrop, if_neg (by simp), if_neg hlength] at h
    by_cases hd : d = ':'
    · subst hd
      obtain ⟨rfl, rfl⟩ := Prod.mk.inj (Option.some.inj h)
      exact ⟨ds, rfl, rfl⟩
    · split at h
      · next heq => exact absurd (List.cons.inj heq).1 hd
      · cases h

/-- `authorityOf` with `Padding` behind the address: the same, or with the `Padding` behind it. -/
theorem authorityOf_append (hz : Padding z) (rest : List Char) :
    authorityOf (rest ++ z) = authorityOf rest ∨
      authorityOf (rest ++ z) = authorityOf rest ++ z := by
  have hhash : ∀ c ∈ z, (c != '#') = true := fun c hc => bne_iff_ne.mpr (hz.ne (by decide) c hc)
  have hmark : ∀ c ∈ z, (c != '?') = true := fun c hc => bne_iff_ne.mpr (hz.ne (by decide) c hc)
  have hslash : ∀ c ∈ z, isSlash true c = false := by
    intro c hc
    have h₁ := hz.ne (show Visible '/' by decide) c hc
    have h₂ := hz.ne (show Visible '\\' by decide) c hc
    simp [isSlash, h₁, h₂]
  have hends : ∀ c ∈ z, (!endsAuthority true c) = true := by
    intro c hc
    have h₁ := hz.ne (show Visible '?' by decide) c hc
    have h₂ := hz.ne (show Visible '#' by decide) c hc
    simp [endsAuthority, hslash c hc, h₁, h₂]
  have hfront : (splitTail (rest ++ z)).1 = (splitTail rest).1 ∨
      (splitTail (rest ++ z)).1 = (splitTail rest).1 ++ z := by
    show ((rest ++ z).takeWhile (· != '#')).takeWhile (· != '?') = _ ∨
      ((rest ++ z).takeWhile (· != '#')).takeWhile (· != '?') = _
    rcases takeWhile_append_or hhash rest with h | h
    · rw [h]
      exact .inl rfl
    · rw [h]
      exact takeWhile_append_or hmark _
  unfold authorityOf
  rcases hfront with h | h
  · rw [h]
    exact .inl rfl
  · rw [h]
    generalize (splitTail rest).1 = front
    have hdrop : (front ++ z).dropWhile (isSlash true) = front.dropWhile (isSlash true) ++ z := by
      rw [List.dropWhile_append]
      split
      · next hempty =>
        rw [List.isEmpty_iff.mp hempty, List.nil_append]
        cases z with
        | nil => rfl
        | cons c z => exact List.dropWhile_cons_of_neg (by simp [hslash c List.mem_cons_self])
      · rfl
    rw [hdrop]
    exact takeWhile_append_or hends _

/-! ## Padding behind a host or a port -/

theorem hostParts_eq (cs : List Char) :
    hostParts cs = takeHost false (cs.rtakeWhile (· != '@')) := by
  have hrest : ((splitLastAt cs).map (·.2)).getD cs = cs.rtakeWhile (· != '@') := by
    unfold splitLastAt
    dsimp only
    split
    · next hlength =>
      exact ((List.rtakeWhile_suffix (· != '@') cs).eq_of_length hlength).symm
    · rfl
  unfold hostParts
  rw [hrest]

/-- `takeHost` with characters behind the text that do not end a host. -/
theorem takeHost_append (h : ∀ c ∈ z, c ≠ ':' ∧ c ≠ '[' ∧ c ≠ ']') (cs : List Char) :
    ∀ bracketed, takeHost bracketed (cs ++ z) =
      if (takeHost bracketed cs).2 = [] then ((takeHost bracketed cs).1 ++ z, [])
      else ((takeHost bracketed cs).1, (takeHost bracketed cs).2 ++ z) := by
  induction cs with
  | nil =>
    intro bracketed
    rw [List.nil_append, takeHost, if_pos rfl, List.nil_append]
    induction z with
    | nil => rfl
    | cons c z ih =>
      obtain ⟨⟨hcolon, hopen, hclose⟩, hrest⟩ := List.forall_mem_cons.mp h
      rw [takeHost_cons z (fun hboth => hcolon hboth.1), if_neg hopen, if_neg hclose, ih hrest]
  | cons c cs ih =>
    intro bracketed
    by_cases hends : c = ':' ∧ (!bracketed) = true
    · rw [List.cons_append, takeHost, takeHost, if_pos hends, if_pos hends,
        if_neg (List.cons_ne_nil _ _)]
      rfl
    · rw [List.cons_append, takeHost_cons _ hends, takeHost_cons _ hends, ih]
      generalize (if c = '[' then true else if c = ']' then false else bracketed) = inside
      dsimp only
      by_cases hrest : (takeHost inside cs).2 = []
      · rw [if_pos hrest, if_pos hrest]
        rfl
      · rw [if_neg hrest, if_neg hrest]

theorem takeHost_parts (cs : List Char) : ∀ bracketed,
    (takeHost bracketed cs).1 ++ (takeHost bracketed cs).2 = cs ∧
      EndsHost (takeHost bracketed cs).2 := by
  induction cs with
  | nil => exact fun _ => ⟨rfl, .inl rfl⟩
  | cons c cs ih =>
    intro bracketed
    by_cases hends : c = ':' ∧ (!bracketed) = true
    · rw [takeHost, if_pos hends]
      exact ⟨rfl, .inr (congrArg some hends.1)⟩
    · rw [takeHost_cons _ hends]
      obtain ⟨hall, hrest⟩ := ih (if c = '[' then true else if c = ']' then false else bracketed)
      exact ⟨congrArg (c :: ·) hall, hrest⟩

/-- `readPort` refuses `Padding` at the end. -/
theorem readPort_append (hz : Padding z) (hne : z ≠ []) (hcs : ∀ c ∈ cs, c ≠ '\\') :
    readPort scheme (cs ++ z) = .error .invalidPort := by
  obtain ⟨c, rest, hrest, hc⟩ : ∃ c rest, (cs ++ z).dropWhile isDigit = c :: rest ∧ c ≠ '\\' := by
    cases hdrop : (cs ++ z).dropWhile isDigit with
    | nil =>
      -- padding holds no digit
      obtain ⟨c, hc⟩ := List.exists_mem_of_ne_nil z hne
      have hdigit := List.dropWhile_eq_nil_iff.mp hdrop c (List.mem_append_right cs hc)
      exact absurd (visible_of_isDigit hdigit) (hz.hidden c hc)
    | cons c rest =>
      have hmem : c ∈ cs ++ z :=
        (List.dropWhile_suffix isDigit).subset (by rw [hdrop]; exact List.mem_cons_self)
      refine ⟨c, rest, rfl, ?_⟩
      rcases List.mem_append.mp hmem with hmem | hmem
      · exact hcs c hmem
      · exact hz.ne (by decide) c hmem
  unfold readPort
  dsimp only
  split
  · rfl
  · rw [hrest, if_pos (by simp [hc])]

/-- `readAuthority` refuses `Padding` at the end. -/
theorem readAuthority_append [Idna] [LawfulIdna] (hweb : IsWeb scheme) (hz : Padding z)
    (hne : z ≠ []) (hcs : ∀ c ∈ cs, c ≠ '\\') : ∃ e, readAuthority scheme (cs ++ z) = .error e := by
  have hmarks : ∀ c ∈ z, c ≠ ':' ∧ c ≠ '[' ∧ c ≠ ']' := fun c hc =>
    ⟨hz.ne (by decide) c hc, hz.ne (by decide) c hc, hz.ne (by decide) c hc⟩
  have hat : ∀ c ∈ z.reverse, (c != '@') = true := fun c hc =>
    bne_iff_ne.mpr (hz.ne (by decide) c (List.mem_reverse.mp hc))
  by_cases hempty : (hostParts (cs ++ z)).1 = []
  · exact ⟨_, readAuthority_empty hweb hempty⟩
  rw [readAuthority_web hweb hempty]
  have hrest : (cs ++ z).rtakeWhile (· != '@') = cs.rtakeWhile (· != '@') ++ z := by
    unfold List.rtakeWhile
    rw [List.reverse_append, List.takeWhile_append_of_pos hat, List.reverse_append,
      List.reverse_reverse]
  have hsubset : ∀ c ∈ cs.rtakeWhile (· != '@'), c ≠ '\\' := fun c hc =>
    hcs c ((List.rtakeWhile_suffix _ cs).subset hc)
  rw [hostParts_eq, hrest, takeHost_append hmarks]
  obtain ⟨hall, hends⟩ := takeHost_parts (cs.rtakeWhile (· != '@')) false
  generalize takeHost false (cs.rtakeWhile (· != '@')) = parts at *
  obtain ⟨host, after⟩ := parts
  dsimp only at hall hends ⊢
  by_cases hafter : after = []
  · -- the padding would belong to the host
    obtain ⟨w, hw⟩ : ∃ w, z = z.dropLast ++ [w] :=
      ⟨z.getLast hne, (List.dropLast_append_getLast hne).symm⟩
    obtain ⟨hblank, hwide⟩ := hz.last w (by rw [hw]; exact List.getLast?_concat)
    obtain ⟨e, he⟩ := readHost_append_blank (host ++ z.dropLast) hblank hwide
    rw [List.append_assoc, ← hw] at he
    rw [if_pos hafter, he]
    exact ⟨e, rfl⟩
  · -- the padding would belong to the port
    obtain ⟨c, port, rfl⟩ := List.exists_cons_of_ne_nil hafter
    have hc : c = ':' := by
      rcases hends with h | h
      · cases h
      · exact Option.some.inj h
    have hport : ∀ c ∈ port, c ≠ '\\' := by
      intro d hd
      refine hsubset d ?_
      rw [← hall]
      exact List.mem_append_right _ (List.mem_cons_of_mem _ hd)
    rw [if_neg hafter, hc]
    cases readHost host with
    | error e => exact ⟨e, rfl⟩
    | ok h =>
      show ∃ e, (readPort scheme (port ++ z)).map _ = _
      rw [readPort_append hz hne hport]
      exact ⟨_, rfl⟩

/-! ## Trimmed addresses -/

theorem authorityOf_ne (rest : List Char) : ∀ c ∈ authorityOf rest, c ≠ '\\' := by
  intro c hc
  unfold authorityOf at hc
  have hends := List.mem_takeWhile_imp hc
  rintro rfl
  exact absurd hends (by decide)

/-- `parse (trim s)` has the scheme, the host and the port of `parse s`. -/
theorem parse_trim [Idna] [LawfulIdna] {s : String} {u : Url} (h : parse s = .ok u)
    (hweb : IsWeb u.scheme) :
    ∃ u', parse (trim s) = .ok u' ∧ u'.scheme = u.scheme ∧ u'.host = u.host ∧ u'.port = u.port := by
  obtain ⟨rest, a, htake, ha, hu⟩ := exists_of_parse h hweb
  obtain ⟨z, hclean, hz⟩ := exists_padding htake
  rw [hclean] at htake
  obtain ⟨rest', htake', rfl⟩ := takeScheme?_append hz htake
  have hsame : readAuthority u.scheme (authorityOf rest') = .ok a := by
    rcases authorityOf_append hz rest' with heq | heq
    · rw [heq] at ha
      exact ha
    · by_cases hne : z = []
      · rw [hne, List.append_nil] at ha
        exact ha
      · obtain ⟨e, he⟩ := readAuthority_append hweb hz hne (authorityOf_ne rest')
        rw [heq, he] at ha
        cases ha
  have hparse : parse (trim s) = .ok (a.address u.scheme (readPath u.scheme (pathOf rest'))
      (queryOf rest') (fragmentOf rest')) := by
    rw [parse_web hweb htake', hsame]
    rfl
  refine ⟨_, hparse, ?_⟩
  rw [hu]
  exact ⟨rfl, rfl, rfl⟩

end Interlock.Url
