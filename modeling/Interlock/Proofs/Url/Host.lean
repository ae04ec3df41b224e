import Interlock.Proofs.Text.Visible
import Interlock.Proofs.Url.Domain
import Interlock.Proofs.Url.Ipv4
import Interlock.Proofs.Url.Ipv6
import Interlock.Proofs.Url.Percent
import Interlock.Url.Parser

/-!
# A host is read back from its text

`readback_of_readHost`: `readHost` of the `text` of a host that it returned is the host. The text
also stands well in an address: it is not empty, holds none of `hostEnds`, and `takeHost` takes all
of it (`Host.Readback`).
-/

namespace Interlock.Url

open Text

/-! ## Where a host ends -/

/-- What may follow a host: nothing, or a colon. -/
def EndsHost (rest : List Char) : Prop := rest = [] ∨ rest.head? = some ':'

theorem takeHost_of_endsHost {rest : List Char} (h : EndsHost rest) :
    takeHost false rest = ([], rest) := by
  cases rest with
  | nil => rfl
  | cons c rest =>
    have hc : c = ':' := by
      rcases h with h | h
      · cases h
      · exact Option.some.inj h
    rw [takeHost, if_pos ⟨hc, rfl⟩]

/-- `takeHost` takes a character that does not end the host. -/
theorem takeHost_cons {bracketed : Bool} {c : Char} (cs : List Char)
    (h : ¬ (c = ':' ∧ (!bracketed) = true)) :
    takeHost bracketed (c :: cs) =
      (c :: (takeHost (if c = '[' then true else if c = ']' then false else bracketed) cs).1,
        (takeHost (if c = '[' then true else if c = ']' then false else bracketed) cs).2) := by
  rw [takeHost, if_neg h]

/-- `takeHost` takes a text without colons and brackets. -/
theorem takeHost_plain {host : List Char} (h : ∀ c ∈ host, c ≠ ':' ∧ c ≠ '[') (rest : List Char) :
    takeHost false (host ++ rest) = (host ++ (takeHost false rest).1, (takeHost false rest).2) := by
  induction host with
  | nil => rfl
  | cons c host ih =>
    obtain ⟨⟨hcolon, hbracket⟩, hhost⟩ := List.forall_mem_cons.mp h
    rw [List.cons_append, takeHost_cons _ (fun hboth => hcolon hboth.1), if_neg hbracket, ite_self,
      ih hhost]
    rfl

/-- In brackets, `takeHost` takes colons too. -/
theorem takeHost_bracketed {body : List Char} (h : ∀ c ∈ body, c ≠ '[' ∧ c ≠ ']')
    (rest : List Char) :
    takeHost true (body ++ ']' :: rest) =
      (body ++ ']' :: (takeHost false rest).1, (takeHost false rest).2) := by
  induction body with
  | nil =>
    rw [List.nil_append, takeHost_cons _ (by simp)]
    rfl
  | cons c body ih =>
    obtain ⟨⟨hopen, hclose⟩, hbody⟩ := List.forall_mem_cons.mp h
    rw [List.cons_append, takeHost_cons _ (by simp), if_neg hopen, if_neg hclose, ih hbody]
    rfl

/-! ## Hosts -/

/-- The characters that end a host or the part of the address that it stands in. -/
def hostEnds : List Char := ['/', '\\', '?', '#', '@']

/-- Without a bracket there is no address of version 6. -/
theorem readBracketed?_none {cs : List Char} (h : ∀ c ∈ cs, c ≠ '[') :
    readBracketed? cs = none := by
  unfold readBracketed?
  split
  · exact absurd rfl (h '[' List.mem_cons_self)
  · rfl

/-- An ASCII character that is not `isForbidden` is `Visible`, and no mark of an address. -/
theorem shows_of_allowed {c : Char} (hascii : c.toNat < 128) (h : Domain.isForbidden c = false) :
    Visible c ∧ c ∉ hostEnds ∧ c ≠ '%' ∧ c ≠ ':' ∧ c ≠ '[' := by
  have hall : ∀ n < 128, Domain.isForbidden (Char.ofNat n) = false →
      Visible (Char.ofNat n) ∧ Char.ofNat n ∉ hostEnds ∧ Char.ofNat n ≠ '%' ∧ Char.ofNat n ≠ ':' ∧
        Char.ofNat n ≠ '[' := by decide
  have hc := hall c.toNat hascii
  rw [Char.ofNat_toNat] at hc
  exact hc h

theorem ok_of_map {α β ε : Type} {f : α → β} {r : Except ε α} {y : β} (h : r.map f = .ok y) :
    ∃ x, r = .ok x ∧ f x = y := by
  cases r with
  | error e => cases h
  | ok x => exact ⟨x, rfl, Except.ok.inj h⟩

section Readback

variable [Idna]

/-- `readHost` reads the text of the host as the host, and it stands well in an address. -/
structure Host.Readback (h : Host) : Prop where
  read : readHost h.text.toList = .ok h
  nonempty : h.text.toList ≠ []
  shows : ∀ c ∈ h.text.toList, Visible c ∧ c ∉ hostEnds
  taken : ∀ rest, EndsHost rest → takeHost false (h.text.toList ++ rest) = (h.text.toList, rest)

/-- A name that `Idna.toAscii?` leaves as it is. -/
structure IsForm (name : List Char) : Prop where
  ascii : ∀ c ∈ name, c.toNat < 128
  allowed : ∀ c ∈ name, Domain.isForbidden c = false
  fixed : Idna.toAscii? name = some name

/-- `readHost` on a name in its form: a name again, or an address of version 4 if its last label
asks for it. -/
theorem readHost_name {name : List Char} (h : IsForm name) (hne : name ≠ []) :
    readHost name =
      if endsInNumber name then (readIpv4 name).map .ipv4
      else .ok (.domain (String.ofList name)) := by
  have hchars := fun c hc => shows_of_allowed (h.ascii c hc) (h.allowed c hc)
  have hform : (Utf8.decode? (percentDecode name)).bind Idna.toAscii? = some name := by
    rw [percentDecode_of_forall fun c hc => (hchars c hc).2.2.1, Utf8.decode?_eq_some_iff.mpr rfl]
    exact h.fixed
  unfold readHost
  rw [readBracketed?_none fun c hc => (hchars c hc).2.2.2.2]
  dsimp only
  rw [hform]
  cases name with
  | nil => exact absurd rfl hne
  | cons c cs => rfl

/-- A host whose text has `IsForm` has `Readback`, if `readHost` returns it. -/
theorem Host.readback_of_name {h : Host} (hname : IsForm h.text.toList)
    (hne : h.text.toList ≠ []) (hread : readHost h.text.toList = .ok h) : h.Readback := by
  have hchars := fun c hc => shows_of_allowed (hname.ascii c hc) (hname.allowed c hc)
  refine ⟨hread, hne, fun c hc => ⟨(hchars c hc).1, (hchars c hc).2.1⟩, ?_⟩
  intro rest hrest
  rw [takeHost_plain fun c hc => (hchars c hc).2.2.2, takeHost_of_endsHost hrest, List.append_nil]

/-- A host of version 6 with eight `Groups` has `Readback`. -/
theorem Host.readback_ipv6 {pieces : List Nat} (h : Groups pieces) :
    (Host.ipv6 pieces).Readback := by
  have htext : (Host.ipv6 pieces).text.toList = '[' :: (ipv6Text pieces).toList ++ [']'] := by
    unfold Host.text
    rw [String.toList_append, String.toList_append]
    rfl
  have hbody : ∀ c ∈ (ipv6Text pieces).toList, c = ':' ∨ c ∈ hexChars := by
    intro c hc
    rcases ipv6Text_cases pieces with hplain | ⟨before, after, zeros, -, hgap⟩
    · rw [hplain] at hc
      exact mem_colonChars hc
    · rw [hgap] at hc
      simp only [List.mem_append, List.mem_cons] at hc
      rcases hc with hc | rfl | rfl | hc
      · exact mem_colonChars hc
      · exact .inl rfl
      · exact .inl rfl
      · exact mem_colonChars hc
  have hchars : ∀ c ∈ ':' :: hexChars, (Visible c ∧ c ∉ hostEnds) ∧ c ≠ '[' ∧ c ≠ ']' := by decide
  have hok := fun c hc => hchars c (List.mem_cons.mpr (hbody c hc))
  constructor
  · rw [htext]
    unfold readHost readBracketed?
    have hlast : ((ipv6Text pieces).toList ++ [']']).getLast? = some ']' := by simp
    show (if ((ipv6Text pieces).toList ++ [']']).getLast? = some ']' then
      (readIpv6 ((ipv6Text pieces).toList ++ [']']).dropLast).map Host.ipv6 else _) = _
    rw [if_pos hlast, List.dropLast_concat, readIpv6_ipv6Text h]
    rfl
  · rw [htext]
    exact List.cons_ne_nil _ _
  · rw [htext]
    refine List.forall_mem_append.mpr ⟨List.forall_mem_cons.mpr ⟨by decide, ?_⟩, by decide⟩
    intro c hc
    exact (hok c hc).1
  · intro rest hrest
    rw [htext, List.append_assoc, List.cons_append, takeHost_cons _ (by decide), if_pos rfl,
      List.singleton_append, takeHost_bracketed fun c hc => (hok c hc).2,
      takeHost_of_endsHost hrest]
    rfl

variable [LawfulIdna]

/-- `ipv4Text n` is small letters at most, and no label of it starts with `Domain.mark`. -/
theorem isForm_ipv4Text (n : Nat) : IsForm (ipv4Text n).toList := by
  have hdigit : ∀ c ∈ hexChars,
      c.toNat < 128 ∧ Domain.isForbidden c = false ∧ lowerChar c = c ∧ c ≠ 'x' := by decide
  have hchars : ∀ c ∈ (ipv4Text n).toList,
      c.toNat < 128 ∧ Domain.isForbidden c = false ∧ lowerChar c = c ∧ c ≠ 'x' := by
    rw [toList_ipv4Text]
    intro c hc
    rcases mem_intercalate_singleton hc with rfl | ⟨digits, hdigits, hmem⟩
    · decide
    · obtain ⟨b, -, rfl⟩ := List.mem_map.mp hdigits
      exact hdigit c (mem_toDigits (by decide) (by decide) b c hmem)
  have hlower : (ipv4Text n).toList.map lowerChar = (ipv4Text n).toList :=
    (List.map_congr_left fun c hc => (hchars c hc).2.2.1).trans (List.map_id _)
  have hmark : ∀ label ∈ ((ipv4Text n).toList.map lowerChar).splitOn '.',
      ¬ Domain.mark <+: label := by
    rw [hlower, List.splitOn_eq_splitOnP]
    intro label hlabel hprefix
    have hx : 'x' ∈ label := hprefix.subset List.mem_cons_self
    exact (hchars 'x' (forall_of_mem_splitOnP hlabel 'x' hx).1).2.2.2 rfl
  have hform := LawfulIdna.lower (fun c hc => ⟨(hchars c hc).1, (hchars c hc).2.1⟩) hmark
  rw [hlower] at hform
  exact ⟨fun c hc => (hchars c hc).1, fun c hc => (hchars c hc).2.1, hform⟩

/-- A host of version 4 below `256 ^ 4` has `Readback`. -/
theorem Host.readback_ipv4 {n : Nat} (h : n < 256 ^ 4) : (Host.ipv4 n).Readback := by
  have hname := isForm_ipv4Text n
  have hne : (ipv4Text n).toList ≠ [] := by
    rw [toList_ipv4Text]
    unfold ipv4Bytes
    rw [List.map_cons, List.map_cons, List.intercalate_cons_cons]
    simp
  refine Host.readback_of_name hname hne ?_
  show readHost (ipv4Text n).toList = _
  rw [readHost_name hname hne, if_pos (endsInNumber_ipv4Text n), readIpv4_ipv4Text h]
  rfl

/-- What `readHost` returns has `Readback`. -/
theorem readback_of_readHost {cs : List Char} {h : Host} (hread : readHost cs = .ok h) :
    h.Readback := by
  unfold readHost at hread
  split at hread
  · next r hr =>
    unfold readBracketed? at hr
    split at hr
    · obtain rfl := Option.some.inj hr
      split at hread
      · obtain ⟨pieces, hpieces, rfl⟩ := ok_of_map hread
        exact Host.readback_ipv6 (groups_of_readIpv6 hpieces)
      · cases hread
    · cases hr
  · split at hread
    · cases hread
    · cases hread
    · next name hempty hform =>
      obtain ⟨plain, -, hform⟩ := Option.bind_eq_some_iff.mp hform
      have hname : IsForm name :=
        ⟨LawfulIdna.ascii hform, LawfulIdna.allowed hform, LawfulIdna.fixed hform⟩
      split at hread
      · obtain ⟨n, hn, rfl⟩ := ok_of_map hread
        exact Host.readback_ipv4 (lt_of_readIpv4 hn)
      · next hends =>
        have hne : name ≠ [] := hempty
        rw [← Except.ok.inj hread]
        have htext : (Host.domain (String.ofList name)).text.toList = name := String.toList_ofList
        refine Host.readback_of_name ?_ ?_ ?_
        · rw [htext]
          exact hname
        · rw [htext]
          exact hne
        · rw [htext, readHost_name hname hne, if_neg hends]

/-- `readHost` refuses a text that ends in blank space outside ASCII. -/
theorem readHost_append_blank (cs : List Char) {w : Char} (hblank : isBlank w = true)
    (hwide : 0x80 ≤ w.toNat) : ∃ e, readHost (cs ++ [w]) = .error e := by
  have hdigit : hexValue? w = none := by
    have hall : ∀ n ∈ Domain.blanks, hexValue? (Char.ofNat n) = none := by decide
    have hw := hall w.toNat (Domain.mem_blanks hblank)
    rwa [Char.ofNat_toNat] at hw
  have hascii : ∀ c : Char, c.toNat < 0x80 → w ≠ c := by
    rintro c hc rfl
    exact absurd hwide (Nat.not_le_of_lt hc)
  have hform : (Utf8.decode? (percentDecode (cs ++ [w]))).bind Idna.toAscii? = none := by
    rw [percentDecode_append_singleton cs hdigit, Option.bind_eq_none_iff]
    intro name hname
    obtain ⟨front, rfl⟩ := Utf8.exists_of_decode?_append_encodeChar hname
    exact LawfulIdna.blank (List.mem_append_right _ List.mem_cons_self) hblank
  unfold readHost
  split
  · next r hr =>
    unfold readBracketed? at hr
    split at hr
    · -- in brackets the last character has to be a bracket
      next body heq =>
      obtain rfl := Option.some.inj hr
      have hlast : body.getLast? ≠ some ']' := by
        have hall : (cs ++ [w]).getLast? = some w := by simp
        rw [heq] at hall
        cases body with
        | nil => exact fun h => by cases h
        | cons c body =>
          rw [List.getLast?_cons_cons] at hall
          rw [hall]
          intro h
          exact hascii ']' (by decide) (Option.some.inj h)
      rw [if_neg hlast]
      exact ⟨_, rfl⟩
    · cases hr
  · rw [hform]
    exact ⟨_, rfl⟩

end Readback

end Interlock.Url
