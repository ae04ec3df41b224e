import Interlock.Proofs.Url.Host
import Interlock.Proofs.Url.Path

/-!
# Name, password, host and port are read back

`readAuthority` reads the `Authority.chars` of a `Usual` authority as the authority
(`readAuthority_chars`). The last at-sign ends the name and the password, in which every other one
is encoded, and the first colon outside brackets ends the host.
-/

namespace Interlock.Url

open Text

variable {scheme : String} {cs : List Char}

/-! ## Parts -/

/-- What stands behind the last at-sign, up to the colon that ends the host and from there on. -/
def hostParts (cs : List Char) : List Char × List Char :=
  takeHost false (((splitLastAt cs).map (·.2)).getD cs)

/-- The name and the password that stand before the last at-sign. -/
def nameParts (cs : List Char) : String × String :=
  ((splitLastAt cs).map fun s => readUserinfo s.1).getD ("", "")

/-- `readPort` behind the host. -/
def readPortBehind (scheme : String) : List Char → Except ParseError (Option Nat)
  | ':' :: portText => readPort scheme portText
  | _ => .ok none

/-- An address of the web has a host. -/
theorem readAuthority_empty [Idna] (hweb : IsWeb scheme) (hnil : (hostParts cs).1 = []) :
    readAuthority scheme cs = .error .emptyHost := by
  unfold hostParts at hnil
  unfold readAuthority
  simp only [hweb.isSpecial, hnil, List.isEmpty_nil, if_true]
  rfl

/-- `readAuthority` by `hostParts` and `nameParts`. -/
theorem readAuthority_web [Idna] (hweb : IsWeb scheme) (hne : (hostParts cs).1 ≠ []) :
    readAuthority scheme cs = (readHost (hostParts cs).1).bind fun host =>
      (readPortBehind scheme (hostParts cs).2).map fun port =>
        ⟨(nameParts cs).1, (nameParts cs).2, host, port⟩ := by
  have hempty : (hostParts cs).1.isEmpty = false := by
    rw [Bool.eq_false_iff, ne_eq, List.isEmpty_iff]
    exact hne
  unfold readAuthority
  unfold hostParts at *
  simp only [hweb.isSpecial, hempty, if_true, Bool.false_eq_true, if_false, Bool.false_and]
  generalize takeHost false ((Option.map (fun x => x.2) (splitLastAt cs)).getD cs) = parts
  obtain ⟨hostText, afterHost⟩ := parts
  cases readHost hostText with
  | error e => rfl
  | ok host =>
    dsimp only
    split
    · next rest =>
      show _ = Except.map _ (readPort scheme rest)
      cases readPort scheme rest with
      | error e => rfl
      | ok p => rfl
    · next hno =>
      show _ = Except.map _ (readPortBehind scheme afterHost)
      unfold readPortBehind
      split
      · exact absurd rfl (hno _)
      · rfl

/-! ## What has been read -/

/-- Name, password, host and port in their usual form. -/
structure Authority.Usual [Idna] (scheme : String) (a : Authority) : Prop where
  username : ∀ c ∈ a.username.toList, inUserinfoSet c = false
  password : ∀ c ∈ a.password.toList, inUserinfoSet c = false
  host : a.host.Readback
  port : ∀ p, a.port = some p → p ≤ 65535 ∧ defaultPort? scheme ≠ some p

/-- `readUserinfo` returns encoded names and passwords. -/
theorem encoded_readUserinfo (cs : List Char) :
    (∀ c ∈ (readUserinfo cs).1.toList, inUserinfoSet c = false) ∧
      ∀ c ∈ (readUserinfo cs).2.toList, inUserinfoSet c = false := by
  have hbytes : ∀ c ∈ byteChars, inUserinfoSet c = false := by decide
  unfold readUserinfo
  dsimp only
  rw [String.toList_ofList, String.toList_ofList]
  exact ⟨percentEncode_clean hbytes, percentEncode_clean hbytes⟩

theorem encoded_nameParts (cs : List Char) :
    (∀ c ∈ (nameParts cs).1.toList, inUserinfoSet c = false) ∧
      ∀ c ∈ (nameParts cs).2.toList, inUserinfoSet c = false := by
  unfold nameParts
  cases splitLastAt cs with
  | none => exact ⟨List.forall_mem_nil _, List.forall_mem_nil _⟩
  | some s => exact encoded_readUserinfo s.1

/-- A port that `readPort` keeps has two bytes and is not the `defaultPort?`. -/
theorem of_readPort {p : Nat} (h : readPort scheme cs = .ok (some p)) :
    p ≤ 65535 ∧ defaultPort? scheme ≠ some p := by
  unfold readPort at h
  dsimp only at h
  split at h
  · cases h
  next hsmall =>
  split at h
  · cases h
  split at h
  · cases h
  next hkept =>
  obtain rfl := Option.some.inj (Except.ok.inj h)
  simp only [Bool.or_eq_true, beq_iff_eq, not_or] at hkept
  exact ⟨Nat.le_of_not_lt hsmall, fun heq => hkept.2 heq.symm⟩

theorem of_readPortBehind {p : Nat} (h : readPortBehind scheme cs = .ok (some p)) :
    p ≤ 65535 ∧ defaultPort? scheme ≠ some p := by
  unfold readPortBehind at h
  split at h
  · exact of_readPort h
  · cases h

/-- What `readAuthority` returns is `Usual`. -/
theorem usual_of_readAuthority [Idna] [LawfulIdna] (hweb : IsWeb scheme) {a : Authority}
    (h : readAuthority scheme cs = .ok a) : a.Usual scheme := by
  by_cases hne : (hostParts cs).1 = []
  · rw [readAuthority_empty hweb hne] at h
    cases h
  · rw [readAuthority_web hweb hne] at h
    cases hhost : readHost (hostParts cs).1 with
    | error e =>
      rw [hhost] at h
      cases h
    | ok host =>
      rw [hhost] at h
      obtain ⟨port, hport, rfl⟩ := ok_of_map h
      refine ⟨(encoded_nameParts cs).1, (encoded_nameParts cs).2, readback_of_readHost hhost, ?_⟩
      rintro p rfl
      exact of_readPortBehind hport

/-! ## The usual form -/

/-- Name and password with the signs that end them. -/
def nameChars (username password : String) : List Char :=
  if username = "" ∧ password = "" then []
  else username.toList ++ (if password = "" then [] else ':' :: password.toList) ++ ['@']

/-- A port with its colon. -/
def portChars (port : Option Nat) : List Char :=
  (port.map fun p => ':' :: Nat.toDigits 10 p).getD []

/-- Name, password, host and port as text. -/
def Authority.chars (a : Authority) : List Char :=
  nameChars a.username a.password ++ (a.host.text.toList ++ portChars a.port)

theorem splitLastAt_none (h : ∀ c ∈ cs, c ≠ '@') : splitLastAt cs = none := by
  have hall : cs.reverse.takeWhile (· != '@') = cs.reverse := by
    rw [List.takeWhile_eq_self_iff]
    intro c hc
    simpa using h c (List.mem_reverse.mp hc)
  unfold splitLastAt
  dsimp only
  rw [hall, List.reverse_reverse, if_pos rfl]

/-- `splitLastAt` finds the last at-sign. -/
theorem splitLastAt_append (before : List Char) {after : List Char} (h : ∀ c ∈ after, c ≠ '@') :
    splitLastAt (before ++ '@' :: after) = some (before, after) := by
  have hall : after.reverse.takeWhile (· != '@') = after.reverse := by
    rw [List.takeWhile_eq_self_iff]
    intro c hc
    simpa using h c (List.mem_reverse.mp hc)
  have hafter : ((before ++ '@' :: after).reverse.takeWhile (· != '@')).reverse = after := by
    rw [List.reverse_append, List.reverse_cons, List.append_assoc, List.takeWhile_append, hall,
      if_pos rfl]
    simp
  unfold splitLastAt
  dsimp only
  rw [hafter, List.length_append, List.length_cons, if_neg (by omega)]
  have hcount : before.length + (after.length + 1) - after.length - 1 = before.length := by omega
  rw [hcount, List.take_left]

/-- `readUserinfo` of `nameChars` without the at-sign is the name and the password. -/
theorem readUserinfo_chars {username password : String}
    (husername : ∀ c ∈ username.toList, inUserinfoSet c = false)
    (hpassword : ∀ c ∈ password.toList, inUserinfoSet c = false) :
    readUserinfo (username.toList ++ (if password = "" then [] else ':' :: password.toList)) =
      (username, password) := by
  have hcolon : ∀ c ∈ username.toList, (c != ':') = true := by
    intro c hc
    rw [bne_iff_ne]
    rintro rfl
    exact absurd (husername ':' hc) (by decide)
  have hsplit : ∀ rest : List Char, rest = [] ∨ rest.head? = some ':' →
      (username.toList ++ rest).takeWhile (· != ':') = username.toList ∧
      (username.toList ++ rest).dropWhile (· != ':') = rest := by
    intro rest hrest
    rw [List.takeWhile_append_of_pos hcolon, List.dropWhile_append_of_pos hcolon]
    cases rest with
    | nil => exact ⟨List.append_nil _, rfl⟩
    | cons c rest =>
      have hc : c = ':' := by
        rcases hrest with h | h
        · cases h
        · exact Option.some.inj h
      rw [hc]
      exact ⟨List.append_nil _, rfl⟩
  unfold readUserinfo
  dsimp only
  by_cases hempty : password = ""
  · obtain ⟨htake, hdrop⟩ := hsplit [] (.inl rfl)
    rw [if_pos hempty, htake, hdrop, percentEncode_of_forall husername, hempty,
      String.ofList_toList]
    rfl
  · obtain ⟨htake, hdrop⟩ := hsplit (':' :: password.toList) (.inr rfl)
    rw [if_neg hempty, htake, hdrop, percentEncode_of_forall husername, String.ofList_toList,
      List.drop_succ_cons, List.drop_zero, percentEncode_of_forall hpassword, String.ofList_toList]

/-- `readPort` of the digits of a port is the port, unless it is the `defaultPort?`. -/
theorem readPort_toDigits {p : Nat} (hsmall : p ≤ 65535) (hkept : defaultPort? scheme ≠ some p) :
    readPort scheme (Nat.toDigits 10 p) = .ok (some p) := by
  have hdigits : ∀ c ∈ Nat.toDigits 10 p, isDigit c = true := fun c hc => isDigit_of_mem_toDigits hc
  have hne : (Nat.toDigits 10 p).isEmpty = false := by
    rw [Bool.eq_false_iff, ne_eq, List.isEmpty_iff]
    exact Nat.toDigits_ne_nil
  unfold readPort
  dsimp only
  rw [List.takeWhile_eq_self_iff.mpr hdigits, List.dropWhile_eq_nil_iff.mpr hdigits,
    digitsValue_toDigits, if_neg (Nat.not_lt_of_le hsmall), if_neg (by simp), hne, if_neg]
  rw [Bool.false_or, beq_iff_eq]
  exact fun heq => hkept heq.symm

theorem endsHost_portChars (port : Option Nat) : EndsHost (portChars port) := by
  cases port with
  | none => exact .inl rfl
  | some p => exact .inr rfl

/-- `readPortBehind` of `portChars port` is `port`. -/
theorem readPortBehind_portChars {port : Option Nat}
    (h : ∀ p, port = some p → p ≤ 65535 ∧ defaultPort? scheme ≠ some p) :
    readPortBehind scheme (portChars port) = .ok port := by
  cases port with
  | none => rfl
  | some p =>
    obtain ⟨hsmall, hkept⟩ := h p rfl
    exact readPort_toDigits hsmall hkept

variable [Idna] {a : Authority}

theorem Authority.Usual.no_at (h : a.Usual scheme) :
    ∀ c ∈ a.host.text.toList ++ portChars a.port, c ≠ '@' := by
  have hdigits : ∀ c ∈ hexChars, c ≠ '@' := by decide
  refine List.forall_mem_append.mpr ⟨?_, ?_⟩
  · rintro c hc rfl
    exact (h.host.shows '@' hc).2 (by decide)
  · intro c hc
    cases hport : a.port with
    | none =>
      rw [hport] at hc
      cases hc
    | some p =>
      rw [hport] at hc
      rcases List.mem_cons.mp hc with rfl | hc
      · decide
      · exact hdigits c (mem_toDigits (by decide) (by decide) p c hc)

/-- `hostParts` and `nameParts` take the `chars` of a `Usual` authority apart again. -/
theorem Authority.Usual.parts (h : a.Usual scheme) :
    hostParts a.chars = (a.host.text.toList, portChars a.port) ∧
      nameParts a.chars = (a.username, a.password) := by
  have htaken := h.host.taken _ (endsHost_portChars a.port)
  unfold hostParts nameParts Authority.chars nameChars
  by_cases hnone : a.username = "" ∧ a.password = ""
  · rw [if_pos hnone, List.nil_append, splitLastAt_none h.no_at]
    obtain ⟨husername, hpassword⟩ := hnone
    rw [husername, hpassword]
    exact ⟨htaken, rfl⟩
  · rw [if_neg hnone, List.append_assoc, List.singleton_append, splitLastAt_append _ h.no_at]
    exact ⟨htaken, readUserinfo_chars h.username h.password⟩

/-- `readAuthority` of the `chars` of a `Usual` authority is the authority. -/
theorem readAuthority_chars (hweb : IsWeb scheme) (h : a.Usual scheme) :
    readAuthority scheme a.chars = .ok a := by
  obtain ⟨hhost, hname⟩ := h.parts
  have hne : (hostParts a.chars).1 ≠ [] := by
    rw [hhost]
    exact h.host.nonempty
  rw [readAuthority_web hweb hne, hhost, hname, h.host.read]
  show (readPortBehind scheme (portChars a.port)).map _ = _
  rw [readPortBehind_portChars h.port]
  rfl

/-- The `chars` of a `Usual` authority are `Visible`, and none `endsAuthority`. -/
theorem Authority.Usual.shows (h : a.Usual scheme) :
    ∀ c ∈ a.chars, Visible c ∧ endsAuthority true c = false := by
  have hencoded : ∀ c, inUserinfoSet c = false → Visible c ∧ endsAuthority true c = false := by
    intro c hc
    have hpath := inPathSet_of_inUserinfoSet hc
    refine ⟨visible_of_inFragmentSet (inFragmentSet_of_inPathSet hpath), ?_⟩
    simp only [inUserinfoSet, inPathSet, Bool.or_eq_false_iff] at hc
    simp only [endsAuthority, isSlash, Bool.true_and, Bool.or_eq_false_iff]
    tauto
  have hhost : ∀ c ∈ a.host.text.toList, Visible c ∧ endsAuthority true c = false := by
    intro c hc
    obtain ⟨hvisible, hends⟩ := h.host.shows c hc
    simp only [hostEnds, List.mem_cons, List.not_mem_nil, or_false, not_or] at hends
    obtain ⟨hslash, hback, hmark, hhash, -⟩ := hends
    refine ⟨hvisible, ?_⟩
    simp only [endsAuthority, isSlash, Bool.true_and, Bool.or_eq_false_iff, beq_eq_false_iff_ne]
    exact ⟨⟨⟨hslash, hback⟩, hmark⟩, hhash⟩
  have hmarks : ∀ c ∈ '@' :: ':' :: hexChars, Visible c ∧ endsAuthority true c = false := by decide
  unfold Authority.chars nameChars portChars
  refine List.forall_mem_append.mpr ⟨?_, List.forall_mem_append.mpr ⟨hhost, ?_⟩⟩
  · split
    · exact List.forall_mem_nil _
    · refine List.forall_mem_append.mpr ⟨List.forall_mem_append.mpr ⟨?_, ?_⟩, ?_⟩
      · intro c hc
        exact hencoded c (h.username c hc)
      · split
        · exact List.forall_mem_nil _
        · refine List.forall_mem_cons.mpr ⟨hmarks ':' (by decide), ?_⟩
          intro c hc
          exact hencoded c (h.password c hc)
      · exact List.forall_mem_singleton.mpr (hmarks '@' (by decide))
  · cases a.port with
    | none => exact List.forall_mem_nil _
    | some p =>
      refine List.forall_mem_cons.mpr ⟨hmarks ':' (by decide), ?_⟩
      intro c hc
      have hdigit := mem_toDigits (by decide) (by decide) p c hc
      exact hmarks c (List.mem_cons_of_mem _ (List.mem_cons_of_mem _ hdigit))

theorem Authority.Usual.chars_ne_nil (h : a.Usual scheme) : a.chars ≠ [] := by
  unfold Authority.chars
  simp [h.host.nonempty]

end Interlock.Url
