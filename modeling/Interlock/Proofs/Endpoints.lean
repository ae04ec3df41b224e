import Interlock.Proofs.Url.Trim
import Interlock.Settings.Basic

/-!
# Where the endpoints are

For settings without `addressProblems`, `Endpoints.ofBase` succeeds (`exists_endpoints`), and every
`Endpoints.url` parses to an address with the scheme, the host and the port of the base
(`Url.SamePlace`). Without a query and a fragment its path is that of the base, without slashes at
its end, followed by `Endpoint.path` (`parse_url_plain`). With one of them, the text behind the base
belongs to the query or the fragment, and the path is that of the base (`parse_url_tail`).
-/

namespace Interlock

open Url

/-! ## The six endpoints -/

/-- The endpoints that are asked for a status or take an action. -/
inductive Endpoint
  | status (k : Source)
  | action (a : ActionEndpoint)
  deriving DecidableEq, Repr

namespace Endpoint

/-- The path of an endpoint. -/
def path : Endpoint → String
  | status k => k.path
  | action a => a.path

/-- The segments of `path`. -/
def segments : Endpoint → List String
  | status .intent => ["api", "intent", "latest"]
  | status .chain => ["api", "audit", "chain", "status"]
  | status .executor => ["api", "executor", "status"]
  | status .risk => ["api", "risk", "regime"]
  | action .kill => ["api", "executor", "kill"]
  | action .lock => ["api", "executor", "lock"]

theorem toList_path (p : Endpoint) : p.path.toList = pathChars p.segments := by
  rcases p with (_ | _ | _ | _) | (_ | _) <;> rfl

theorem segments_ne_nil (p : Endpoint) : p.segments ≠ [] := by
  rcases p with (_ | _ | _ | _) | (_ | _) <;> exact List.cons_ne_nil _ _

/-- The segments of an endpoint are `Proper`. -/
theorem proper_segments (p : Endpoint) : ∀ s ∈ p.segments, Proper s := by
  rcases p with (_ | _ | _ | _) | (_ | _) <;> decide

theorem path_injective {p q : Endpoint} (h : p.path = q.path) : p = q := by
  rcases p with (_ | _ | _ | _) | (_ | _) <;> rcases q with (_ | _ | _ | _) | (_ | _) <;>
    first
      | rfl
      | exact absurd h (by decide)

end Endpoint

/-- The address of an endpoint. -/
def Endpoints.url (e : Endpoints) : Endpoint → String
  | .status k => e.statusUrl k
  | .action a => e.actionUrl a

/-- An address is the base with the path of the endpoint behind it. -/
theorem Endpoints.url_eq (e : Endpoints) (p : Endpoint) : e.url p = e.base ++ p.path := by
  cases p <;> rfl

/-- The same scheme, host and port. -/
structure Url.SamePlace (u v : Url) : Prop where
  scheme : u.scheme = v.scheme
  host : u.host = v.host
  port : u.port = v.port

/-! ## The text of the base -/

variable {scheme : String} {a : Authority} {parts : List String} {query fragment : Option String}

theorem Url.getLast?_frontChars [Idna] (ha : a.Usual scheme) :
    (frontChars scheme a).getLast? ≠ some '/' := by
  obtain ⟨cs, c, hc⟩ : ∃ cs c, a.chars = cs ++ [c] :=
    ⟨_, _, (List.dropLast_append_getLast ha.chars_ne_nil).symm⟩
  have hends := (ha.shows c (by simp [hc])).2
  have hfront : frontChars scheme a = (scheme.toList ++ ':' :: '/' :: '/' :: cs) ++ [c] := by
    unfold frontChars
    rw [hc]
    simp
  rw [hfront, List.getLast?_concat]
  intro h
  rw [Option.some.inj h] at hends
  exact absurd hends (by decide)

theorem toList_trimSlashes (s : String) :
    (Endpoints.trimSlashes s).toList = s.toList.rdropWhile (· == '/') := String.toList_ofList

/-- The characters of `Proper` segments are `Visible`, and neither `?` nor `#`. -/
theorem pathChars_shows {parts : List String} (h : ∀ s ∈ parts, Proper s) :
    ∀ c ∈ pathChars parts, Text.Visible c ∧ c ≠ '#' ∧ c ≠ '?' := by
  intro c hc
  obtain ⟨s, hs, hc⟩ := List.mem_flatMap.mp hc
  rcases List.mem_cons.mp hc with rfl | hc
  · decide
  · have hpath := (h s hs).encoded c hc
    refine ⟨visible_of_inFragmentSet (inFragmentSet_of_inPathSet hpath), ?_, ?_⟩
    · rintro rfl
      exact absurd hpath (by decide)
    · rintro rfl
      exact absurd hpath (by decide)

/-- `splitTail` cuts nothing off `Proper` segments. -/
theorem splitTail_pathChars {parts : List String} (h : ∀ s ∈ parts, Proper s) (tail : List Char) :
    splitTail (pathChars parts ++ tail) =
      (pathChars parts ++ (splitTail tail).1, (splitTail tail).2) :=
  splitTail_append (fun c hc => (pathChars_shows h c hc).2) tail

theorem endsFront_pathChars {parts : List String} (hne : parts ≠ []) (tail : List Char) :
    EndsFront (pathChars parts ++ tail) := by
  obtain ⟨s, parts, rfl⟩ := List.exists_cons_of_ne_nil hne
  exact .inr (.inl rfl)

/-- The segments of a base without the empty ones at its end. -/
def baseSegments (parts : List String) : List String := parts.rdropWhile (· == "")

theorem proper_baseSegments (h : ∀ s ∈ parts, Proper s) : ∀ s ∈ baseSegments parts, Proper s :=
  fun s hs => h s ((List.rdropWhile_prefix _ parts).subset hs)

/-- `trimSlashes` of a path leaves `baseSegments`. -/
theorem trimSlashes_path (h : ∀ s ∈ parts, Proper s) :
    (Endpoints.trimSlashes (Path.segments parts).text).toList = pathChars (baseSegments parts) := by
  have hdrop := rdropWhile_pathChars (show ([] : List Char).getLast? ≠ some '/' by simp) parts h
  rw [toList_trimSlashes, toList_pathText]
  exact hdrop

/-- `trimSlashes` of a base without query and fragment leaves `baseSegments`. -/
theorem toList_base_plain [Idna] (ha : a.Usual scheme) (h : ∀ s ∈ parts, Proper s) :
    (Endpoints.trimSlashes (a.address scheme (.segments parts) none none).text).toList =
      frontChars scheme a ++ pathChars (baseSegments parts) := by
  have htail : tailChars none none = [] := rfl
  rw [toList_trimSlashes, toList_address, htail, List.append_nil,
    rdropWhile_pathChars (getLast?_frontChars ha) parts h]
  rfl

/-- A base without query and fragment: `url` parses to the segments `baseSegments parts ++
p.segments`. -/
theorem parse_url_plain [Idna] (hweb : IsWeb scheme) (ha : a.Usual scheme)
    (h : ∀ s ∈ parts, Proper s) (p : Endpoint) :
    Url.parse (Endpoints.url
        ⟨Endpoints.trimSlashes (a.address scheme (.segments parts) none none).text⟩ p) =
      .ok (a.address scheme (.segments (baseSegments parts ++ p.segments)) none none) := by
  have hproper : ∀ s ∈ baseSegments parts ++ p.segments, Proper s :=
    List.forall_mem_append.mpr ⟨proper_baseSegments h, p.proper_segments⟩
  have hne : baseSegments parts ++ p.segments ≠ [] :=
    List.append_ne_nil_of_right_ne_nil _ p.segments_ne_nil
  have hsplit : splitTail (pathChars (baseSegments parts ++ p.segments)) =
      (pathChars (baseSegments parts ++ p.segments), none, none) := by
    have happend := splitTail_pathChars hproper []
    rw [List.append_nil] at happend
    rw [happend]
    show (_ ++ [], _) = _
    rw [List.append_nil]
    rfl
  have hends : EndsFront (pathChars (baseSegments parts ++ p.segments)) := by
    have happend := endsFront_pathChars hne []
    rwa [List.append_nil] at happend
  have hurl : Endpoints.url
      ⟨Endpoints.trimSlashes (a.address scheme (.segments parts) none none).text⟩ p =
      String.ofList (frontChars scheme a ++ pathChars (baseSegments parts ++ p.segments)) := by
    apply String.toList_injective
    rw [Endpoints.url_eq, String.toList_append, toList_base_plain ha h, p.toList_path,
      String.toList_ofList, pathChars_append, List.append_assoc]
  rw [hurl, parse_front hweb ha (fun c hc => (pathChars_shows hproper c hc).1) hends]
  unfold queryOf fragmentOf
  rw [hsplit]
  dsimp only
  rw [readPath_pathChars hweb hne hproper]
  rfl

/-- `tailChars` begins with `?` or `#`, if there is a query or a fragment. -/
theorem exists_tailChars (h : query ≠ none ∨ fragment ≠ none) : ∃ mark more,
    tailChars query fragment = mark :: more ∧ (mark = '?' ∨ mark = '#') := by
  unfold tailChars
  cases query with
  | some q => exact ⟨'?', _, rfl, .inl rfl⟩
  | none =>
    cases fragment with
    | some f => exact ⟨'#', _, rfl, .inr rfl⟩
    | none => rcases h with h | h <;> exact absurd rfl h

/-- `trimSlashes` of a base with a query or a fragment cuts behind the mark only. -/
theorem toList_base_tail {mark : Char} {more : List Char}
    (htail : tailChars query fragment = mark :: more) (hmark : mark = '?' ∨ mark = '#') :
    (Endpoints.trimSlashes (a.address scheme (.segments parts) query fragment).text).toList =
      frontChars scheme a ++ (pathChars parts ++ mark :: more.rdropWhile (· == '/')) := by
  have hlast : ∀ c ∈ (frontChars scheme a ++ pathChars parts ++ [mark]).getLast?,
      (c == '/') = false := by
    intro c hc
    rw [List.getLast?_concat] at hc
    rw [← Option.some.inj hc]
    rcases hmark with rfl | rfl <;> rfl
  have hdrop : (frontChars scheme a ++ pathChars parts ++ [mark] ++ more).rdropWhile (· == '/') =
      frontChars scheme a ++ pathChars parts ++ [mark] ++ more.rdropWhile (· == '/') :=
    Text.rdropWhile_append_of_last (List.append_ne_nil_of_right_ne_nil _
      (List.cons_ne_nil mark [])) hlast
  simp only [List.append_assoc, List.singleton_append] at hdrop
  rw [toList_trimSlashes, toList_address, htail, hdrop]

/-- A base with a query or a fragment: `url` parses to the segments of the base, and `Endpoint.path`
goes to the query or the fragment. -/
theorem parse_url_tail [Idna] (hweb : IsWeb scheme) (ha : a.Usual scheme)
    (hne : parts ≠ []) (h : ∀ s ∈ parts, Proper s) (htail : query ≠ none ∨ fragment ≠ none)
    (hvisible : ∀ c ∈ tailChars query fragment, Text.Visible c) (p : Endpoint) :
    ∃ query' fragment', Url.parse (Endpoints.url
        ⟨Endpoints.trimSlashes (a.address scheme (.segments parts) query fragment).text⟩ p) =
      .ok (a.address scheme (.segments parts) query' fragment') := by
  obtain ⟨mark, more, hmore, hmark⟩ := exists_tailChars htail
  have hurl : Endpoints.url
      ⟨Endpoints.trimSlashes (a.address scheme (.segments parts) query fragment).text⟩ p =
      String.ofList (frontChars scheme a ++
        (pathChars parts ++ mark :: (more.rdropWhile (· == '/') ++ pathChars p.segments))) := by
    apply String.toList_injective
    rw [Endpoints.url_eq, String.toList_append, toList_base_tail hmore hmark, p.toList_path,
      String.toList_ofList]
    simp only [List.append_assoc, List.cons_append]
  generalize htext : mark :: (more.rdropWhile (· == '/') ++ pathChars p.segments) = tail at hurl
  have hsplit : (splitTail (pathChars parts ++ tail)).1 = pathChars parts := by
    have hnone : (splitTail tail).1 = [] := by
      rw [← htext]
      rcases hmark with rfl | rfl <;> rfl
    rw [splitTail_pathChars h, hnone, List.append_nil]
  have hshows : ∀ c ∈ pathChars parts ++ tail, Text.Visible c := by
    rw [hmore] at hvisible
    obtain ⟨hmarkVisible, hmoreVisible⟩ := List.forall_mem_cons.mp hvisible
    rw [← htext]
    refine List.forall_mem_append.mpr ⟨fun c hc => (pathChars_shows h c hc).1,
      List.forall_mem_cons.mpr ⟨hmarkVisible, List.forall_mem_append.mpr ⟨?_, ?_⟩⟩⟩
    · intro c hc
      exact hmoreVisible c ((List.rdropWhile_prefix _ more).subset hc)
    · intro c hc
      exact (pathChars_shows p.proper_segments c hc).1
  rw [hurl, parse_front hweb ha hshows (endsFront_pathChars hne tail), hsplit,
    readPath_pathChars hweb hne h]
  exact ⟨_, _, rfl⟩

/-! ## The base of valid settings -/

section Base

variable [Idna]

/-- A `baseUrl` without `addressProblems` parses, to a scheme with `IsWeb`. -/
theorem exists_parse_of_valid {s : Settings} (h : s.addressProblems = []) :
    ∃ u, Url.parse s.baseUrl = .ok u ∧ IsWeb u.scheme := by
  unfold Settings.addressProblems at h
  split at h
  · cases h
  · next u hparse =>
    split at h
    · next hweb => exact ⟨u, hparse, hweb⟩
    · cases h

variable [LawfulIdna]

/-- What `parse` returns for `IsWeb` is a `Usual` authority with `Proper` segments, at least one. -/
theorem Url.exists_usual {s : String} {u : Url} (h : Url.parse s = .ok u) (hweb : IsWeb u.scheme) :
    ∃ (a : Authority) (parts : List String) (query fragment : Option String),
      u = a.address u.scheme (.segments parts) query fragment ∧ a.Usual u.scheme ∧
      parts ≠ [] ∧ (∀ s ∈ parts, Proper s) ∧
      ∀ c ∈ tailChars query fragment, Text.Visible c := by
  obtain ⟨rest, a, -, ha, hu⟩ := exists_of_parse h hweb
  obtain ⟨parts, hpath, hne, hproper⟩ := proper_of_readPath hweb (pathOf rest)
  rw [hpath] at hu
  have hencoded : ∀ c ∈ byteChars, inQuerySet true c = false ∧ inFragmentSet c = false := by decide
  refine ⟨a, parts, _, _, hu, usual_of_readAuthority hweb ha, hne, hproper, ?_⟩
  unfold tailChars queryOf fragmentOf
  refine List.forall_mem_append.mpr ⟨?_, ?_⟩
  · cases (splitTail rest).2.1 with
    | none => exact List.forall_mem_nil _
    | some q =>
      refine List.forall_mem_cons.mpr ⟨by decide, ?_⟩
      intro c hc
      rw [String.toList_ofList] at hc
      exact visible_of_inQuerySet (percentEncode_clean (fun c hc => (hencoded c hc).1) c hc)
  · cases (splitTail rest).2.2 with
    | none => exact List.forall_mem_nil _
    | some f =>
      refine List.forall_mem_cons.mpr ⟨by decide, ?_⟩
      intro c hc
      rw [String.toList_ofList] at hc
      exact visible_of_inFragmentSet (percentEncode_clean (fun c hc => (hencoded c hc).2) c hc)

/-- `Endpoints.ofBase` succeeds on a `baseUrl` without `addressProblems`. -/
theorem exists_endpoints {s : Settings} (h : s.addressProblems = []) :
    ∃ given base, Url.parse s.baseUrl = .ok given ∧ Url.parse (Text.trim s.baseUrl) = .ok base ∧
      IsWeb base.scheme ∧ base.SamePlace given ∧
      Endpoints.ofBase s.baseUrl = .ok ⟨Endpoints.trimSlashes base.text⟩ := by
  obtain ⟨given, hgiven, hweb⟩ := exists_parse_of_valid h
  obtain ⟨base, hbase, hscheme, hhost, hport⟩ := parse_trim hgiven hweb
  refine ⟨given, base, hgiven, hbase, hscheme ▸ hweb, ⟨hscheme, hhost, hport⟩, ?_⟩
  unfold Endpoints.ofBase
  rw [hbase]
  rfl

end Base

/-- The six addresses are at the `SamePlace` as the base. Without query and fragment, their paths
are `Endpoints.trimSlashes base.path.text ++ p.path`; with one of them, all six paths are
`base.path`. -/
theorem addresses_of_base [Idna] [LawfulIdna] (s : Settings) (h : s.addressProblems = []) :
    ∃ (given base : Url) (e : Endpoints) (address : Endpoint → Url),
      Url.parse s.baseUrl = .ok given ∧ Url.parse (Text.trim s.baseUrl) = .ok base ∧
      Endpoints.ofBase s.baseUrl = .ok e ∧
      (∀ p, Url.parse (e.url p) = .ok (address p) ∧ (address p).SamePlace given ∧
        (address p).SamePlace base) ∧
      (base.query = none ∧ base.fragment = none →
        (∀ p, (address p).path.text = Endpoints.trimSlashes base.path.text ++ p.path ∧
          (address p).query = none ∧ (address p).fragment = none) ∧
        Function.Injective fun p => (address p).path) ∧
      (base.query ≠ none ∨ base.fragment ≠ none → ∀ p, (address p).path = base.path) := by
  obtain ⟨given, base, hgiven, hbase, hweb, hplace, hbuilt⟩ := exists_endpoints h
  obtain ⟨a, parts, query, fragment, hu, ha, hne, hproper, hvisible⟩ := exists_usual hbase hweb
  -- from here on the base is an address in parts, and its text is forgotten
  generalize base.scheme = scheme at hu hweb ha
  subst hu
  have hsame : ∀ {path : Path} {query' fragment' : Option String},
      (a.address scheme path query' fragment').SamePlace given ∧
        (a.address scheme path query' fragment').SamePlace
          (a.address scheme (.segments parts) query fragment) :=
    ⟨⟨hplace.scheme, hplace.host, hplace.port⟩, ⟨rfl, rfl, rfl⟩⟩
  by_cases hplain : query = none ∧ fragment = none
  · obtain ⟨rfl, rfl⟩ := hplain
    refine ⟨given, _, _,
      fun p => a.address scheme (.segments (baseSegments parts ++ p.segments)) none none,
      hgiven, hbase, hbuilt, fun p => ⟨parse_url_plain hweb ha hproper p, hsame⟩, ?_, ?_⟩
    · intro _
      have htext : ∀ p : Endpoint, (Path.segments (baseSegments parts ++ p.segments)).text =
          Endpoints.trimSlashes (Path.segments parts).text ++ p.path := by
        intro p
        apply String.toList_injective
        rw [toList_pathText, pathChars_append, String.toList_append, trimSlashes_path hproper,
          p.toList_path]
      refine ⟨fun p => ⟨htext p, rfl, rfl⟩, ?_⟩
      intro p q hpq
      have hboth : Endpoints.trimSlashes (Path.segments parts).text ++ p.path =
          Endpoints.trimSlashes (Path.segments parts).text ++ q.path := by
        rw [← htext p, ← htext q]
        exact congrArg Path.text hpq
      -- what stands in front of the endpoint's path is the same in both
      apply Endpoint.path_injective
      apply String.toList_injective
      have hlist := congrArg String.toList hboth
      rw [String.toList_append, String.toList_append] at hlist
      exact List.append_cancel_left hlist
    · rintro (hquery | hfragment)
      · exact absurd rfl hquery
      · exact absurd rfl hfragment
  · have htail : query ≠ none ∨ fragment ≠ none := by
      by_cases hquery : query = none
      · exact .inr fun hfragment => hplain ⟨hquery, hfragment⟩
      · exact .inl hquery
    choose query' fragment' hparse using parse_url_tail hweb ha hne hproper htail hvisible
    refine ⟨given, _, _, fun p => a.address scheme (.segments parts) (query' p) (fragment' p),
      hgiven, hbase, hbuilt, fun p => ⟨hparse p, hsame⟩, ?_, fun _ _ => rfl⟩
    intro hnone
    exact absurd hnone hplain

/-! ## The default base -/

/-- The authority of the default base. -/
def loopback : Authority := ⟨"", "", .ipv4 2130706433, some 8787⟩

theorem usual_loopback [Idna] [LawfulIdna] : loopback.Usual "http" := by
  refine ⟨List.forall_mem_nil _, List.forall_mem_nil _, Host.readback_ipv4 (by decide), ?_⟩
  rintro p ⟨⟩
  decide

/-- The default base parses to `loopback` with an empty segment. -/
theorem Settings.parse_default [Idna] [LawfulIdna] : Url.parse Settings.default.baseUrl =
    .ok (loopback.address "http" (.segments [""]) none none) := by
  have htext : Settings.default.baseUrl =
      String.ofList (frontChars "http" loopback ++ []) := by decide
  rw [htext, parse_front (.inl rfl) usual_loopback (List.forall_mem_nil _) (.inl rfl)]
  rfl

/-- The default settings have no problems. -/
theorem Settings.default_valid [Idna] [LawfulIdna] : Settings.default.problems = [] := by
  unfold Settings.problems Settings.addressProblems
  rw [parse_default]
  rfl

/-- The default base has neither query nor fragment. -/
theorem addresses_of_default_base : Settings.default.addressProblems = [] ∧
    ∃ (given base : Url) (e : Endpoints) (address : Endpoint → Url),
      Url.parse Settings.default.baseUrl = .ok given ∧
      Url.parse (Text.trim Settings.default.baseUrl) = .ok base ∧
      Endpoints.ofBase Settings.default.baseUrl = .ok e ∧
      (∀ p, Url.parse (e.url p) = .ok (address p) ∧ (address p).SamePlace given ∧
        (address p).SamePlace base) ∧
      (base.query = none ∧ base.fragment = none →
        (∀ p, (address p).path.text = Endpoints.trimSlashes base.path.text ++ p.path ∧
          (address p).query = none ∧ (address p).fragment = none) ∧
        Function.Injective fun p => (address p).path) ∧
      (base.query ≠ none ∨ base.fragment ≠ none → ∀ p, (address p).path = base.path) :=
  have h : Settings.default.addressProblems = [] :=
    (List.append_eq_nil_iff.mp (List.append_eq_nil_iff.mp Settings.default_valid).1).1
  ⟨h, addresses_of_base Settings.default h⟩

/-- Behind the base `http://127.0.0.1:8787/ops?team=1`, the kill endpoint has the path `/ops`. -/
theorem kill_path_lost_in_query :
    let s : Settings := { Settings.default with baseUrl := "http://127.0.0.1:8787/ops?team=1" }
    s.addressProblems = [] ∧ ∃ (base : Url) (e : Endpoints) (address : Url),
      Url.parse s.baseUrl = .ok base ∧ Url.parse (Text.trim s.baseUrl) = .ok base ∧
      Endpoints.ofBase s.baseUrl = .ok e ∧ Url.parse (e.url (.action .kill)) = .ok address ∧
      base.path.text = "/ops" ∧ address.path.text = "/ops" ∧
      address.query = some "team=1/api/executor/kill" ∧
      address.path.text ≠ Endpoints.trimSlashes base.path.text ++ ActionEndpoint.kill.path := by
  intro s
  have hparse : ∀ tail : String, (∀ c ∈ tail.toList, Text.Visible c) → EndsFront tail.toList →
      Url.parse ("http://127.0.0.1:8787" ++ tail) =
        .ok (loopback.address "http" (readPath "http" (splitTail tail.toList).1)
          (queryOf tail.toList) (fragmentOf tail.toList)) := by
    intro tail hvisible hends
    have hfront : "http://127.0.0.1:8787".toList = frontChars "http" loopback := by decide
    have htext : "http://127.0.0.1:8787" ++ tail =
        String.ofList (frontChars "http" loopback ++ tail.toList) := by
      rw [← hfront, ← String.toList_append, String.ofList_toList]
    rw [htext, parse_front (.inl rfl) usual_loopback hvisible hends]
  have hbase : Url.parse s.baseUrl =
      .ok (loopback.address "http" (.segments ["ops"]) (some "team=1") none) :=
    hparse "/ops?team=1" (by decide) (.inr (.inl rfl))
  have htrim : Text.trim s.baseUrl = s.baseUrl := by decide
  have hbuilt : Endpoints.ofBase s.baseUrl = .ok ⟨"http://127.0.0.1:8787/ops?team=1"⟩ := by
    have htext : Endpoints.trimSlashes
        (loopback.address "http" (.segments ["ops"]) (some "team=1") none).text =
        "http://127.0.0.1:8787/ops?team=1" := by decide
    unfold Endpoints.ofBase
    rw [htrim, hbase, ← htext]
    rfl
  have hkill : Url.parse (Endpoints.url ⟨"http://127.0.0.1:8787/ops?team=1"⟩ (.action .kill)) =
      .ok (loopback.address "http" (.segments ["ops"]) (some "team=1/api/executor/kill") none) :=
    hparse "/ops?team=1/api/executor/kill" (by decide) (.inr (.inl rfl))
  refine ⟨?_, _, _, _, hbase, by rw [htrim, hbase], hbuilt, hkill, by decide, by decide, rfl,
    by decide⟩
  unfold Settings.addressProblems
  rw [hbase]
  rfl

end Interlock
