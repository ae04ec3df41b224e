import Interlock.Proofs.Monitor.Landings
import Interlock.Proofs.Url.Digits
import Interlock.Report

/-!
# The report shows how a source was reached last

`Report.linkText` shows the `error` of the slot, or else its `code`. A slot keeps its `code` when a
later fetch is not answered, but such a fetch sets `error`, which goes first. So `linkText` always
tells of the latest result (`reached_linkText`).

* `Reached`: what a result says of a source.
* `Reached.eq_unpolled_iff`, `Reached.eq_error_iff`, `Reached.eq_code_iff`: what can be told from
  `linkText`.
-/

namespace Interlock

theorem Text.ofNat_injective {m n : Nat} (h : ofNat m = ofNat n) : m = n := by
  have hdigits : Nat.toDigits 10 m = Nat.toDigits 10 n := String.ofList_injective h
  rw [← Url.digitsValue_toDigits m, hdigits, Url.digitsValue_toDigits]

namespace Report

open Text

/-! ## What the latest result says -/

/-- `Reached last link`: the text `link` says how a source with the latest result `last` was
reached. -/
inductive Reached : Option FetchResult → String → Prop
  /-- There is no result. -/
  | unpolled : Reached none "not polled"
  /-- Something is wrong with the result, whether or not there was an answer. -/
  | error (r : FetchResult) (e : String) (h : r.error = some e) : Reached (some r) ("error: " ++ e)
  /-- There was an answer in which nothing is wrong. -/
  | code (c : Nat) (payload : Option Json) :
    Reached (some (.received c payload none)) ("HTTP " ++ ofNat c)

/-- `linkText` is `Reached` by the result that landed last. -/
theorem reached_linkText (es : List Monitor.Event) (k : Source) :
    Reached (Monitor.lastLanded k es) (linkText (Monitor.fresh.run es).snapshot k) := by
  unfold linkText Slot.error
  rw [Monitor.result_run]
  cases hlast : Monitor.lastLanded k es with
  | none =>
    rw [Monitor.lastHttpCode_run_of_none es k hlast]
    exact .unpolled
  | some r =>
    cases r with
    | unreachable reason => exact .error _ reason rfl
    | received c payload error =>
      cases error with
      | some e => exact .error _ e rfl
      | none =>
        -- only here is the kept code shown, and the result itself brought it
        rw [Monitor.lastHttpCode_run es k hlast rfl]
        exact .code c payload

/-! ## What can be told from the report -/

theorem text_apart (e : String) (c : Nat) : "error: " ++ e ≠ "not polled" ∧
    "HTTP " ++ ofNat c ≠ "not polled" ∧ "error: " ++ e ≠ "HTTP " ++ ofNat c := by
  refine ⟨?_, ?_, ?_⟩ <;>
  · intro h
    have hhead := congrArg (fun s => s.toList.head?) h
    simp at hhead

namespace Reached

variable {last : Option FetchResult} {link : String} (h : Reached last link)
include h

/-- `"not polled"` is shown if and only if there is no result. -/
theorem eq_unpolled_iff : link = "not polled" ↔ last = none := by
  cases h with
  | unpolled => exact iff_of_true rfl rfl
  | error r e => exact iff_of_false (text_apart e 0).1 nofun
  | code c => exact iff_of_false (text_apart "" c).2.1 nofun

/-- `"error: " ++ e` is shown if and only if the latest result has the error `e`. -/
theorem eq_error_iff (e : String) :
    link = "error: " ++ e ↔ ∃ r, last = some r ∧ r.error = some e := by
  cases h with
  | unpolled =>
    refine iff_of_false (Ne.symm (text_apart e 0).1) ?_
    rintro ⟨r, ⟨⟩, -⟩
  | error r e' he =>
    rw [String.append_right_inj]
    constructor
    · rintro rfl
      exact ⟨r, rfl, he⟩
    · rintro ⟨_, ⟨⟩, he'⟩
      exact Option.some.inj (he.symm.trans he')
  | code c =>
    refine iff_of_false (Ne.symm (text_apart e c).2.2) ?_
    rintro ⟨r, ⟨⟩, ⟨⟩⟩

/-- `"HTTP " ++ ofNat c` is shown if and only if the latest result has the code `c` and no error. -/
theorem eq_code_iff (c : Nat) :
    link = "HTTP " ++ ofNat c ↔ ∃ payload, last = some (.received c payload none) := by
  cases h with
  | unpolled =>
    refine iff_of_false (Ne.symm (text_apart "" c).2.1) ?_
    rintro ⟨payload, ⟨⟩⟩
  | error r e he =>
    refine iff_of_false (text_apart e c).2.2 ?_
    rintro ⟨payload, ⟨⟩⟩
    cases he
  | code c' payload =>
    rw [String.append_right_inj]
    constructor
    · intro hdigits
      rw [← ofNat_injective hdigits]
      exact ⟨payload, rfl⟩
    · rintro ⟨payload', ⟨⟩⟩
      rfl

/-- There is no fourth text. -/
theorem eq_text :
    link = "not polled" ∨ (∃ e, link = "error: " ++ e) ∨ ∃ c, link = "HTTP " ++ ofNat c := by
  cases h with
  | unpolled => exact .inl rfl
  | error r e => exact .inr (.inl ⟨e, rfl⟩)
  | code c => exact .inr (.inr ⟨c, rfl⟩)

end Reached

/-- `Report.text` has the line of `k.title` and `linkText`. -/
theorem exists_text_eq (s : Snapshot) (v : Verdict) (k : Source) : ∃ before after,
    text s v = before ++ ("\n[" ++ k.title ++ "] " ++ linkText s k ++ "\n") ++ after := by
  obtain ⟨sources, sources', hall⟩ := List.append_of_mem k.mem_all
  refine ⟨verdictText v ++ String.join (sources.map (sourceText s)),
    String.join ((Card.fields s k).map fun f => "  " ++ padEnd 18 f.1 ++ f.2 ++ "\n") ++
      String.join (sources'.map (sourceText s)), ?_⟩
  unfold text
  rw [hall, List.map_append, List.map_cons, String.join_append, String.join_cons, sourceText]
  simp only [String.append_assoc]

/-- `linkText` is `"not polled"` if and only if nothing has landed, an error or a code if and only
if the last result has that error, or that code and no error. There is no fourth case. -/
theorem link_tells_last (es : List Monitor.Event) (k : Source) (v : Verdict) :
    let s := (Monitor.fresh.run es).snapshot
    let link := linkText s k
    let last := Monitor.lastLanded k es
    (∃ before after,
      text s v = before ++ ("\n[" ++ k.title ++ "] " ++ link ++ "\n") ++ after) ∧
    (link = "not polled" ↔ Monitor.landings k es = []) ∧
    (∀ e, link = "error: " ++ e ↔ ∃ r, last = some r ∧ r.error = some e) ∧
    (∀ c, link = "HTTP " ++ ofNat c ↔ ∃ payload, last = some (.received c payload none)) ∧
    (link = "not polled" ∨ (∃ e, link = "error: " ++ e) ∨ ∃ c, link = "HTTP " ++ ofNat c) := by
  intro s link last
  have hreached : Reached last link := reached_linkText es k
  refine ⟨exists_text_eq s v k, ?_, hreached.eq_error_iff, hreached.eq_code_iff, hreached.eq_text⟩
  rw [hreached.eq_unpolled_iff, Monitor.lastLanded_eq_none_iff]

-- The slot still keeps the code, but the fetch that failed since then is what is shown.
example :
    let s := (Monitor.fresh.run [.land .risk (.answer 200 none) ⟨0⟩,
      .land .risk (.unreachable "request timed out") ⟨1⟩]).snapshot
    s.risk.lastHttpCode = some 200 ∧ linkText s .risk = "error: request timed out" := by
  decide

end Report

end Interlock
