import Interlock.Proofs.Safety.Attempt
import Interlock.Proofs.Text.Strip

/-!
# What becomes of a request that was sent

`Dispatch.send` posts the kill endpoint, and the lock endpoint behind it after a 404. Nothing else
is posted and nothing is posted again. The last of the `replies` alone decides the outcome.

* `posts_send` and `lock_mem_posts_iff`: what is posted.
* `Settles`: the outcome for each case of a `Posted`, with its wording.
* `settles_iff`: these rules give every `Posted` one outcome, `ofPosted`.
* `last_reply_decides`: the outcome of `send` is that of the last reply.
-/

namespace Interlock

open Text

/-! ## Replies -/

/-- The code of a reply is 2xx. -/
def Reply.Accepts (r : Reply) : Prop := 200 ≤ r.status ∧ r.status < 300

/-- The body of a reply is blank or a JSON document. -/
def Reply.Readable (r : Reply) : Prop :=
  (∀ c ∈ r.body.toList, isBlank c = true) ∨ ∃ j, r.json = some j

/-- `isSuccess` decides `Accepts`. -/
theorem Reply.isSuccess_iff (r : Reply) : r.isSuccess = true ↔ r.Accepts := by
  unfold isSuccess isSuccessCode Accepts
  rw [Bool.and_eq_true, decide_eq_true_eq, decide_eq_true_eq]

/-- The test of the body in `ofReply` decides `Readable`. -/
theorem Reply.unreadable_iff (r : Reply) :
    (trim r.body != "" && r.json.isNone) = true ↔ ¬ r.Readable := by
  unfold Readable
  rw [Bool.and_eq_true, bne_iff_ne, Ne, trim_eq_empty_iff, not_or, Option.isNone_iff_eq_none,
    Option.eq_none_iff_forall_ne_some, not_exists]

/-! ## The outcome of one request -/

/-- The outcome of a request by what became of it. -/
inductive Settles : Posted → Outcome → Prop
  | success (r : Reply) (hcode : r.Accepts) (hbody : r.Readable) :
    Settles (.answered r) ⟨.success, some r.status, "OK (" ++ ofNat r.status ++ ")"⟩
  /-- A code of success with a body that says nothing that can be read. -/
  | unreadable (r : Reply) (hcode : r.Accepts) (hbody : ¬ r.Readable) :
    Settles (.answered r) ⟨.error, some r.status,
      "ERROR: " ++ ("unparsable response body (HTTP " ++ ofNat r.status ++ ")")⟩
  /-- Every other code, a missing endpoint included. -/
  | rejected (r : Reply) (hcode : ¬ r.Accepts) :
    Settles (.answered r) ⟨.failed, some r.status, "FAIL (" ++ ofNat r.status ++ "): " ++
      Outcome.truncate Outcome.detailLimit (Outcome.serverText r)⟩
  | unreachable (reason : String) :
    Settles (.failed reason) ⟨.error, none, "ERROR: " ++ reason⟩

theorem settles_ofPosted (p : Posted) : Settles p (.ofPosted p) := by
  cases p with
  | failed reason => exact .unreachable reason
  | answered r =>
    show Settles _ (Outcome.ofReply r)
    unfold Outcome.ofReply
    split
    case isTrue hsuccess =>
      have hcode : r.Accepts := r.isSuccess_iff.mp hsuccess
      -- a success still needs a body that can be read
      split
      case isTrue hbody => exact .unreadable r hcode (r.unreadable_iff.mp hbody)
      case isFalse hbody =>
        exact .success r hcode (not_not.mp fun h => hbody (r.unreadable_iff.mpr h))
    case isFalse hsuccess => exact .rejected r fun h => hsuccess (r.isSuccess_iff.mpr h)

theorem Settles.unique {p : Posted} {o o' : Outcome} (h : Settles p o) (h' : Settles p o') :
    o = o' := by
  cases h <;> cases h' <;> first | rfl | contradiction

/-- `Settles p` holds of `ofPosted p` and of nothing else. -/
theorem settles_iff (p : Posted) (o : Outcome) : Settles p o ↔ o = .ofPosted p := by
  constructor
  · intro h
    exact h.unique (settles_ofPosted p)
  · rintro rfl
    exact settles_ofPosted p

namespace Settles

variable {p : Posted} {o : Outcome}

/-- `.success` is a reply with `Accepts` and `Readable`. -/
theorem status_eq_success_iff (h : Settles p o) :
    o.status = .success ↔ ∃ r, p = .answered r ∧ r.Accepts ∧ r.Readable := by
  cases h with
  | success r hcode hbody => simp [hcode, hbody]
  | unreadable r hcode hbody => simp [hbody]
  | rejected r hcode => simp [hcode]
  | unreachable reason => simp

/-- `.error` is no reply, or one with `Accepts` and not `Readable`. -/
theorem status_eq_error_iff (h : Settles p o) :
    o.status = .error ↔ (∃ reason, p = .failed reason) ∨
      ∃ r, p = .answered r ∧ r.Accepts ∧ ¬ r.Readable := by
  cases h with
  | success r hcode hbody => simp [hbody]
  | unreadable r hcode hbody => simp [hcode, hbody]
  | rejected r hcode => simp [hcode]
  | unreachable reason => simp

/-- `.failed` is a reply without `Accepts`. -/
theorem status_eq_failed_iff (h : Settles p o) :
    o.status = .failed ↔ ∃ r, p = .answered r ∧ ¬ r.Accepts := by
  cases h with
  | success r hcode hbody => simp [hcode]
  | unreadable r hcode hbody => simp [hcode]
  | rejected r hcode => simp [hcode]
  | unreachable reason => simp

/-- `httpCode` is the code of the reply, if there was one. -/
theorem httpCode_eq_some_iff (h : Settles p o) (c : Nat) :
    o.httpCode = some c ↔ ∃ r, p = .answered r ∧ r.status = c := by
  cases h <;> simp

end Settles

/-! ## The requests that are made -/

namespace Dispatch

/-- What becomes of the posts of `send`, in their order. -/
def replies (kill lock : Posted) : List Posted :=
  (send kill lock).2.map fun
    | .kill => kill
    | .lock => lock

/-- `send` posts `[.kill]` or `[.kill, .lock]`. -/
theorem posts_send (kill lock : Posted) :
    (send kill lock).2 = [.kill] ∨ (send kill lock).2 = [.kill, .lock] := by
  unfold send
  split
  · exact .inr rfl
  · exact .inl rfl

/-- The lock endpoint is posted if and only if the kill endpoint answers 404. -/
theorem lock_mem_posts_iff (kill lock : Posted) :
    .lock ∈ (send kill lock).2 ↔ ∃ r, kill = .answered r ∧ r.status = 404 := by
  by_cases hmissing : ∃ r, kill = .answered r ∧ r.status = 404
  · refine iff_of_true ?_ hmissing
    obtain ⟨r, rfl, hstatus⟩ := hmissing
    rw [send_of_missing lock hstatus]
    show ActionEndpoint.lock ∈ [ActionEndpoint.kill, .lock]
    decide
  · refine iff_of_false ?_ hmissing
    rw [send_of_found lock fun r hkill hstatus => hmissing ⟨r, hkill, hstatus⟩]
    show ActionEndpoint.lock ∉ [ActionEndpoint.kill]
    decide

theorem send_eq_ofPosted (kill lock : Posted) :
    ∃ last, (replies kill lock).getLast? = some last ∧ (send kill lock).1 = .ofPosted last := by
  unfold replies send
  split
  · exact ⟨lock, rfl, rfl⟩
  · exact ⟨kill, rfl, rfl⟩

/-- `send` posts `[.kill]`, or `[.kill, .lock]` if and only if the kill endpoint answers 404. The
last of the `replies` alone decides the outcome, by `Settles`. -/
theorem last_reply_decides (kill lock : Posted) :
    let o := (send kill lock).1
    let posts := (send kill lock).2
    (posts = [.kill] ∨ posts = [.kill, .lock]) ∧
    (posts = [.kill, .lock] ↔ ∃ r, kill = .answered r ∧ r.status = 404) ∧
    ∃ last, (replies kill lock).getLast? = some last ∧ Settles last o ∧
      (∀ kill' lock', (replies kill' lock').getLast? = some last → (send kill' lock').1 = o) ∧
      (o.status = .success ↔ ∃ r, last = .answered r ∧ r.Accepts ∧ r.Readable) ∧
      (o.status = .error ↔ (∃ reason, last = .failed reason) ∨
        ∃ r, last = .answered r ∧ r.Accepts ∧ ¬ r.Readable) ∧
      (o.status = .failed ↔ ∃ r, last = .answered r ∧ ¬ r.Accepts) ∧
      (∀ c, o.httpCode = some c ↔ ∃ r, last = .answered r ∧ r.status = c) ∧
      o.status ≠ .pending ∧ o.status ≠ .blocked ∧
      (o.status = .success → (∃ r, kill = .answered r ∧ r.status = 404) → last = lock) := by
  intro o posts
  obtain ⟨last, hlast, ho⟩ := send_eq_ofPosted kill lock
  have hsettles : Settles last o := (settles_iff last o).mpr ho
  have hposts : posts = [.kill] ∨ posts = [.kill, .lock] := posts_send kill lock
  have hfalls : posts = [.kill, .lock] ↔ ∃ r, kill = .answered r ∧ r.status = 404 := by
    rw [← lock_mem_posts_iff kill lock]
    show posts = [.kill, .lock] ↔ .lock ∈ posts
    rcases hposts with hposts | hposts <;> rw [hposts] <;> decide
  have hanswer : o.IsAnswer := isAnswer_send kill lock
  refine ⟨hposts, hfalls, last, hlast, hsettles, ?_, hsettles.status_eq_success_iff,
    hsettles.status_eq_error_iff, hsettles.status_eq_failed_iff, hsettles.httpCode_eq_some_iff,
    ?_, ?_, ?_⟩
  · intro kill' lock' hsame
    obtain ⟨last', hlast', ho'⟩ := send_eq_ofPosted kill' lock'
    obtain rfl := Option.some.inj (hsame.symm.trans hlast')
    exact ho'.trans ho.symm
  · rcases hanswer with h | h | h <;> rw [h] <;> decide
  · rcases hanswer with h | h | h <;> rw [h] <;> decide
  · rintro - ⟨r, rfl, hstatus⟩
    have hreplies : replies (.answered r) lock = [.answered r, lock] := by
      unfold replies
      rw [send_of_missing lock hstatus]
      rfl
    rw [hreplies] at hlast
    exact (Option.some.inj hlast).symm

end Dispatch

end Interlock
