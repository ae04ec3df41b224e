import Interlock.Proofs.Safety.Dialog
import Interlock.Proofs.Session.Flight

/-!
# The refresh that follows an attempt

A dispatcher may hold a handle by which it asks for a refresh of the executor. Its `Call`s come in
any order, with any gates, replies and outcomes, while the dialog is opened, cancelled and
dismissed, and the receiving end may hang up at any moment.

* `adds_step` and `adds_run`: the queue grows by `due` of each call: one for a refused confirmation
  and one for a recorded outcome.
* `due_of_orderly`: if each sent request is recorded once, `due` is one exactly where an attempt
  `ends`.
* `trace_filter`: the `trace` of the calls does not depend on the handle.
* `session_step`: the dispatcher of a session is such a `Dispatcher`.
-/

namespace Interlock

/-! ## Handles and dispatchers -/

/-- The queue behind a handle. -/
structure RefreshQueue where
  /-- Whether the receiving end is still there. -/
  live : Bool
  /-- Everything that was put in the queue, in order. -/
  sent : List RefreshRequest

/-- Puts a request in the queue: whether it was accepted, and the queue. -/
def RefreshQueue.send (r : RefreshRequest) (q : RefreshQueue) : Bool × RefreshQueue :=
  if q.live then (true, { q with sent := q.sent ++ [r] }) else (false, q)

/-- A dispatcher, with the dialog that it acts on and the requests that it issued. -/
structure Dispatcher where
  dialog : Dialog
  /-- The queue that the dispatcher has a handle of, if it has one. -/
  handle : Option RefreshQueue
  /-- The requests that were issued, by number. -/
  requests : List KillRequest

namespace Dispatcher

/-- A dispatcher at its start, with a handle that is listened to. -/
def fresh : Dispatcher := ⟨.fresh, some ⟨true, []⟩, []⟩

/-- Whether there is a handle that is listened to. -/
def hears (d : Dispatcher) : Bool := d.handle.any (·.live)

/-- Everything that was put in the queue. -/
def queue (d : Dispatcher) : List RefreshRequest := d.handle.elim [] (·.sent)

/-- Asks for refreshes by the handle, if there is one. Whether they are accepted is not looked at.
-/
def ask (rs : List RefreshRequest) (d : Dispatcher) : Dispatcher :=
  { d with handle := d.handle.map fun q => rs.foldl (fun q r => (q.send r).2) q }

/-- `complete` on the dialog, followed by the refreshes. -/
def record (outcome : Outcome) (d : Dispatcher) : Bool × Dispatcher :=
  let (recorded, dialog, asked) := Dispatch.finish outcome d.dialog
  (recorded, ask asked { d with dialog := dialog })

/-- Says what has become of the request `id`. -/
def setRequest (d : Dispatcher) (id : Nat) (r : KillRequest) : Dispatcher :=
  { d with requests := d.requests.set id r }

/-- What can happen to a dispatcher. -/
inductive Call
  | reopen
  | cancel
  | dismiss
  /-- A confirmation is resolved. -/
  | begin (locked : Bool)
  /-- The issued request with the given number is sent. -/
  | post (id : Nat) (kill lock : Posted)
  /-- The outcome of the sent request with the given number is recorded. -/
  | deliver (id : Nat)
  /-- An outcome is recorded, wherever it comes from. -/
  | finish (outcome : Outcome)
  /-- A confirmation is resolved and carried through. -/
  | confirm (locked : Bool) (kill lock : Posted)
  /-- The receiving end of the handle goes away. -/
  | hangUp
  deriving DecidableEq

/-- What a call answers. -/
inductive Answer
  | nothing
  | done (value : Bool)
  | confirmation (c : Confirmation)
  | recorded (value : Bool)
  | outcome (o : Option Outcome)
  deriving DecidableEq

/-- What is seen of a call: its answer and the endpoints that it posts. -/
structure Effect where
  answer : Answer
  posts : List ActionEndpoint
  deriving DecidableEq

/-- One call. -/
def step (d : Dispatcher) : Call → Effect × Dispatcher
  | .reopen => (⟨.done d.dialog.reopen.1, []⟩, { d with dialog := d.dialog.reopen.2 })
  | .cancel => (⟨.done d.dialog.cancel.1, []⟩, { d with dialog := d.dialog.cancel.2 })
  | .dismiss => (⟨.done d.dialog.dismiss.1, []⟩, { d with dialog := d.dialog.dismiss.2 })
  | .begin locked =>
    let (c, dialog, asked) := Dispatch.begin locked d.dialog
    (⟨.confirmation c, []⟩,
      ask asked { d with
        dialog := dialog
        requests := if c = .send then d.requests ++ [.issued] else d.requests })
  | .post id kill lock =>
    match d.requests[id]? with
    | some .issued =>
      let (outcome, posts) := Dispatch.send kill lock
      (⟨.outcome (some outcome), posts⟩, d.setRequest id (.sent outcome))
    | _ => (⟨.nothing, []⟩, d)
  | .deliver id =>
    match d.requests[id]? with
    | some (.sent outcome) =>
      let (recorded, d) := d.record outcome
      (⟨.recorded recorded, []⟩, d.setRequest id .finished)
    | _ => (⟨.nothing, []⟩, d)
  | .finish outcome =>
    let (recorded, d) := d.record outcome
    (⟨.recorded recorded, []⟩, d)
  | .confirm locked kill lock =>
    let a := Dispatch.confirm locked kill lock d.dialog
    (⟨.outcome a.outcome, a.posts⟩, ask a.refreshes { d with dialog := a.dialog })
  | .hangUp => (⟨.nothing, []⟩, { d with handle := d.handle.map ({ · with live := false }) })

/-- A sequence of calls. -/
def run (d : Dispatcher) : List Call → Dispatcher
  | [] => d
  | c :: calls => (d.step c).2.run calls

/-- The effects of a sequence of calls, each with the dialog that it leaves. `hangUp` is no call of
the dispatcher. -/
def trace (d : Dispatcher) : List Call → List (Effect × Dialog)
  | [] => []
  | .hangUp :: calls => (d.step .hangUp).2.trace calls
  | c :: calls => ((d.step c).1, (d.step c).2.dialog) :: (d.step c).2.trace calls

/-- The sum of `f` over the calls of a sequence. -/
def total (f : Dispatcher → Call → Nat) (d : Dispatcher) : List Call → Nat
  | [] => 0
  | c :: calls => f d c + total f (d.step c).2 calls

/-- `post` sends a request that is `.issued`, and does nothing otherwise. -/
theorem step_post (d : Dispatcher) (id : Nat) (kill lock : Posted) :
    d.requests[id]? = some .issued ∧
      d.step (.post id kill lock) =
        (⟨.outcome (some (Dispatch.send kill lock).1), (Dispatch.send kill lock).2⟩,
          d.setRequest id (.sent (Dispatch.send kill lock).1)) ∨
    d.requests[id]? ≠ some .issued ∧ d.step (.post id kill lock) = (⟨.nothing, []⟩, d) := by
  by_cases hissued : d.requests[id]? = some .issued
  · exact .inl ⟨hissued, by simp only [step, hissued]⟩
  · exact .inr ⟨hissued, by simp only [step]⟩

/-- `deliver` records the outcome of a request that is `.sent`, and does nothing otherwise. -/
theorem step_deliver (d : Dispatcher) (id : Nat) :
    (∃ o, d.requests[id]? = some (.sent o) ∧
      d.step (.deliver id) =
        (⟨.recorded (d.record o).1, []⟩, (d.record o).2.setRequest id .finished)) ∨
    (∀ o, d.requests[id]? ≠ some (.sent o)) ∧ d.step (.deliver id) = (⟨.nothing, []⟩, d) := by
  by_cases hsent : ∃ o, d.requests[id]? = some (.sent o)
  · obtain ⟨o, ho⟩ := hsent
    exact .inl ⟨o, ho, by simp only [step, ho]⟩
  · have hnone := not_exists.1 hsent
    exact .inr ⟨hnone, by simp only [step]⟩

/-! ## The queue -/

/-- A queue takes every request while it is `live`, and none afterwards. -/
theorem foldl_send (rs : List RefreshRequest) (q : RefreshQueue) :
    rs.foldl (fun q r => (q.send r).2) q =
      { q with sent := q.sent ++ if q.live then rs else [] } := by
  obtain ⟨live, sent⟩ := q
  induction rs generalizing sent with
  | nil => simp
  | cons r rs ih =>
    rw [List.foldl_cons]
    cases live with
    | true => simpa [RefreshQueue.send] using ih (sent ++ [r])
    | false => simpa [RefreshQueue.send] using ih sent

/-- The queue of `d'` is that of `d` with `rs` behind it, if somebody listens, and nobody hangs up.
-/
structure Adds (rs : List RefreshRequest) (d d' : Dispatcher) : Prop where
  queue : d'.queue = d.queue ++ if d.hears then rs else []
  hears : d'.hears = d.hears

theorem Adds.quiet {d d' : Dispatcher} (h : d'.handle = d.handle) : Adds [] d d' where
  queue := by simp [Dispatcher.queue, h]
  hears := by simp [Dispatcher.hears, h]

/-- `ask rs` adds `rs`. -/
theorem Adds.asked {d d' : Dispatcher} (rs : List RefreshRequest) (h : d'.handle = d.handle) :
    Adds rs d (ask rs d') := by
  obtain ⟨dialog, handle, requests⟩ := d
  obtain ⟨dialog', handle', requests'⟩ := d'
  obtain rfl : handle' = handle := h
  cases handle' with
  | none => exact ⟨rfl, rfl⟩
  | some q =>
    unfold ask
    rw [Option.map_some, foldl_send]
    exact ⟨rfl, rfl⟩

/-- While `hears`, the queue grows by `rs`. -/
theorem Adds.queue_of_hears {d d' : Dispatcher} {rs : List RefreshRequest} (h : Adds rs d d')
    (hhears : d.hears = true) : d'.queue = d.queue ++ rs := by
  rw [h.queue, if_pos hhears]

theorem hears_hangUp (d : Dispatcher) : (d.step .hangUp).2.hears = false := by
  obtain ⟨dialog, handle, requests⟩ := d
  cases handle <;> rfl

theorem queue_hangUp (d : Dispatcher) : (d.step .hangUp).2.queue = d.queue := by
  obtain ⟨dialog, handle, requests⟩ := d
  cases handle <;> rfl

theorem Adds.setRequest {d d' : Dispatcher} {rs : List RefreshRequest} (h : Adds rs d d')
    (id : Nat) (r : KillRequest) : Adds rs d (d'.setRequest id r) := ⟨h.queue, h.hears⟩

/-- `record` adds the refreshes, whether or not the dialog takes the outcome. -/
theorem adds_record (d : Dispatcher) (o : Outcome) : Adds Dispatch.refreshes d (d.record o).2 :=
  .asked _ rfl

/-- One refresh if the gate refused the confirmation, none otherwise. -/
def dueOf : Confirmation → Nat
  | .blocked _ => 1
  | .send => 0
  | .ignored => 0

/-- The refreshes that a call calls for. A `confirm` through an open gate calls for that of its
outcome. -/
def due (d : Dispatcher) : Call → Nat
  | .begin locked => dueOf (Dispatch.begin locked d.dialog).1
  | .deliver id =>
    match d.requests[id]? with
    | some (.sent _) => 1
    | _ => 0
  | .finish _ => 1
  | .confirm locked _ _ =>
    let c := (Dispatch.begin locked d.dialog).1
    dueOf c + if c = .send then 1 else 0
  | _ => 0

theorem due_deliver_of_sent {d : Dispatcher} {id : Nat} {o : Outcome}
    (h : d.requests[id]? = some (.sent o)) : d.due (.deliver id) = 1 := by
  simp only [due, h]

theorem due_deliver_of_ne {d : Dispatcher} {id : Nat} (h : ∀ o, d.requests[id]? ≠ some (.sent o)) :
    d.due (.deliver id) = 0 := by
  simp only [due]

/-- `Dispatch.begin` asks for `dueOf` refreshes. -/
theorem refreshes_begin (locked : Bool) (d : Dialog) :
    (Dispatch.begin locked d).2.2 =
      List.replicate (dueOf (Dispatch.begin locked d).1) (.source .executor) := by
  unfold Dispatch.begin
  split <;> rfl

/-- `Dispatch.confirm` asks for `due` refreshes. -/
theorem refreshes_confirm (d : Dispatcher) (locked : Bool) (kill lock : Posted) :
    (Dispatch.confirm locked kill lock d.dialog).refreshes =
      List.replicate (d.due (.confirm locked kill lock)) (.source .executor) := by
  simp only [due]
  cases d.dialog.resolved locked with
  | ignored _ phase =>
    rw [Dispatch.confirm_of_ne locked kill lock phase, Dispatch.begin_of_ne locked phase]
    rfl
  | blocked phase =>
    rw [Dispatch.confirm_of_locked kill lock phase, Dispatch.begin_of_locked phase]
    rfl
  | sent phase =>
    rw [Dispatch.confirm_of_unlocked kill lock phase, Dispatch.begin_of_unlocked phase]
    rfl

/-- A call but `hangUp` adds `due` refreshes of the executor. -/
theorem adds_step (d : Dispatcher) {c : Call} (hc : c ≠ .hangUp) :
    Adds (List.replicate (d.due c) (.source .executor)) d (d.step c).2 := by
  cases c with
  | reopen => exact .quiet rfl
  | cancel => exact .quiet rfl
  | dismiss => exact .quiet rfl
  | begin locked =>
    have hasked := refreshes_begin locked d.dialog
    simp only [due]
    rw [← hasked]
    exact .asked _ rfl
  | post id kill lock =>
    rcases d.step_post id kill lock with ⟨-, hstep⟩ | ⟨-, hstep⟩
    · rw [hstep]
      exact .quiet rfl
    · rw [hstep]
      exact .quiet rfl
  | deliver id =>
    rcases d.step_deliver id with ⟨o, ho, hstep⟩ | ⟨hnone, hstep⟩
    · rw [hstep, due_deliver_of_sent ho]
      exact (d.adds_record o).setRequest id .finished
    · rw [hstep, due_deliver_of_ne hnone]
      exact .quiet rfl
  | finish outcome => exact d.adds_record outcome
  | confirm locked kill lock =>
    rw [← refreshes_confirm]
    exact .asked _ rfl
  | hangUp => exact absurd rfl hc

/-- A sequence of calls without `hangUp` adds `total due` refreshes of the executor. -/
theorem adds_run (d : Dispatcher) {calls : List Call} (hcalls : ∀ c ∈ calls, c ≠ .hangUp) :
    Adds (List.replicate (d.total due calls) (.source .executor)) d (d.run calls) := by
  induction calls generalizing d with
  | nil => exact .quiet rfl
  | cons c calls ih =>
    obtain ⟨hc, hcalls⟩ := List.forall_mem_cons.1 hcalls
    have hstep := d.adds_step hc
    have hrun := ih (d.step c).2 hcalls
    refine ⟨?_, hrun.hears.trans hstep.hears⟩
    show ((d.step c).2.run calls).queue = _
    rw [hrun.queue, hstep.queue, hstep.hears, total, ← List.replicate_append_replicate]
    split <;> simp

/-! ## What the handle decides -/

/-- Two dispatchers that may differ in their `handle`. -/
structure Alike (d d' : Dispatcher) : Prop where
  dialog : d.dialog = d'.dialog
  requests : d.requests = d'.requests

/-- `step` has the same effect on dispatchers that are `Alike`, and keeps them so. -/
theorem Alike.step {d d' : Dispatcher} (h : Alike d d') (c : Call) :
    (d.step c).1 = (d'.step c).1 ∧ Alike (d.step c).2 (d'.step c).2 := by
  obtain ⟨dialog, handle, requests⟩ := d
  obtain ⟨dialog', handle', requests'⟩ := d'
  obtain ⟨rfl, rfl⟩ := h
  cases c with
  | post id | deliver id =>
    simp only [Dispatcher.step]
    split <;> exact ⟨rfl, rfl, rfl⟩
  | _ => exact ⟨rfl, rfl, rfl⟩

theorem alike_hangUp (d : Dispatcher) : Alike (d.step .hangUp).2 d := ⟨rfl, rfl⟩

theorem trace_cons {c : Call} (hc : c ≠ .hangUp) (d : Dispatcher) (calls : List Call) :
    d.trace (c :: calls) =
      ((d.step c).1, (d.step c).2.dialog) :: (d.step c).2.trace calls := by
  cases c with
  | hangUp => exact absurd rfl hc
  | _ => rfl

/-- `trace` is the same for dispatchers that are `Alike`, with or without `hangUp`. -/
theorem trace_filter {d d' : Dispatcher} (h : Alike d d') (calls : List Call) :
    d.trace calls = d'.trace (calls.filter (· ≠ .hangUp)) := by
  induction calls generalizing d d' with
  | nil => rfl
  | cons c calls ih =>
    by_cases hc : c = .hangUp
    · subst hc
      rw [List.filter_cons_of_neg (by simp)]
      have hgone := d.alike_hangUp
      exact ih ⟨hgone.dialog.trans h.dialog, hgone.requests.trans h.requests⟩
    · obtain ⟨heffect, halike⟩ := h.step c
      rw [List.filter_cons_of_pos (by simpa using hc), trace_cons hc, trace_cons hc, heffect,
        halike.dialog, ih halike]

/-! ## The dispatcher of a session -/

/-- A session with the dialog and the requests of the dispatcher. -/
def session (d : Dispatcher) (s : Session) : Session :=
  { s with
    console := { s.console with dialog := d.dialog }
    requests := d.requests
    listening := d.hears }

/-- The event of a session that is a call of its dispatcher. -/
inductive Carries (s : Session) : Session.Event → Call → Prop
  | begin : Carries s .begin (.begin s.gateLocked)
  | post (id : Nat) (kill lock : Posted) : Carries s (.post id kill lock) (.post id kill lock)
  | deliver (id : Nat) : Carries s (.deliver id) (.deliver id)
  | finish (outcome : Outcome) : Carries s (.finish outcome) (.finish outcome)
  | confirm (kill lock : Posted) : Carries s (.confirm kill lock) (.confirm s.gateLocked kill lock)
  | dropRequests : Carries s .dropRequests .hangUp

/-- A session and its dispatcher do the same: `session` commutes with `step`, with the same posts
and the same refreshes. -/
theorem session_step (d : Dispatcher) (s : Session) (now : Instant) {e : Session.Event} {c : Call}
    (h : Carries s e c) :
    ((d.session s).step now e).2 = (d.step c).2.session s ∧
    ((d.session s).step now e).1.posts = (d.step c).1.posts ∧
    (d.step c).2.queue = d.queue ++ ((d.session s).step now e).1.refreshes := by
  cases h with
  | begin =>
    have hadds : Adds _ d (d.step (.begin s.gateLocked)).2 := .asked _ rfl
    refine ⟨?_, rfl, hadds.queue⟩
    simp only [session, hadds.hears]
    rfl
  | post id kill lock =>
    rcases d.step_post id kill lock with ⟨hissued, hstep⟩ | ⟨hissued, hstep⟩
    · have hs : (d.session s).requests[id]? = some .issued := hissued
      rw [hstep]
      simp only [Session.step, hs, true_and]
      exact ⟨rfl, (List.append_nil _).symm⟩
    · have hs : (d.session s).requests[id]? ≠ some .issued := hissued
      rw [hstep]
      simp only [Session.step, true_and]
      exact ⟨rfl, (List.append_nil _).symm⟩
  | deliver id =>
    rcases d.step_deliver id with ⟨o, ho, hstep⟩ | ⟨hnone, hstep⟩
    · have hs : (d.session s).requests[id]? = some (.sent o) := ho
      have hadds := (d.adds_record o).setRequest id .finished
      rw [hstep]
      simp only [Session.step, hs, true_and]
      refine ⟨?_, hadds.queue⟩
      simp only [session, hadds.hears]
      rfl
    · have hs : ∀ o, (d.session s).requests[id]? ≠ some (.sent o) := hnone
      rw [hstep]
      simp only [Session.step, true_and]
      exact ⟨rfl, (List.append_nil _).symm⟩
  | finish outcome =>
    have hadds : Adds _ d (d.step (.finish outcome)).2 := d.adds_record outcome
    refine ⟨?_, rfl, hadds.queue⟩
    simp only [session, hadds.hears]
    rfl
  | confirm kill lock =>
    have hadds : Adds _ d (d.step (.confirm s.gateLocked kill lock)).2 := .asked _ rfl
    refine ⟨?_, rfl, hadds.queue⟩
    simp only [session, hadds.hears]
    rfl
  | dropRequests =>
    refine ⟨?_, rfl, ?_⟩
    · simp only [session, hears_hangUp]
      rfl
    · rw [queue_hangUp]
      exact (List.append_nil _).symm

/-! ## Orderly calls -/

/-- The calls but `finish`, which records an outcome of its own, and `hangUp`. -/
def Call.orderly : Call → Bool
  | .finish _ | .hangUp => false
  | _ => true

/-- Whether an attempt ends from one dialog to the next. -/
def ended (d d' : Dialog) : Bool := !d.phase.isTerminal && d'.phase.isTerminal

/-- Whether an attempt ends in a call. -/
def ends (d : Dispatcher) (c : Call) : Bool := ended d.dialog (d.step c).2.dialog

theorem ended_eq_false {d d' : Dialog}
    (h : d'.phase.isTerminal = true → d.phase.isTerminal = true) : ended d d' = false := by
  unfold ended
  cases hbefore : d.phase.isTerminal with
  | true => rfl
  | false =>
    rw [hbefore] at h
    exact Bool.eq_false_iff.2 fun hafter => Bool.false_ne_true (h hafter)

theorem ended_self (d : Dialog) : ended d d = false := ended_eq_false id

/-- A call that `shows` ends no attempt. -/
theorem ended_of_shows (d : Dialog) {c : Dialog.Call} (hc : c.shows = true) :
    ended d (d.call c).2 = false :=
  ended_eq_false ((Dialog.move_call d c).of_shows hc).2

/-- `dueOf` is one if and only if `Dispatch.begin` ends the attempt. -/
theorem dueOf_begin (locked : Bool) (d : Dialog) :
    dueOf (Dispatch.begin locked d).1 = (ended d (Dispatch.begin locked d).2.1).toNat := by
  cases d.resolved locked with
  | ignored _ phase =>
    rw [Dispatch.begin_of_ne locked phase, ended_self]
    rfl
  | blocked phase =>
    rw [Dispatch.begin_of_locked phase, ended, phase]
    rfl
  | sent phase =>
    rw [Dispatch.begin_of_unlocked phase, ended, phase]
    rfl

theorem ended_complete {d : Dialog} {o : Outcome} (hphase : d.phase = .sending)
    (ho : o.IsAnswer) : ended d (d.complete o).2 = true := by
  rw [Dialog.complete_of_sending hphase ho, ended, hphase]
  rcases ho with ho | ho | ho <;> rw [ho] <;> rfl

/-- `due` of `confirm` is one if and only if the attempt ends. -/
theorem due_confirm (d : Dispatcher) (locked : Bool) (kill lock : Posted) :
    d.due (.confirm locked kill lock) =
      (ended d.dialog (Dispatch.confirm locked kill lock d.dialog).dialog).toNat := by
  simp only [due]
  cases d.dialog.resolved locked with
  | ignored _ phase =>
    rw [Dispatch.begin_of_ne locked phase, Dispatch.confirm_of_ne locked kill lock phase,
      ended_self]
    rfl
  | blocked phase =>
    rw [Dispatch.begin_of_locked phase, Dispatch.confirm_of_locked kill lock phase, ended, phase]
    rfl
  | sent phase =>
    -- whatever is answered, the attempt ends with it
    rw [Dispatch.begin_of_unlocked phase, Dispatch.confirm_of_unlocked kill lock phase, ended,
      phase]
    rcases Dispatch.isAnswer_send kill lock with ho | ho | ho <;> rw [ho] <;> rfl

/-- Dialog and requests are `Paired`, and the outcomes that wait are answers. -/
structure Orderly (d : Dispatcher) : Prop where
  paired : (d.session .fresh).Paired
  answers : ∀ o : Outcome, .sent o ∈ d.requests → o.IsAnswer

/-- In `.confirming`, all requests are `.finished`. -/
theorem Orderly.finished_of_asking {d : Dispatcher} (h : Orderly d)
    (hphase : d.dialog.phase = .confirming) : ∀ r ∈ d.requests, r = .finished := by
  cases h.paired with
  | rest phase requests => exact requests
  | flight old r phase =>
    have hsending : d.dialog.phase = .sending := phase
    rw [hphase] at hsending
    cases hsending

theorem orderly_fresh : Orderly fresh where
  paired := .rest (by decide) nofun
  answers := nofun

theorem Orderly.of_rest {d : Dispatcher} (phase : d.dialog.phase ≠ .sending)
    (requests : ∀ r ∈ d.requests, r = .finished) : Orderly d where
  paired := .rest phase requests
  answers o ho := by cases requests _ ho

theorem Orderly.congr {d d' : Dispatcher} (h : Orderly d) (halike : Alike d' d) : Orderly d' where
  paired := by
    refine h.paired.congr ?_ halike.requests
    show d'.dialog.phase = d.dialog.phase
    rw [halike.dialog]
  answers := by
    rw [halike.requests]
    exact h.answers

theorem Orderly.answers_set {d : Dispatcher} (h : Orderly d) (id : Nat) {r : KillRequest}
    (hr : ∀ o, r = .sent o → o.IsAnswer) (o : Outcome) (ho : .sent o ∈ d.requests.set id r) :
    o.IsAnswer := by
  rcases List.mem_or_eq_of_mem_set ho with hold | hnew
  · exact h.answers o hold
  · exact hr o hnew.symm

/-- A call that `Carries` an orderly event keeps `Paired`. -/
theorem Orderly.carried {d : Dispatcher} (h : Orderly d) {e : Session.Event} {c : Call}
    (hcarries : Carries .fresh e c) (he : e.orderly = true) :
    ((d.step c).2.session .fresh).Paired := by
  rw [← (d.session_step .fresh ⟨0⟩ hcarries).1]
  exact Session.paired_step h.paired ⟨0⟩ he fun id o ho => h.answers o (List.mem_of_getElem? ho)

theorem Orderly.shown {d : Dispatcher} (h : Orderly d) {c : Dialog.Call} (hc : c.shows = true) :
    Orderly { d with dialog := (d.dialog.call c).2 } where
  paired := by
    obtain ⟨hsending, -⟩ := (Dialog.move_call d.dialog c).of_shows hc
    -- an open or a closed dialog sends if and only if it did before
    cases h.paired with
    | rest phase requests => exact .rest (fun hphase => phase (hsending.1 hphase)) requests
    | flight old r phase requests finished unfinished =>
      exact .flight old r (hsending.2 phase) requests finished unfinished
  answers := h.answers

theorem Orderly.issued {d : Dispatcher} (h : Orderly d) (hphase : d.dialog.phase = .confirming)
    {d' : Dispatcher} (phase : d'.dialog.phase = .sending)
    (requests : d'.requests = d.requests ++ [.issued]) : Orderly d' where
  paired := .flight d.requests .issued phase requests (h.finished_of_asking hphase) nofun
  answers o ho := by
    rw [requests] at ho
    rcases List.mem_append.1 ho with hmem | hmem
    · cases h.finished_of_asking hphase _ hmem
    · cases List.mem_singleton.1 hmem

/-- Orderly calls keep `Orderly`. -/
theorem Orderly.step {d : Dispatcher} (h : Orderly d) {c : Call} (hc : c.orderly = true) :
    Orderly (d.step c).2 := by
  cases c with
  | reopen => exact h.shown (c := .reopen) rfl
  | cancel => exact h.shown (c := .cancel) rfl
  | dismiss => exact h.shown (c := .dismiss) rfl
  | begin locked =>
    cases d.dialog.resolved locked with
    | ignored _ phase =>
      simp only [Dispatcher.step, Dispatch.begin_of_ne locked phase]
      exact h.congr ⟨rfl, rfl⟩
    | blocked phase =>
      simp only [Dispatcher.step, Dispatch.begin_of_locked phase]
      exact .of_rest nofun (h.finished_of_asking phase)
    | sent phase =>
      simp only [Dispatcher.step, Dispatch.begin_of_unlocked phase]
      exact h.issued phase rfl rfl
  | post id kill lock =>
    refine ⟨h.carried (.post id kill lock) rfl, ?_⟩
    rcases d.step_post id kill lock with ⟨-, hstep⟩ | ⟨-, hstep⟩
    · rw [hstep]
      apply h.answers_set
      rintro _ ⟨⟩
      exact Dispatch.isAnswer_send kill lock
    · rw [hstep]
      exact h.answers
  | deliver id =>
    refine ⟨h.carried (.deliver id) rfl, ?_⟩
    rcases d.step_deliver id with ⟨o, -, hstep⟩ | ⟨-, hstep⟩
    · rw [hstep]
      exact h.answers_set id nofun
    · rw [hstep]
      exact h.answers
  | confirm locked kill lock =>
    cases d.dialog.resolved locked with
    | ignored _ phase =>
      simp only [Dispatcher.step, Dispatch.confirm_of_ne locked kill lock phase]
      exact h.congr ⟨rfl, rfl⟩
    | blocked phase =>
      simp only [Dispatcher.step, Dispatch.confirm_of_locked kill lock phase]
      exact .of_rest nofun (h.finished_of_asking phase)
    | sent phase =>
      -- the request is answered before anything else can happen
      simp only [Dispatcher.step, Dispatch.confirm_of_unlocked kill lock phase]
      exact .of_rest (Dialog.ofStatus_ne_sending (Dispatch.isAnswer_send kill lock))
        (h.finished_of_asking phase)
  | finish | hangUp => cases hc

/-- In an orderly call, `due` is one if and only if it `ends` an attempt. -/
theorem due_of_orderly {d : Dispatcher} (h : Orderly d) {c : Call} (hc : c.orderly = true) :
    d.due c = (d.ends c).toNat := by
  unfold ends
  cases c with
  | reopen => exact (congrArg Bool.toNat (ended_of_shows d.dialog (c := .reopen) rfl)).symm
  | cancel => exact (congrArg Bool.toNat (ended_of_shows d.dialog (c := .cancel) rfl)).symm
  | dismiss => exact (congrArg Bool.toNat (ended_of_shows d.dialog (c := .dismiss) rfl)).symm
  | begin locked => exact dueOf_begin locked d.dialog
  | post id kill lock =>
    rcases d.step_post id kill lock with ⟨-, hstep⟩ | ⟨-, hstep⟩
    · rw [hstep]
      exact (congrArg Bool.toNat (ended_self d.dialog)).symm
    · rw [hstep, ended_self]
      rfl
  | deliver id =>
    rcases d.step_deliver id with ⟨o, ho, hstep⟩ | ⟨hnone, hstep⟩
    · -- the request was outstanding, so the dialog sends and takes the answer
      have hphase : d.dialog.phase = .sending := h.paired.sending_of_sent ho
      have hended := ended_complete hphase (h.answers o (List.mem_of_getElem? ho))
      rw [hstep, due_deliver_of_sent ho]
      exact (congrArg Bool.toNat hended).symm
    · rw [hstep, due_deliver_of_ne hnone, ended_self]
      rfl
  | confirm locked kill lock => exact due_confirm d locked kill lock
  | finish | hangUp => cases hc

/-- The run lemma of `due_of_orderly`. -/
theorem total_of_orderly {d : Dispatcher} (h : Orderly d) {calls : List Call}
    (hcalls : ∀ c ∈ calls, c.orderly = true) :
    d.total due calls = d.total (fun d c => (d.ends c).toNat) calls ∧ Orderly (d.run calls) := by
  induction calls generalizing d with
  | nil => exact ⟨rfl, h⟩
  | cons c calls ih =>
    obtain ⟨hc, hcalls⟩ := List.forall_mem_cons.1 hcalls
    obtain ⟨htotal, horderly⟩ := ih (h.step hc) hcalls
    refine ⟨?_, horderly⟩
    simp only [total]
    rw [due_of_orderly h hc, htotal]

theorem ne_hangUp_of_orderly {c : Call} (hc : c.orderly = true) : c ≠ .hangUp := by
  rintro rfl
  cases hc

/-! ## What the queue receives -/

/-- While `hears`, any calls put `due` refreshes of the executor in the queue, each its own. In
orderly calls this is one for each call that `ends` an attempt. The `trace` is the same without a
handle and with `hangUp`. -/
theorem refresh_per_ending (calls : List Call) :
    (∀ d : Dispatcher, d.hears = true → (∀ c ∈ calls, c ≠ .hangUp) →
      (d.run calls).queue = d.queue ++ List.replicate (d.total due calls) (.source .executor) ∧
      ∀ c, c ≠ .hangUp → ((d.run calls).step c).2.queue =
        (d.run calls).queue ++ List.replicate ((d.run calls).due c) (.source .executor)) ∧
    ((∀ c ∈ calls, c.orderly = true) →
      let d := fresh.run calls
      d.queue = List.replicate (fresh.total (fun d c => (d.ends c).toNat) calls)
        (.source .executor) ∧
      ∀ c, c.orderly = true →
        (d.step c).2.queue = d.queue ++ if d.ends c then [.source .executor] else []) ∧
    ∀ d d' : Dispatcher, Alike d d' →
      d.trace calls = d'.trace (calls.filter (· ≠ .hangUp)) := by
  refine ⟨?_, ?_, fun d d' h => trace_filter h calls⟩
  · intro d hhears hcalls
    have hrun := d.adds_run hcalls
    refine ⟨hrun.queue_of_hears hhears, fun c hc => ?_⟩
    exact ((d.run calls).adds_step hc).queue_of_hears (hrun.hears.trans hhears)
  · intro hcalls d
    have hrun := fresh.adds_run fun c hc => ne_hangUp_of_orderly (hcalls c hc)
    obtain ⟨htotal, horderly⟩ := total_of_orderly orderly_fresh hcalls
    rw [htotal] at hrun
    refine ⟨hrun.queue_of_hears rfl, fun c hc => ?_⟩
    have hstep := d.adds_step (ne_hangUp_of_orderly hc)
    rw [due_of_orderly horderly hc] at hstep
    rw [hstep.queue_of_hears hrun.hears]
    cases d.ends c <;> rfl

/-- One attempt is blocked, and another is sent and fails. -/
theorem refresh_per_ending_twice :
    let calls : List Call := [.reopen, .begin true, .dismiss, .reopen, .begin false,
      .post 0 (.answered ⟨404, ""⟩) (.failed "connection failed"), .cancel, .deliver 0, .deliver 0]
    (∀ c ∈ calls, c.orderly = true) ∧
    (fresh.run calls).queue = [.source .executor, .source .executor] ∧
    (⟨.fresh, none, []⟩ : Dispatcher).trace (.hangUp :: calls) = fresh.trace calls := by
  intro calls
  have hcalls : ∀ c ∈ calls, c.orderly = true := by decide
  refine ⟨hcalls, ?_, ?_⟩
  · rw [((refresh_per_ending calls).2.1 hcalls).1]
    decide
  · exact (refresh_per_ending (.hangUp :: calls)).2.2 ⟨.fresh, none, []⟩ fresh ⟨rfl, rfl⟩

end Dispatcher

end Interlock
