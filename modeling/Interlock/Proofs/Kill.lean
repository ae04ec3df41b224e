import Interlock.Program
import Interlock.Proofs.Endpoints
import Interlock.Proofs.Safety.Attempt
import Interlock.Proofs.Safety.Verdict
import Interlock.Proofs.Text.Utf8

/-!
# A kill from the command line

`carryOut w s (.kill yes)` fetches the executor, asks for consent unless `yes`, and then fetches
again. What it posts rests on its last fetch alone (`Settled`), whatever banner was written before
the question: after `lookAtExecutor` the banner is that of the fetch (`banner_lookAtExecutor`), and
so is the gate that `engage` reads. Consent is read off bytes (`Prompt.consents_iff`), and without
it nothing more is requested.
-/

namespace Interlock

open Text

/-! ## Consent -/

namespace Prompt

/-- The bytes of an input before its first line feed, or all of them if there is none. -/
def IsFirstLine (line input : List UInt8) : Prop :=
  10 ∉ line ∧ ∃ rest, input = line ++ rest ∧ ∀ b ∈ rest.head?, b = 10

/-- The first line is UTF-8 for `y` or `yes`, in any case and with any blank space around it. -/
def Consent (input : List UInt8) : Prop :=
  ∃ line cs, IsFirstLine line input ∧ line = Utf8.encode cs ∧
    (lower (trim (String.ofList cs)) = "y" ∨ lower (trim (String.ofList cs)) = "yes")

/-- `IsFirstLine` is `firstLine`. -/
theorem isFirstLine_iff {line input : List UInt8} :
    IsFirstLine line input ↔ line = firstLine input := by
  unfold firstLine
  constructor
  · rintro ⟨hline, rest, rfl, hrest⟩
    have hall : ∀ b ∈ line, (b != 10) = true := by
      intro b hb
      exact bne_iff_ne.mpr fun h => hline (h ▸ hb)
    rw [List.takeWhile_append_of_pos hall]
    -- the rest starts with the line feed, if there is one
    cases rest with
    | nil => rw [List.takeWhile_nil, List.append_nil]
    | cons b rest => rw [hrest b rfl, List.takeWhile_cons_of_neg (by decide), List.append_nil]
  · rintro rfl
    refine ⟨fun h => ?_, input.dropWhile (· != 10), (List.takeWhile_append_dropWhile).symm, ?_⟩
    · exact absurd (List.mem_takeWhile_imp h) (by decide)
    · intro b hb
      have hneg := List.head?_dropWhile_not (· != 10) input
      rw [Option.mem_def.mp hb] at hneg
      simpa using hneg

/-- `consents` decides `Consent`. -/
theorem consents_iff (input : List UInt8) : consents input = true ↔ Consent input := by
  unfold consents Consent
  simp only [isFirstLine_iff]
  constructor
  · intro h
    cases hdecode : Utf8.decode? (firstLine input) with
    | none => simp [hdecode] at h
    | some cs =>
      rw [hdecode] at h
      simp only [Bool.or_eq_true, beq_iff_eq] at h
      exact ⟨_, cs, rfl, Utf8.decode?_eq_some_iff.mp hdecode, h⟩
  · rintro ⟨_, cs, rfl, hencode, hanswer⟩
    rw [Utf8.decode?_eq_some_iff.mpr hencode]
    simpa using hanswer

end Prompt

namespace Program

variable (w : World)

/-! ## The last look -/

/-- The result of the fetch of the executor with the number `before`. -/
def World.look (before : Nat) : FetchResult := (w.get .executor before).toResult

/-- `lookAtExecutor` is a run of `begin` and `land`. -/
theorem lookAtExecutor_run (before : Nat) (es : List Monitor.Event) :
    lookAtExecutor w before (Monitor.fresh.run es) =
      Monitor.fresh.run (es ++ [.begin .executor] ++ [.land .executor (w.look before) w.now]) := by
  unfold lookAtExecutor
  rw [Monitor.refresh_eq_run, ← Monitor.run_append, List.append_assoc]
  rfl

/-- After `lookAtExecutor` the banner is that of `w.look before`, whatever landed before. -/
theorem banner_lookAtExecutor (before : Nat) (es : List Monitor.Event)
    (h : (Monitor.fresh.run es).closed = false) :
    (Verdict.evaluate (lookAtExecutor w before (Monitor.fresh.run es)).snapshot).banner =
      (Verdict.ofLast (some (w.look before)) none).banner := by
  have hopen : (Monitor.fresh.run (es ++ [.begin .executor])).closed = false := by
    rw [Monitor.run_append]
    show ((Monitor.fresh.run es).step (.begin .executor)).closed = false
    rw [Monitor.closed_step, h]
    rfl
  rw [lookAtExecutor_run, Verdict.evaluate_run, Monitor.lastLanded_concat hopen]
  rfl

/-- The posts and the outcome of a kill whose last fetch is `last`. -/
inductive Settled (last : FetchResult) : List ActionEndpoint → Outcome → Prop
  /-- The look closes the gate. -/
  | blocked (locked : (Verdict.ofLast (some last) none).automationLocked = true) :
    Settled last [] (.ofError .blocked)
  /-- The look opens the gate, and what becomes of the request is not that there is no such
  endpoint. -/
  | sent (unlocked : (Verdict.ofLast (some last) none).automationLocked = false)
    (found : ∀ reply, (w.post .kill).toPosted = .answered reply → reply.status ≠ 404) :
    Settled last [.kill] (.ofPosted (w.post .kill).toPosted)
  /-- The look opens the gate, and there is no such endpoint. -/
  | fellBack (unlocked : (Verdict.ofLast (some last) none).automationLocked = false)
    (reply : Reply) (answered : (w.post .kill).toPosted = .answered reply)
    (missing : reply.status = 404) :
    Settled last [.kill, .lock] (.ofPosted (w.post .lock).toPosted)

/-- `engage` is `Settled` by `last` if the banner is that of `last`. -/
theorem settled_engage {m : Monitor} {last : FetchResult}
    (h : (Verdict.evaluate m.snapshot).banner = (Verdict.ofLast (some last) none).banner) :
    ∃ outcome, (engage w m).outcome = some outcome ∧
      Settled w last (engage w m).posts outcome := by
  have hgate : (Verdict.evaluate m.snapshot).automationLocked =
      (Verdict.ofLast (some last) none).automationLocked := congrArg Banner.locks h
  unfold engage
  rw [hgate]
  cases hlocked : (Verdict.ofLast (some last) none).automationLocked with
  | true =>
    rw [Dispatch.confirm_of_locked _ _ rfl]
    exact ⟨_, rfl, .blocked hlocked⟩
  | false =>
    rw [Dispatch.confirm_of_unlocked _ _ rfl]
    refine ⟨_, rfl, ?_⟩
    by_cases hmissing : ∃ reply, (w.post .kill).toPosted = .answered reply ∧ reply.status = 404
    · obtain ⟨reply, hkill, hstatus⟩ := hmissing
      rw [hkill, Dispatch.send_of_missing _ hstatus]
      exact .fellBack hlocked reply hkill hstatus
    · have hfound : ∀ reply, (w.post .kill).toPosted = .answered reply → reply.status ≠ 404 :=
        fun reply hkill hstatus => hmissing ⟨reply, hkill, hstatus⟩
      rw [Dispatch.send_of_found _ hfound]
      exact .sent hlocked hfound

/-! ## The report -/

/-- The output of a kill: what was written and requested before, then the detail of the outcome and
the posts. The lines of the log are no part of `stderr`. -/
structure Told (written : String) (made : List Request) (posts : List ActionEndpoint)
    (outcome : Outcome) (o : Output) : Prop where
  stdout : o.stdout = written ++ (outcome.detail ++ "\n")
  stderr : o.stderr = ""
  requests : o.requests = made ++ posts.map .action
  exit : o.exit = 0 ↔ outcome.status = .success

/-- `ended` is `Told`. -/
theorem told_ended (written : String) (made : List Request) {a : Dispatch.Attempt}
    {outcome : Outcome} (h : a.outcome = some outcome) :
    Told written made a.posts outcome (ended written made a) where
  stdout := by rw [ended, h]; rfl
  stderr := rfl
  requests := rfl
  exit := by simp [ended, h]

/-- With `problems = []`, a kill with consent on the command line is `Settled` by `w.look 0`.
Without, it asks: with `Consent` it is `Settled` by `w.look 1` alone, otherwise it is cancelled with
no further request. -/
theorem kill_settles_by_last_look [Url.Idna] [Url.LawfulIdna] (s : Settings)
    (h : s.problems = []) :
    ∃ e, Endpoints.ofBase s.baseUrl = .ok e ∧
      let banner := bannerLine (Verdict.ofLast (some (w.look 0)) none)
      let asked := banner ++ Prompt.question e.base
      (∃ o posts outcome, carryOut w s (.kill true) = .done o ∧
        Settled w (w.look 0) posts outcome ∧
        Told banner [.status .executor] posts outcome o) ∧
      ∃ answered, carryOut w s (.kill false) = .asks asked answered ∧ ∀ input,
        (Prompt.Consent input → ∃ posts outcome, Settled w (w.look 1) posts outcome ∧
          Told asked [.status .executor, .status .executor] posts outcome (answered input)) ∧
        (¬ Prompt.Consent input →
          answered input = ⟨asked ++ "Cancelled\n", "", 1, [.status .executor]⟩) := by
  have haddress : s.addressProblems = [] :=
    (List.append_eq_nil_iff.mp (List.append_eq_nil_iff.mp h).1).1
  obtain ⟨_, base, -, -, -, -, hbuilt⟩ := exists_endpoints haddress
  refine ⟨_, hbuilt, ?_⟩
  intro banner asked
  -- the second look goes on from the first, which leaves the monitor open; its own landing is the
  -- last one, so the first does not show
  have hfirst := banner_lookAtExecutor w 0 [] rfl
  have hsecond := banner_lookAtExecutor w 1
    ([] ++ [.begin .executor] ++ [.land .executor (w.look 0) w.now]) rfl
  rw [← lookAtExecutor_run] at hsecond
  have hbanner :
      bannerLine (Verdict.evaluate (lookAtExecutor w 0 (Monitor.fresh.run [])).snapshot) =
        banner := by
    unfold bannerLine
    rw [hfirst]
    rfl
  constructor
  · obtain ⟨outcome, houtcome, hsettled⟩ := settled_engage w hfirst
    refine ⟨_, _, outcome, ?_, hsettled, told_ended banner _ houtcome⟩
    unfold carryOut
    rw [hbuilt, ← hbanner]
    rfl
  · refine ⟨answered w (lookAtExecutor w 0 (Monitor.fresh.run [])) asked, ?_, ?_⟩
    · -- what was written before the answer is also part of what is written after it
      unfold carryOut
      rw [hbuilt]
      show _ = Progress.asks (banner ++ _) (answered _ _ (banner ++ _))
      rw [← hbanner]
      rfl
    intro input
    unfold answered
    constructor
    · intro hconsent
      obtain ⟨outcome, houtcome, hsettled⟩ := settled_engage w hsecond
      rw [if_pos ((Prompt.consents_iff input).mpr hconsent)]
      exact ⟨_, outcome, hsettled, told_ended asked _ houtcome⟩
    · intro hrefusal
      rw [if_neg fun hconsents => hrefusal ((Prompt.consents_iff input).mp hconsents)]
      rfl

/-- The first fetch opens the gate and the second closes it: with `Consent` nothing is posted,
though `w.look 0` would have let a kill through. -/
theorem kill_settles_by_last_look_unplugged :
    let w : World := {
      settings := { file? := fun _ => none, vars := [] }
      get := fun _ before => if before = 0 then .complete 200 [] "" else .failed .connect
      post := fun _ => .complete 200 [] ""
      now := ⟨0⟩ }
    Settings.default.problems = [] ∧
      (∃ o, carryOut w Settings.default (.kill true) = .done o ∧
        o.requests = [.status .executor, .action .kill] ∧ o.exit = 0) ∧
      ∃ written answered, carryOut w Settings.default (.kill false) = .asks written answered ∧
        (answered [0x59, 10]).requests = [.status .executor, .status .executor] ∧
        (answered [0x59, 10]).exit ≠ 0 := by
  intro w
  obtain ⟨e, -, ⟨o, posts, outcome, hdone, hsettled, htold⟩, answered, hasks, hanswer⟩ :=
    kill_settles_by_last_look w Settings.default Settings.default_valid
  refine ⟨Settings.default_valid, ⟨o, hdone, ?_⟩, _, answered, hasks, ?_⟩
  · have hopen : (Verdict.ofLast (some (w.look 0)) none).automationLocked = false := by decide
    have hkill : (w.post .kill).toPosted = .answered ⟨200, ""⟩ := rfl
    rw [htold.requests, htold.exit]
    cases hsettled with
    | blocked locked => rw [hopen] at locked; cases locked
    | sent unlocked found =>
      rw [hkill]
      exact ⟨rfl, by decide⟩
    | fellBack unlocked reply answered missing =>
      rw [hkill] at answered
      cases answered
      exact absurd missing (by decide)
  · have hconsent : Prompt.Consent [0x59, 10] :=
      ⟨[0x59], ['Y'], ⟨by decide, [10], rfl, by simp⟩, rfl, .inl (by decide)⟩
    have hclosed : (Verdict.ofLast (some (w.look 1)) none).automationLocked = true := by decide
    obtain ⟨posts, outcome, hsettled, htold⟩ := (hanswer [0x59, 10]).1 hconsent
    rw [htold.requests, Ne, htold.exit]
    cases hsettled with
    | blocked locked => exact ⟨rfl, by decide⟩
    | sent unlocked found => rw [hclosed] at unlocked; cases unlocked
    | fellBack unlocked reply answered missing => rw [hclosed] at unlocked; cases unlocked

end Program

end Interlock
