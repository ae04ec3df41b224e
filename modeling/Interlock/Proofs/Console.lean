import Interlock.Proofs.Safety.Attempt
import Interlock.Session
import Mathlib.Algebra.Ring.Int.Defs
import Mathlib.Data.List.Induction

/-!
# Who gets a key

While `dialog.isVisible` the dialog gets every key, and `press` changes nothing else of the console;
otherwise `cardKey` gets it. So `index` and `raw` are decided by `cardKeys`, the keys that the cards
got, however confirmations, outcomes and snapshots come in between.

* `Console.Event`, `Console.run`: what can happen to a console, and `Session.console_run`: the
  console of every session is such a run.
* `press_of_visible`: a key that the dialog gets leaves everything else as it is.
* `index_run` and `raw_run`: `index` is the `nextCard` less the `prevCard` of `cardKeys`, modulo 4,
  and `raw k` the parity of `toggleRaw`.
* `Uncovered.step`: `help` is off while `dialog.isVisible`.
-/

namespace Interlock

namespace Dialog

/-- `complete` keeps `isVisible`. -/
theorem isVisible_complete (o : Outcome) (d : Dialog) :
    (d.complete o).2.isVisible = d.isVisible := by
  by_cases h : d.phase = .sending
  · obtain ⟨phase, outcome⟩ := d
    subst h
    unfold complete goTo
    cases o.status <;> rfl
  · rw [complete_of_ne o h]

end Dialog

/-- `begin` keeps `isVisible`. -/
theorem Dispatch.isVisible_begin (locked : Bool) (d : Dialog) :
    (begin locked d).2.1.isVisible = d.isVisible := by
  by_cases h : d.phase = .confirming
  · have hvisible : d.isVisible = true := by simp [Dialog.isVisible, h]
    rw [hvisible]
    cases locked with
    | true =>
      rw [begin_of_locked h]
      rfl
    | false =>
      rw [begin_of_unlocked h]
      rfl
  · rw [begin_of_ne locked h]

namespace Console

/-! ## What can happen to a console -/

/-- What can happen to a console. -/
inductive Event
  | key (action : KeyAction)
  /-- A state of the sources is shown. -/
  | display (s : Snapshot)
  /-- A confirmation is resolved, at a gate that is closed or not. -/
  | begin (locked : Bool)
  /-- The outcome of a request is recorded. -/
  | finish (o : Outcome)

/-- One event. -/
def step (c : Console) : Event → Console
  | .key action => (c.press action).2
  | .display s => c.display s
  | .begin locked => { c with dialog := (Dispatch.begin locked c.dialog).2.1 }
  | .finish o => { c with dialog := (Dispatch.finish o c.dialog).2.1 }

/-- A sequence of events. -/
def run (c : Console) (es : List Event) : Console := es.foldl step c

/-! ## The dialog on the screen -/

/-- `help` is off while `dialog.isVisible`. -/
def Uncovered (c : Console) : Prop := c.dialog.isVisible = true → c.help = false

theorem Uncovered.step {c : Console} (h : c.Uncovered) (e : Event) : (c.step e).Uncovered := by
  cases e with
  | display s => exact h
  | begin locked =>
    intro hvisible
    refine h ?_
    rw [← Dispatch.isVisible_begin locked]
    exact hvisible
  | finish o =>
    intro hvisible
    refine h ?_
    rw [← Dialog.isVisible_complete o]
    exact hvisible
  | key action =>
    show (c.press action).2.Uncovered
    unfold press
    cases hvisible : c.dialog.isVisible with
    | true =>
      obtain ⟨command, d, hkey, -⟩ := c.exists_dialogKey_eq action
      rw [if_pos rfl, hkey]
      intro _
      exact h hvisible
    | false =>
      -- of the keys of the cards two open the dialog, and these turn the help off
      rw [if_neg Bool.false_ne_true]
      have hidden {c' : Console} (hdialog : c'.dialog = c.dialog) : c'.Uncovered := by
        intro hvisible'
        rw [hdialog, hvisible] at hvisible'
        cases hvisible'
      cases action with
      | openKill => exact fun _ => rfl
      | openLock =>
        show (if c.verdict.lockRecommended then c.openDialog else c).Uncovered
        split
        · exact fun _ => rfl
        · exact hidden rfl
      | _ => exact hidden rfl

/-! ## The keys that the cards get -/

/-- The key of an event that `cardKey` gets: one that is pressed while no dialog is visible. -/
def cardKey? (c : Console) : Event → Option KeyAction
  | .key action => if c.dialog.isVisible then none else some action
  | _ => none

/-- The keys of a run that `cardKey` gets, each with the card `selected` at that time. -/
def cardKeys (c : Console) : List Event → List (Source × KeyAction)
  | [] => []
  | e :: es => ((c.cardKey? e).map fun action => (c.selected, action)).toList ++
      cardKeys (c.step e) es

/-- An event is a `cardKey`, or leaves `index` and `raw` as they are. -/
theorem cards_step (c : Console) (e : Event) :
    (∃ action, c.cardKey? e = some action ∧ c.step e = (c.cardKey action).2) ∨
      c.cardKey? e = none ∧ (c.step e).index = c.index ∧ (c.step e).raw = c.raw := by
  cases e with
  | display | begin | finish => exact .inr ⟨rfl, rfl, rfl⟩
  | key action =>
    simp only [cardKey?, step, press]
    cases hvisible : c.dialog.isVisible with
    | true =>
      obtain ⟨command, d, hkey, -⟩ := c.exists_dialogKey_eq action
      rw [if_pos rfl, if_pos rfl, hkey]
      exact .inr ⟨rfl, rfl, rfl⟩
    | false => exact .inl ⟨action, rfl, rfl⟩

/-- What a key adds to `index`. -/
def turn : KeyAction → ℤ
  | .nextCard => 1
  | .prevCard => -1
  | _ => 0

/-- `cardKey` adds `turn action` to `index`, modulo 4, and keeps `index < 4`. -/
theorem index_cardKey {c : Console} (h : c.index < 4) (action : KeyAction) :
    (c.cardKey action).2.index < 4 ∧
      ((c.cardKey action).2.index : ℤ) = (c.index + turn action) % 4 := by
  have hstay : (c.index : ℤ) = (c.index + 0) % 4 := by omega
  cases action with
  | nextCard =>
    show (c.index + 1) % 4 < 4 ∧ (((c.index + 1) % 4 : ℕ) : ℤ) = (c.index + 1) % 4
    omega
  | prevCard =>
    show (if c.index = 0 then 3 else c.index - 1) < 4 ∧
      ((if c.index = 0 then 3 else c.index - 1 : ℕ) : ℤ) = (c.index + -1) % 4
    split <;> omega
  | openLock =>
    show (if c.verdict.lockRecommended then c.openDialog else c).index < 4 ∧
      ((if c.verdict.lockRecommended then c.openDialog else c).index : ℤ) = _
    split <;> exact ⟨h, hstay⟩
  | _ => exact ⟨h, hstay⟩

/-- `cardKey` flips `raw k` if the action is `toggleRaw` and `k` is `selected`. -/
theorem raw_cardKey (c : Console) (action : KeyAction) (k : Source) :
    (c.cardKey action).2.raw k =
      (c.raw k ^^ decide ((c.selected, action) = (k, KeyAction.toggleRaw))) := by
  cases action with
  | toggleRaw =>
    show (if k = c.selected then !c.raw k else c.raw k) = _
    by_cases hk : c.selected = k
    · simp [hk]
    · simp [hk, Ne.symm hk]
  | openLock =>
    show (if c.verdict.lockRecommended then c.openDialog else c).raw k = _
    split <;> simp [openDialog]
  | _ => simp [cardKey, openDialog, nextCard, prevCard]

/-- How often a key is among `keys`. -/
def presses (action : KeyAction) (keys : List (Source × KeyAction)) : ℕ :=
  (keys.map Prod.snd).count action

/-- After a run, `index` is advanced by the `nextCard` less the `prevCard` of `cardKeys`, modulo 4.
-/
theorem index_run {c : Console} (h : c.index < 4) (es : List Event) :
    (c.run es).index < 4 ∧ ((c.run es).index : ℤ) = (c.index +
      (presses .nextCard (cardKeys c es) - presses .prevCard (cardKeys c es))) % 4 := by
  induction es generalizing c with
  | nil =>
    show c.index < 4 ∧ (c.index : ℤ) = (c.index + 0) % 4
    omega
  | cons e es ih =>
    show ((c.step e).run es).index < 4 ∧ (((c.step e).run es).index : ℤ) = _
    rw [cardKeys]
    rcases c.cards_step e with ⟨action, hkey, hstep⟩ | ⟨hnone, hindex, -⟩
    · obtain ⟨hlt, hturn⟩ := index_cardKey h action
      rw [hstep, hkey]
      refine ⟨(ih hlt).1, ?_⟩
      rw [(ih hlt).2, hturn]
      cases action <;> simp [presses, turn] <;> omega
    · have hlt : (c.step e).index < 4 := hindex ▸ h
      refine ⟨(ih hlt).1, ?_⟩
      rw [(ih hlt).2, hnone, hindex]
      rfl

/-- `selected` is the card with the number `index`. -/
theorem index_selected {c : Console} (h : c.index < 4) : c.selected.index = c.index := by
  have hall : ∀ i < 4, ∀ hi : i % Source.all.length < Source.all.length,
      (Source.all.get ⟨i % Source.all.length, hi⟩).index = i := by decide
  exact hall c.index h _

/-- After a run, `raw k` is flipped once for every `toggleRaw` of `cardKeys` at `k`. -/
theorem raw_run (c : Console) (es : List Event) (k : Source) :
    (c.run es).raw k =
      (c.raw k ^^ decide ((cardKeys c es).count (k, .toggleRaw) % 2 = 1)) := by
  induction es generalizing c with
  | nil =>
    show c.raw k = _
    simp [cardKeys]
  | cons e es ih =>
    show ((c.step e).run es).raw k = _
    rw [ih, cardKeys]
    rcases c.cards_step e with ⟨action, hkey, hstep⟩ | ⟨hnone, -, hraw⟩
    · rw [hstep, hkey, raw_cardKey, Bool.xor_assoc]
      congr 1
      show _ = decide (((c.selected, action) :: cardKeys (c.cardKey action).2 es).count
        (k, .toggleRaw) % 2 = 1)
      rw [List.count_cons]
      by_cases htoggles : (c.selected, action) = (k, KeyAction.toggleRaw)
      · -- one more toggle makes an even number odd, and an odd number even
        rw [decide_eq_true htoggles, if_pos (beq_iff_eq.2 htoggles), Bool.true_xor, ← decide_not]
        apply decide_eq_decide.2
        omega
      · rw [decide_eq_false htoggles, if_neg (by simpa using htoggles), Bool.false_xor]
        rfl
    · rw [hnone, hraw]
      rfl

end Console

/-! ## The console of a session -/

namespace Session

/-- The events of the console in one step of a session. -/
def consoleEvents (s : Session) : Event → List Console.Event
  | .key action =>
    .key action :: if (s.console.press action).1 = .confirmKill then [.begin s.gateLocked] else []
  | .press action => [.key action]
  | .sync => if s.seen = s.monitor.version then [] else [.display s.monitor.snapshot]
  | .begin => [.begin s.gateLocked]
  | .deliver id =>
    match s.requests[id]? with
    | some (.sent outcome) => [.finish outcome]
    | _ => []
  | .send kill lock =>
    match s.requests[s.requests.length - 1]? with
    | some .issued => [.finish (Dispatch.send kill lock).1]
    | _ => []
  | .finish outcome => [.finish outcome]
  | .confirm kill lock =>
    .begin s.gateLocked ::
      if (Dispatch.begin s.gateLocked s.console.dialog).1 = .send then
        [.finish (Dispatch.send kill lock).1]
      else []
  | _ => []

/-- The events of the console in a run of a session. -/
def consoleHistory (s : Session) : List (Instant × Event) → List Console.Event
  | [] => []
  | e :: es => s.consoleEvents e.2 ++ consoleHistory (s.step e.1 e.2).2 es

/-- A step of a session runs its console through `consoleEvents`. -/
theorem console_step (s : Session) (now : Instant) (e : Event) :
    (s.step now e).2.console = s.console.run (s.consoleEvents e) := by
  cases e with
  | key action =>
    simp only [step, pressKey, consoleEvents]
    cases hpress : s.console.press action with
    | mk command console =>
      have hconsole : (s.console.press action).2 = console := by rw [hpress]
      cases command with
      | confirmKill =>
        show _ = Console.run _ [_, _]
        simp only [Console.run, List.foldl, Console.step, hconsole]
        rfl
      | none | quit | refresh => exact hconsole.symm
  | sync =>
    simp only [step, consoleEvents]
    split <;> rfl
  | post id kill lock =>
    simp only [step]
    split <;> rfl
  | deliver id =>
    simp only [step, consoleEvents]
    rcases s.requests[id]? with _ | _ | outcome | _ <;> rfl
  | send kill lock =>
    simp only [step, consoleEvents]
    rcases s.requests[s.requests.length - 1]? with _ | _ | outcome | _ <;> rfl
  | confirm kill lock =>
    -- the outcome of the request is recorded only if a request was issued
    simp only [step, consoleEvents, Dispatch.confirm]
    cases hbegin : Dispatch.begin s.gateLocked s.console.dialog with
    | mk c rest => cases c <;> simp [Console.run, Console.step, setDialog, hbegin]
  | start k =>
    simp only [step]
    split <;> rfl
  | settle id r =>
    simp only [step]
    split <;> rfl
  | refresh | refreshAll | close | press | begin | finish | request | dropRequests => rfl

/-- A run of a session runs its console through `consoleHistory`. -/
theorem console_run (s : Session) (es : List (Instant × Event)) :
    (s.run es).console = s.console.run (s.consoleHistory es) := by
  induction es generalizing s with
  | nil => rfl
  | cons e es ih =>
    show ((s.step e.1 e.2).2.run es).console = _
    rw [ih, console_step, consoleHistory]
    unfold Console.run
    rw [List.foldl_append]

end Session

namespace Console

theorem uncovered_run (es : List Event) : (fresh.run es).Uncovered := by
  induction es using List.reverseRecOn with
  | nil => exact fun _ => rfl
  | append_singleton es e ih =>
    unfold run
    rw [List.foldl_append]
    exact ih.step e

/-- While `dialog.isVisible`, `press` changes only `dialog` and commands nothing but `.confirmKill`.
-/
theorem press_of_visible {c : Console} (h : c.dialog.isVisible = true) (action : KeyAction) :
    ((c.press action).1 = .none ∨ (c.press action).1 = .confirmKill) ∧
      ∃ d, (c.press action).2 = { c with dialog := d } := by
  obtain ⟨command, d, hkey, hcommand, -⟩ := c.exists_dialogKey_eq action
  unfold press
  rw [if_pos h, hkey]
  exact ⟨hcommand, d, rfl⟩

/-- While `dialog.isVisible`, `help` is off and `press` changes only `dialog`. `index` is below 4
and the `nextCard` less the `prevCard` of `cardKeys`, modulo 4; `raw k` is the parity of `toggleRaw`
at `k`. -/
theorem dialog_takes_keys (es : List Event) :
    let c := fresh.run es
    let keys := cardKeys fresh es
    (c.dialog.isVisible = true → c.help = false) ∧
    (c.dialog.isVisible = true → ∀ action,
      ((c.press action).1 = .none ∨ (c.press action).1 = .confirmKill) ∧
      ∃ d, (c.press action).2 = { c with dialog := d }) ∧
    c.index < 4 ∧ c.selected.index = c.index ∧
    (c.index : ℤ) = ((presses .nextCard keys : ℤ) - presses .prevCard keys) % 4 ∧
    (∀ k, c.raw k = true ↔ keys.count (k, .toggleRaw) % 2 = 1) ∧
    ∀ steps,
      (Session.fresh.run steps).console = fresh.run (Session.fresh.consoleHistory steps) := by
  intro c keys
  obtain ⟨hlt, hindex⟩ := index_run (show fresh.index < 4 by decide) es
  refine ⟨uncovered_run es, press_of_visible, hlt, index_selected hlt, ?_, ?_,
    Session.console_run _⟩
  · rw [show fresh.index = 0 from rfl, Nat.cast_zero, zero_add] at hindex
    exact hindex
  · intro k
    rw [show c.raw k = _ from raw_run fresh es k, show fresh.raw k = false from rfl,
      Bool.false_xor, decide_eq_true_iff]

-- A dialog that is dismissed after an attempt gives the keys back to the cards.
example :
    let c := fresh.run [.key .help, .key .openKill, .key .nextCard, .key .confirm, .begin true,
      .key .toggleRaw, .key .cancel, .key .prevCard, .key .toggleRaw]
    c.help = false ∧ c.selected = .risk ∧ c.raw .risk = true ∧ c.raw .intent = false := by
  decide

end Console

end Interlock
