import Interlock.Card
import Interlock.Console
import Interlock.Safety.Dispatch
import Interlock.Screen.Panel

/-!
# The screen

The safety banner on top, the cards of the sources in two rows of two, and a status line at the
foot. The cards come first when room is short: banner and status line take only rows that the cards
can spare. The dialog, or else the help, is laid over the middle.
-/

namespace Interlock.Screen

open Text

/-- What is drawn: the console, the address and the pace that the status line names, and the moment
of looking. -/
structure View where
  console : Console
  base : String
  intervalMs : Nat
  now : Instant

/-- The rows that the cards ask for. -/
def cardRows : Nat := 12

namespace View

/-! ## The banner -/

/-- The headline of the banner. -/
def headline (b : Banner) : String :=
  match b.level with
  | .ok => " OK: executor reachable, automation unlocked "
  | level => " " ++ level.text ++ ": " ++ b.message ++ " "

/-- The advice to lock, with its reasons. -/
def advice (v : View) : String :=
  let executor : ExecutorStatus := v.console.snapshot.executor.canonical
  "   LOCK RECOMMENDED (deny=" ++ ofNat v.console.verdict.denyCount ++ ", evidence_bad=" ++
    ofNat v.console.verdict.evidenceBadCount ++ ", fail_streak=" ++ ofNat executor.failStreak ++
    ")  press L"

/-- The lines of the banner. -/
def bannerLines (v : View) : List Line :=
  let verdict := v.console.verdict
  let lock : Piece :=
    ⟨if verdict.automationLocked then "  automation LOCKED" else "  automation unlocked",
      .health (!verdict.automationLocked)⟩
  [[⟨headline verdict.banner, .banner verdict.banner.level⟩],
    lock :: (if verdict.lockRecommended then [⟨v.advice, .accent⟩] else [])]

/-! ## The cards -/

/-- How a source was last reached, for the title of its card. -/
def linkText (s : Snapshot) (k : Source) : String :=
  match (s.slot k).phase, (s.slot k).updatedAt with
  | .fetching, _ => "…"
  | _, none => "waiting"
  | _, some _ => ((s.slot k).lastHttpCode.map fun c => "HTTP " ++ ofNat c).getD "no response"

/-- The title of a card. -/
def cardTitle (s : Snapshot) (k : Source) : Line :=
  let healthy := (s.slot k).healthy
  [⟨" " ++ k.title ++ " ", .title⟩,
    ⟨if healthy then "● " else "○ ", .health healthy⟩,
    ⟨linkText s k ++ " ", .dim⟩]

/-- A field of a card. -/
def fieldLine (f : Card.Field) : Line :=
  [⟨padEnd 18 f.1, .dim⟩, ⟨f.2, if f.2 = Reading.notAvailable then .dim else .text⟩]

/-- The fields of a card, or its raw document. -/
def bodyLines (c : Console) (k : Source) : List Line :=
  if c.raw k then
    (lines (Card.rawText c.snapshot k).toList).map fun l => [⟨String.ofList l, .text⟩]
  else (Card.fields c.snapshot k).map fieldLine

/-- What is wrong with a source, and how old its state is. -/
def stateLines (v : View) (k : Source) : List Line :=
  let slot := v.console.snapshot.slot k
  (slot.error.map fun e => [⟨"! " ++ e, .health false⟩]).toList ++
    (slot.updatedAt.map fun t =>
      [⟨"updated " ++ ofNat (t.secondsUntil v.now) ++ "s ago", .dim⟩]).toList

/-- The card of a source. -/
def card (v : View) (k : Source) (w h : Nat) : Grid :=
  let style := if v.console.selected = k then .accent else .frame
  Panel.draw style (cardTitle v.console.snapshot k) w h
    (wrapLines (w - 2) (bodyLines v.console k ++ v.stateLines k))

/-- The cards in two rows of two. -/
def cards (v : View) (w h : Nat) : Grid :=
  let left := share w 50
  let top := share h 50
  (v.card .intent left top).beside (v.card .chain (w - left) top) ++
    (v.card .executor left (h - top)).beside (v.card .risk (w - left) (h - top))

/-! ## The status line -/

/-- The line at the foot. -/
def statusLine (v : View) : Line :=
  let refreshed := match v.console.snapshot.lastFullRefresh with
    | some t => ofNat (t.secondsUntil v.now) ++ "s ago"
    | none => "never"
  let latest : Line := match v.console.dialog.outcome with
    | some o => [⟨"  Last action: ", .plain⟩, ⟨o.detail, .outcome o.status⟩]
    | none => []
  [⟨"  API: ", .plain⟩, ⟨v.base, .accent⟩, ⟨"  Refreshed: ", .plain⟩, ⟨refreshed, .accent⟩,
    ⟨" (every " ++ ofNat (v.intervalMs / 1000) ++ "s)", .dim⟩] ++ latest ++
  [⟨"  [q]uit [r]efresh [K]ill [Tab] card [v] raw [?] help", .dim⟩]

/-! ## What is laid over the cards -/

/-- The lines of the dialog below its question. -/
def dialogState (c : Console) : List Line :=
  match c.dialog.phase with
  | .confirming =>
    (if c.verdict.automationLocked then
      [[⟨"Automation is currently locked. Confirming will be refused.", .accent⟩]] else []) ++
    [[⟨"[y]", .accent⟩, ⟨" confirm   ", .plain⟩, ⟨"[n]", .accent⟩, ⟨" cancel", .plain⟩]]
  | .sending => [[⟨"Sending... (cancel disabled)", .accent⟩]]
  | phase =>
    (c.dialog.outcome.map fun o =>
      [⟨phase.text ++ ": ", .outcome o.status⟩, ⟨o.detail, .text⟩]).toList ++
    [[], [⟨"[Enter] close", .dim⟩]]

/-- The lines of the dialog. -/
def dialogLines (v : View) : List Line :=
  [[⟨"Engage the executor kill switch?", .title⟩],
    [⟨"POST " ++ v.base ++ ActionEndpoint.kill.path, .dim⟩],
    []] ++ dialogState v.console

/-- What the keys do. -/
def keyHelp : List (String × String) := [
  ("q", "quit"),
  ("r", "refresh all sources now"),
  ("K", "kill switch (confirmation required)"),
  ("L", "same, offered when a lock is recommended"),
  ("y / Enter", "confirm"),
  ("n / Esc", "cancel (disabled while sending)"),
  ("Tab", "select next card"),
  ("v", "toggle raw JSON on selected card"),
  ("?", "toggle this help")]

/-- The lines of the help. -/
def helpLines : List Line :=
  keyHelp.map fun k => [⟨padEnd 12 k.1, .accent⟩, ⟨k.2, .text⟩]

/-- Lays a panel over an area. -/
def layPanel (grid : Grid) (a : Area) (title : String) (rows : List Row) : Grid :=
  grid.cover a.x a.y (Panel.draw .frame [⟨title, .title⟩] a.w a.h rows)

/-- Lays the dialog or the help over a grid. -/
def layOver (v : View) (w h : Nat) (grid : Grid) : Grid :=
  if v.console.dialog.isVisible then
    let a := Area.centred w h 60 35
    layPanel grid a " Kill Switch " (wrapLines (a.w - 2) v.dialogLines)
  else if v.console.help then
    let a := Area.centred w h 50 50
    layPanel grid a " Keys " (cutLines (a.w - 2) helpLines)
  else grid

/-! ## The whole screen -/

/-- The screen at a size of `w` by `h` cells. -/
def draw (v : View) (w h : Nat) : Grid :=
  let spare := h - cardRows
  let banner := min 2 spare
  let foot := min 1 (spare - banner)
  let grid := Grid.fit w banner (cutLines w v.bannerLines) ++ v.cards w (h - banner - foot) ++
    Grid.fit w foot (cutLines w [v.statusLine])
  (v.layOver w h grid).shown

end View

end Interlock.Screen
