import Interlock.Card
import Interlock.Safety.Verdict

/-!
# Reports

The state of the sources and the verdict on it, as text for a reader and as a document for a
program.
-/

namespace Interlock.Report

open Text

/-- How a source was last reached: what was wrong with its latest result, or its latest code. -/
def linkText (s : Snapshot) (k : Source) : String :=
  match (s.slot k).error, (s.slot k).lastHttpCode with
  | some e, _ => "error: " ++ e
  | none, some code => "HTTP " ++ ofNat code
  | none, none => "not polled"

/-- The lines of a source. -/
def sourceText (s : Snapshot) (k : Source) : String :=
  "\n[" ++ k.title ++ "] " ++ linkText s k ++ "\n" ++
    String.join ((Card.fields s k).map fun f => "  " ++ padEnd 18 f.1 ++ f.2 ++ "\n")

/-- The lines of the verdict. -/
def verdictText (v : Verdict) : String :=
  "Banner: " ++ v.banner.level.text ++
    (if v.banner.message = "" then "" else " - " ++ v.banner.message) ++ "\n" ++
    "Automation locked: " ++ Card.boolText v.automationLocked ++
    "   Lock recommended: " ++ Card.boolText v.lockRecommended ++
    " (deny=" ++ ofNat v.denyCount ++ ", evidence_bad=" ++ ofNat v.evidenceBadCount ++ ")\n"

/-- The report as text. -/
def text (s : Snapshot) (v : Verdict) : String :=
  verdictText v ++ String.join (Source.all.map (sourceText s))

/-- The report as a document. -/
def document (base : String) (s : Snapshot) (v : Verdict) : Json := .ofMembers [
  ("base_url", .string base),
  ("verdict", v.toJson),
  ("snapshot", s.toJson)]

end Interlock.Report
