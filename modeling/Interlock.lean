import Interlock.Main
import Interlock.Monitor.Loop
import Interlock.Proofs.Safety.Verdict
import Interlock.Proofs.Session.Flight
import Interlock.Proofs.Session.Gate
import Interlock.Screen.View
import Interlock.Proofs.Monitor.Isolation
import Interlock.Proofs.Session.Fetches
import Interlock.Proofs.Session.Opening
import Interlock.Proofs.Session.Phase
import Interlock.Proofs.Loop.Stop
import Interlock.Proofs.Loop.Order
import Interlock.Proofs.Status.Envelope
import Interlock.Proofs.Status.Canonical
import Interlock.Proofs.Endpoints
import Interlock.Proofs.Kill
import Interlock.Proofs.Status.Isolation
import Interlock.Proofs.Status.Spelling
import Interlock.Proofs.Safety.Dialog
import Interlock.Proofs.Safety.Refresh
import Interlock.Proofs.Session.Display
import Interlock.Proofs.Settings.Layers
import Interlock.Proofs.Settings.Precedence
import Interlock.Proofs.Safety.Sending
import Interlock.Proofs.Safety.Items
import Interlock.Proofs.Status.Count
import Interlock.Proofs.Status.Numeral
import Interlock.Proofs.Safety.Rejection
import Interlock.Proofs.Fetch.Exchange
import Interlock.Proofs.Fetch.FullRefresh
import Interlock.Proofs.Console
import Interlock.Proofs.Report
import Interlock.Proofs.Card
