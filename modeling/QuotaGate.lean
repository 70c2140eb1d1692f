import QuotaGate.Main
import QuotaGate.Proofs.Admission.Release
import QuotaGate.Proofs.Delivery.Alone
import QuotaGate.Proofs.Delivery.Outcome
import QuotaGate.Proofs.Gate.History
import QuotaGate.Proofs.Registry.History
import QuotaGate.Proofs.Traffic
import QuotaGate.Settings.Shown
import QuotaGate.Proofs.Lockout.History
import QuotaGate.Proofs.Registry.Integrity
import QuotaGate.Proofs.Registry.Pruning
import QuotaGate.Proofs.Admission.Pruning
import QuotaGate.Proofs.Admission.Whole
import QuotaGate.Proofs.Delivery.Retry
import QuotaGate.Proofs.Admission.Unrelated
import QuotaGate.Proofs.Delivery.Journal
import QuotaGate.Proofs.Delivery.Itinerary
import QuotaGate.Proofs.Delivery.Convoy
import QuotaGate.Proofs.Delivery.Deadline
import QuotaGate.Proofs.Session.Deliveries
import QuotaGate.Proofs.Pruner.Ticks
import QuotaGate.Proofs.Session.Instants
import QuotaGate.Proofs.Session.Waiters
import QuotaGate.Proofs.Pruner.Upkeep
import QuotaGate.Proofs.Session.Pruners
import QuotaGate.Proofs.Gate.Words
import QuotaGate.Proofs.Session.Tokens
import QuotaGate.Proofs.Route.Verbatim
import QuotaGate.Proofs.Session.Vigil
import QuotaGate.Proofs.Registry.Stale
import QuotaGate.Proofs.Admission.AfterPruning
import QuotaGate.Proofs.Gate.AtOnce
import QuotaGate.Proofs.Session.Acquisitions
import QuotaGate.Proofs.Report.Body
import QuotaGate.Proofs.Report.Fields
import QuotaGate.Proofs.Report.Seconds
import QuotaGate.Proofs.Settings.Document
import QuotaGate.Proofs.Settings.Layers
import QuotaGate.Proofs.Settings.Loaders
import QuotaGate.Proofs.Settings.Variables
import QuotaGate.Proofs.Report.Calendar
import QuotaGate.Proofs.Session.Spellings
import QuotaGate.Proofs.Lockout.Views
import QuotaGate.Proofs.Route.Identity
