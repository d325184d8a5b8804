import AccessLedger.Access.Editor
import AccessLedger.Http.Server
import AccessLedger.Main
import AccessLedger.Settings.ServerConfig
import AccessLedger.Store.Cell
import AccessLedger.Proofs.Json.Laws
import AccessLedger.Proofs.Access.Encoding
import AccessLedger.Proofs.Store.Change
import AccessLedger.Proofs.Store.Ledger
import AccessLedger.Proofs.Store.Operation
import AccessLedger.Proofs.Store.Interleaving
import AccessLedger.Proofs.Store.Membership
import AccessLedger.Proofs.Access.Merging
import AccessLedger.Proofs.Store.Sections
import AccessLedger.Proofs.Store.Commit
import AccessLedger.Proofs.Store.History
import AccessLedger.Proofs.Store.Commits
import AccessLedger.Proofs.Http.Confinement
import AccessLedger.Proofs.Calendar.Columns
import AccessLedger.Proofs.Audit.Log
import AccessLedger.Proofs.Audit.Stays
import AccessLedger.Proofs.Audit.Reading
import AccessLedger.Proofs.Audit.Completeness
import AccessLedger.Proofs.Audit.Past
import AccessLedger.Proofs.Store.References
import AccessLedger.Proofs.Store.Integrity
import AccessLedger.Proofs.Store.Founding
import AccessLedger.Proofs.Access.Unapplied
import AccessLedger.Proofs.Store.Outcome
import AccessLedger.Proofs.Store.Collisions
import AccessLedger.Proofs.Http.Unapplied
import AccessLedger.Proofs.Store.AllOrNothing
import AccessLedger.Proofs.Http.Refusals
import AccessLedger.Proofs.Audit.Additions
import AccessLedger.Proofs.Audit.Specification
import AccessLedger.Proofs.Transcript
import AccessLedger.Proofs.Audit.Traffic
import AccessLedger.Proofs.Audit.Sources
import AccessLedger.Proofs.Audit.Reordering
import AccessLedger.Proofs.Access.Editing
import AccessLedger.Proofs.Access.Session
import AccessLedger.Proofs.Http.Authentication
import AccessLedger.Proofs.Http.Credentials
import AccessLedger.Proofs.Audit.Failures
import AccessLedger.Proofs.Http.GroupGate
import AccessLedger.Proofs.Http.GroupAddresses
import AccessLedger.Proofs.Wire
import AccessLedger.Proofs.Store.Result
import AccessLedger.Proofs.Store.ReadBack
import AccessLedger.Proofs.Store.Authority
import AccessLedger.Proofs.Store.Refusal
import AccessLedger.Proofs.Store.Resubmission
import AccessLedger.Proofs.Audit.Writes
import AccessLedger.Proofs.Access.Draft
import AccessLedger.Proofs.Store.Revision
import AccessLedger.Proofs.Store.Timestamps
import AccessLedger.Proofs.Access.DifferenceLaws
import AccessLedger.Proofs.Access.Validity
import AccessLedger.Proofs.Audit.Slots
import AccessLedger.Proofs.Audit.ForeignSlots
