import Zatca.Core.Phase1Filled
import Zatca.Core.Populated
import Zatca.Core.TemplateFilling
import Zatca.Library.Interleaving
import Zatca.Library.JsMap
import Zatca.Library.HashChain
import Zatca.Core.Issue
import Zatca.Storage.Memory
import Zatca.Storage.Ledger
import Zatca.Storage.SequentialChain
import Zatca.Storage.ConcurrentChain
import Zatca.Core.Gateway
import Zatca.Core.Onboard
import Zatca.Library.Lease
import Zatca.Server.Credentials
import Zatca.Server.Fencing
import Zatca.Server.OneSubmission
import Zatca.Server.Outcome
import Zatca.Core.Dispatch
import Zatca.Core.Reconcile
import Zatca.Core.AddsUp
import Zatca.Library.Failure
import Zatca.Library.Journal
import Zatca.Library.OrderBy
import Zatca.Library.PartitionedCounter
import Zatca.Library.Sequence
import Zatca.Library.Transaction
import Zatca.Server.AdminRoutes
import Zatca.Server.AuditTrail
import Zatca.Server.IssueBody
import Zatca.Server.TenantBearer
import Zatca.Storage.Counters
import Zatca.Storage.FailedIssue
import Zatca.Storage.Heads
import Zatca.Library.Noninterference
import Zatca.Library.Absorb
import Zatca.Storage.Isolation
import Zatca.Storage.InternalMemory
import Zatca.Storage.Phase1Frame
import Zatca.Core.Compliance
import Zatca.Core.OnboardingGate
import Zatca.Server.Progress
import Zatca.Server.Unlocking
import Zatca.Server.DeletedKeys
import Zatca.Server.ClearanceNumber
import Zatca.Library.ThreeValued
import Zatca.Server.TenantBackends
import Zatca.Core.QrCode
import Zatca.Core.RetryDiscipline
import Zatca.Core.FixedNoRounding
import Zatca.Core.NonnegativeAmounts
import Zatca.Core.LineRule
import Zatca.Core.PhaseTotals
import Zatca.Core.Phase1Figures
import Zatca.Core.Timestamps
import Zatca.Core.BinaryLine
import Zatca.Storage.InvoiceNumbers
import Zatca.Storage.CompletedInput
import Zatca.Server.Redact
import Zatca.Server.AuditLogs
import Zatca.Server.VaultBackends
import Zatca.Server.AesGcm
import Zatca.Server.CertificateReaders
import Zatca.Core.CsrTemplate
import Zatca.Core.DocumentEdits
import Zatca.Core.QrLength
import Zatca.Server.RandomTokens
import Zatca.Server.AdminKeys
import Zatca.Server.OnboardingSlots
import Zatca.Library.Runs
import Zatca.Server.Requests
import Zatca.Server.Authority
import Zatca.Server.Warrants
import Zatca.Server.Provenance
import Zatca.Server.Lifecycle
import Zatca.Server.Replays
import Zatca.Storage.SharedDatabases
import Zatca.Server.Acknowledged
import Zatca.Server.Config
import Zatca.Server.Rotation
import Zatca.Core.InvoiceHash
