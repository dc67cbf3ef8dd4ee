import FetchNow.Theory.Batches
import FetchNow.Theory.Intervals
import FetchNow.Theory.Transactions
import FetchNow.Theory.Leases
import FetchNow.Basic
import FetchNow.Downloads.States
import FetchNow.Quota.Models
import FetchNow.Downloads.Models
import FetchNow.Quota.Policy
import FetchNow.Quota.Delivery
import FetchNow.Quota.Ledger
import FetchNow.Quota.Calls
import FetchNow.Quota.Coverage
import FetchNow.Quota.Fragments
import FetchNow.Downloads.Repository
import FetchNow.Downloads.Service
import FetchNow.Quota.Reconcile
import FetchNow.Downloads.Promote
import FetchNow.Downloads.Steps
import FetchNow.Downloads.Calls
import FetchNow.Downloads.Coherence
import FetchNow.Payments.Models
import FetchNow.Quota.Reconciler
import FetchNow.Downloads.Fencing
import FetchNow.Downloads.Cancellation
import FetchNow.Downloads.Constraints
import FetchNow.Downloads.Executor
import FetchNow.Downloads.Artifacts
import FetchNow.Downloads.Hygiene
import FetchNow.Downloads.OrphanSweep
import FetchNow.Quota.Pruning
import FetchNow.Theory.Sessions
import FetchNow.Payments.Robokassa
import FetchNow.Payments.Service
import FetchNow.Payments.Sessions
import FetchNow.Payments.Premium
import FetchNow.PgBackup.Root
import FetchNow.PgBackup.Prune
import FetchNow.PgBackup.Migrations
import FetchNow.Theory.Sha256
import FetchNow.Theory.Merging
import FetchNow.MediaInspection.Models
import FetchNow.MediaInspection.MuxPairing
import FetchNow.MediaInspection.Normalize
import FetchNow.Downloads.Selection
import FetchNow.Theory.Faults
import FetchNow.Release.Documents
import FetchNow.Release.CurrentState
import FetchNow.Release.Journals
import FetchNow.Release.DeployRoot
import FetchNow.Release.Rollout
import FetchNow.Release.Recover
import FetchNow.Release.Frames
import FetchNow.Release.Outcome
import FetchNow.Jobs.Repository
import FetchNow.Jobs.Fencing
import FetchNow.Theory.Semaphores
import FetchNow.Delivery.Routes
import FetchNow.Downloads.Grants
import FetchNow.Delivery.BrowserGrants
import FetchNow.Theory.Exchanges
import FetchNow.Url.Split
import FetchNow.Url.Parse
import FetchNow.Network.Confinement
import FetchNow.Network.Client
import FetchNow.Url.Destination
import FetchNow.Audit.Json
import FetchNow.Audit.Requirements
import FetchNow.Audit.Exceptions
import FetchNow.Audit.Reports
import FetchNow.Audit.Sections
import FetchNow.Release.RecoverOutcome
import FetchNow.MediaFlow.Models
import FetchNow.MediaFlow.StateMachine
import FetchNow.MediaFlow.Controller
import FetchNow.MediaFlow.Steps
import FetchNow.MediaFlow.Drivers
import FetchNow.MediaFlow.Soundness
import FetchNow.Theory.Rounding
import FetchNow.Payments.Amounts
import FetchNow.Text.Unicode
import FetchNow.Text.Json
import FetchNow.Downloads.Rfc8187
import FetchNow.Delivery.RangeParse
import FetchNow.Theory.Segments
import FetchNow.Url.ProviderIdentity
import FetchNow.Url.CanonicalIdentity
import FetchNow.Theory.Reachability
import FetchNow.PgBackup.AlembicGraph
import FetchNow.PgBackup.Transitions
import FetchNow.Url.Canonical
import FetchNow.Theory.Separators
import FetchNow.Downloads.Filename
import FetchNow.Downloads.SanitizedStems
import FetchNow.Downloads.SafeFilename
import FetchNow.Theory.TieBreaks
import FetchNow.Theory.Agreement
import FetchNow.Downloads.CatalogOrder
import FetchNow.Theory.SlidingWindows
import FetchNow.Quota.Window
import FetchNow.Theory.Pacing
import FetchNow.Delivery.Stream
import FetchNow.Url.Admission
import FetchNow.Theory.Calendar
import FetchNow.Theory.Texts
import FetchNow.Downloads.SnapshotCodec
import FetchNow.Downloads.SnapshotRoundTrip
import FetchNow.Resolution.Service
import FetchNow.Resolution.Chain
import FetchNow.MediaFlow.Poller
import FetchNow.MediaFlow.PollerSchedule
import FetchNow.Theory.Grouping
import FetchNow.Theory.Comparators
import FetchNow.Theory.Utf16
import FetchNow.Theory.Utf8Prefix
import FetchNow.MediaFlow.EcmaScript
import FetchNow.MediaFlow.Quality
import FetchNow.MediaFlow.QualityRows
import FetchNow.MediaFlow.WholeNumbers
import FetchNow.MediaFlow.QualityView
import FetchNow.MediaFlow.Filenames
import FetchNow.MediaFlow.FilenameParity
import FetchNow.MediaFlow.FilenameHeader
import FetchNow.Release.Stabilize
import FetchNow.Release.StabilizeGate
import FetchNow.Release.EnvFile
import FetchNow.Release.RollbackEnv
import FetchNow.PgBackup.Attestation
import FetchNow.PgBackup.AttestationCodec
import FetchNow.PgBackup.AttestationOrder
import FetchNow.PgBackup.AttestationRuns
import FetchNow.Theory.LinkedTrees
import FetchNow.Release.Archive
import FetchNow.Release.ArchiveContainment
import FetchNow.MediaInspection.Numbers
import FetchNow.Downloads.FfprobeParse
import FetchNow.Downloads.FfprobeAccept
import FetchNow.MediaInspection.YtdlpParse
import FetchNow.MediaInspection.YtdlpBounds
import FetchNow.MediaFlow.Answers
import FetchNow.MediaFlow.Grants
import FetchNow.MediaFlow.Reachable
import FetchNow.MediaFlow.Runs
