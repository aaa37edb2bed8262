import TempleConsign.Lib.Service
import TempleConsign.Lib.Store
import TempleConsign.Lib.Run
import TempleConsign.Lib.ReadCommitted
import TempleConsign.Lib.Separated
import TempleConsign.Lib.UniqueIndex
import TempleConsign.Lib.PrioritySearch
import TempleConsign.Lib.Rotation
import TempleConsign.Lib.Codec
import TempleConsign.Lib.Loop
import TempleConsign.Lib.KeyedRows
import TempleConsign.Lib.Rounding
import TempleConsign.Lib.WeightedMean
import TempleConsign.Lib.Register
import TempleConsign.Lib.Paging
import TempleConsign.Lib.Csv
import TempleConsign.Lib.CivilTime
import TempleConsign.Lib.Grouping
import TempleConsign.Lib.UuidText
import TempleConsign.Lib.ObjectLog
import TempleConsign.Lib.Quota
import TempleConsign.Lib.Rank
import TempleConsign.Lib.Partitioned
import TempleConsign.Lib.Grown
import TempleConsign.Lib.Savepoints
import TempleConsign.Lib.Aligned
import TempleConsign.Lib.ReadThrough
import TempleConsign.Lib.Upsert
import TempleConsign.Lib.KeyRing
import TempleConsign.EquipmentStatus
import TempleConsign.Database
import TempleConsign.Calendar
import TempleConsign.Appraisal
import TempleConsign.Signing
import TempleConsign.Approval
import TempleConsign.ChangeRequests
import TempleConsign.Publication
import TempleConsign.Lifecycle
import TempleConsign.Terminal
import TempleConsign.NoDoubleBooking
import TempleConsign.NextAvailable
import TempleConsign.RecordLocks
import TempleConsign.Payload
import TempleConsign.NotificationQueue
import TempleConsign.NotificationSafety
import TempleConsign.Templates
import TempleConsign.Notices
import TempleConsign.ServiceNotices
import TempleConsign.RateLimit
import TempleConsign.CredentialReveal
import TempleConsign.Login
import TempleConsign.ApprovedUnique
import TempleConsign.Contracts
import TempleConsign.Webhooks
import TempleConsign.ContractDispatch
import TempleConsign.SignedBeforeListed
import TempleConsign.Listings
import TempleConsign.PublicVisibility
import TempleConsign.Reapproval
import TempleConsign.Sessions
import TempleConsign.TwoFactor
import TempleConsign.DisabledAccounts
import TempleConsign.OneTimeTokens
import TempleConsign.RefreshRotation
import TempleConsign.ConcurrentScheduling
import TempleConsign.WebClient
import TempleConsign.WorkerLoop
import TempleConsign.Outbox
import TempleConsign.ProducerPayloads
import TempleConsign.PayloadContracts
import TempleConsign.IdempotencyKeys
import TempleConsign.LostNotifications
import TempleConsign.Timeline
import TempleConsign.ScheduleStatus
import TempleConsign.Deactivation
import TempleConsign.ConcurrentResolutions
import TempleConsign.LeadRouting
import TempleConsign.RoutingOrder
import TempleConsign.RoutingRules
import TempleConsign.RoutingPriorities
import TempleConsign.RoutingTargets
import TempleConsign.RuleTester
import TempleConsign.RoundRobin
import TempleConsign.IntakeRouting
import TempleConsign.UnblockedIntake
import TempleConsign.LockExclusivity
import TempleConsign.AccountDeletion
import TempleConsign.AccountRows
import TempleConsign.DeletionGrace
import TempleConsign.ErasureFinal
import TempleConsign.ErasureComplete
import TempleConsign.Scoring
import TempleConsign.OverallScore
import TempleConsign.ReportScores
import TempleConsign.SubmissionDrafts
import TempleConsign.DraftPatch
import TempleConsign.StoredScore
import TempleConsign.PhoneDraft
import TempleConsign.DraftRoundTrip
import TempleConsign.ScoreAgreement
import TempleConsign.WireFormat
import TempleConsign.AutoSave
import TempleConsign.TokenCoalescing
import TempleConsign.Categories
import TempleConsign.CategoryVersions
import TempleConsign.Columns
import TempleConsign.Catalog
import TempleConsign.CatalogImport
import TempleConsign.CatalogConstraints
import TempleConsign.CategoryExposure
import TempleConsign.CategoryDeletion
import TempleConsign.VersionChains
import TempleConsign.ImportedRows
import TempleConsign.ImportConvergence
import TempleConsign.ExportImport
import TempleConsign.RoleMirror
import TempleConsign.AttendeeMirror
import TempleConsign.HealthAlerts
import TempleConsign.VersionedRows
import TempleConsign.RedFlags
import TempleConsign.RuleEvaluation
import TempleConsign.SubmitSnapshot
import TempleConsign.RuleOrder
import TempleConsign.StoredRules
import TempleConsign.PhotoSlots
import TempleConsign.Operations
import TempleConsign.OperationsListing
import TempleConsign.OperationsExport
import TempleConsign.Reporting
import TempleConsign.ReportRanges
import TempleConsign.AppConfigRegistry
import TempleConsign.IntakeFields
import TempleConsign.StorageKeys
import TempleConsign.StoredReports
import TempleConsign.DataExports
import TempleConsign.GuessLimits
import TempleConsign.PriorityBackfill
import TempleConsign.AuditPartitions
import TempleConsign.AppendOnlyAudit
import TempleConsign.RateWindows
import TempleConsign.MapsCache
import TempleConsign.DeviceTokens
import TempleConsign.PushDelivery
import TempleConsign.CredentialVault
import TempleConsign.PushSetup
import TempleConsign.WebLocks
import TempleConsign.Lib.Views
import TempleConsign.CustomerPortal
import TempleConsign.PortalIsolation
import TempleConsign.PortalProvenance
import TempleConsign.SignOut
import TempleConsign.SignOutFinal
import TempleConsign.Lib.Interaction
import TempleConsign.BodyLimit
import TempleConsign.Lib.Journal
import TempleConsign.Assignments
