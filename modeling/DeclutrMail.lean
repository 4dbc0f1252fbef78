import DeclutrMail.Interleaving.RelyGuarantee
import DeclutrMail.Metering.TokenBucket
import DeclutrMail.Quota.GmailQuotaLimiter
import DeclutrMail.Metering.StackedDeadlines
import DeclutrMail.Collections.InsertionMap
import DeclutrMail.Interleaving.Triple
import DeclutrMail.Interleaving.Transactions
import DeclutrMail.Outbox.Dispatcher
import DeclutrMail.Outbox.Invariant
import DeclutrMail.Outbox.Interference
import DeclutrMail.Outbox.Effects
import DeclutrMail.Outbox.Tick
import DeclutrMail.Outbox.Guarantees
import DeclutrMail.Sync.Batching
import DeclutrMail.Sync.Unreadable
import DeclutrMail.LabelAction.Worker
import DeclutrMail.LabelAction.System
import DeclutrMail.LabelAction.Protocol
import DeclutrMail.LabelAction.Invariant
import DeclutrMail.LabelAction.Interference
import DeclutrMail.LabelAction.Mark
import DeclutrMail.LabelAction.Attempt
import DeclutrMail.LabelAction.Forward
import DeclutrMail.LabelAction.Revert
import DeclutrMail.LabelAction.Refinement
import DeclutrMail.LabelAction.Protection
import DeclutrMail.LabelAction.Terminal
import DeclutrMail.LabelAction.Undo
import DeclutrMail.LabelAction.Restoration
import DeclutrMail.Billing.Entitlements
import DeclutrMail.Billing.Pass
import DeclutrMail.Billing.Sweep
import DeclutrMail.Billing.Subscription
import DeclutrMail.Billing.Founding
import DeclutrMail.Billing.Events
import DeclutrMail.Billing.Webhook
import DeclutrMail.Billing.VerdictPass
import DeclutrMail.Billing.System
import DeclutrMail.Billing.Commits
import DeclutrMail.Billing.Ordering
import DeclutrMail.Billing.PassEvents
import DeclutrMail.Billing.Verdicts
import DeclutrMail.Billing.FoundingSeats
import DeclutrMail.Billing.Reconciliation
import DeclutrMail.Billing.Writers
import DeclutrMail.Billing.Convergence
import DeclutrMail.Triage.Scoring
import DeclutrMail.Sync.Headers
import DeclutrMail.Sync.Ingest
import DeclutrMail.Sync.SenderIndex
import DeclutrMail.Sync.SenderAgreement
import DeclutrMail.Actions.BulkCleanup
import DeclutrMail.Actions.CleanupQuota
import DeclutrMail.Later.SnoozeWake
import DeclutrMail.Later.TimerVersions
import DeclutrMail.Sync.AttemptFence
import DeclutrMail.Sync.Rescan
import DeclutrMail.Sync.SkippedRows
import DeclutrMail.Replication.Lag
import DeclutrMail.Sync.Mirroring
import DeclutrMail.Sync.Convergence
import DeclutrMail.Actions.Rows
import DeclutrMail.Undo.Journal
import DeclutrMail.Undo.Cascade
import DeclutrMail.Undo.Expiry
import DeclutrMail.Senders.AutomaticProtection
import DeclutrMail.Senders.ProtectionSweeps
import DeclutrMail.Unsubscribe.Bulk
import DeclutrMail.Unsubscribe.BulkReplay
import DeclutrMail.Later.MirrorRestore
import DeclutrMail.LabelAction.Rearm
import DeclutrMail.Interleaving.UniqueKeys
import DeclutrMail.Unsubscribe.Intents
import DeclutrMail.Unsubscribe.IntentReplay
import DeclutrMail.Actions.Enqueue
import DeclutrMail.Actions.LiveJobs
import DeclutrMail.Actions.Overtaking
import DeclutrMail.Interleaving.Embedding
import DeclutrMail.Recovery.Lineage
import DeclutrMail.Network.SsrfGuard
import DeclutrMail.Interleaving.Turns
import DeclutrMail.Unsubscribe.Execution
import DeclutrMail.Unsubscribe.ExecutionOnce
import DeclutrMail.EmailRuntime.Lease
import DeclutrMail.EmailRuntime.NoReturn
import DeclutrMail.Autopilot.Approvals
import DeclutrMail.Autopilot.RuleSystem
import DeclutrMail.Autopilot.RuleLocks
import DeclutrMail.Autopilot.RuleCalls
import DeclutrMail.Autopilot.Approved
import DeclutrMail.Autopilot.RuleSaves
import DeclutrMail.Autopilot.Outstanding
import DeclutrMail.Senders.KeepFinality
import DeclutrMail.Autopilot.UnsubscribeOnce
import DeclutrMail.Unsubscribe.NewestStatus
import DeclutrMail.Numbers.Floats
import DeclutrMail.Triage.Cascade
import DeclutrMail.Triage.CascadeLaws
import DeclutrMail.Collections.Tally
import DeclutrMail.Sync.CategoryRecount
import DeclutrMail.Auth.RefreshTokens
import DeclutrMail.Sync.TimeseriesReconcile
import DeclutrMail.Interleaving.Requests
import DeclutrMail.LabelAction.Metering
import DeclutrMail.Sync.CoalescedQueue
import DeclutrMail.Sync.PushWebhook
import DeclutrMail.Sync.PushCoverage
import DeclutrMail.EmailSend.Programs
import DeclutrMail.EmailSend.Queue
import DeclutrMail.EmailSend.Deduplication
import DeclutrMail.Triage.CategorySweep
import DeclutrMail.Triage.StaleMarks
import DeclutrMail.Effects.Traced
import DeclutrMail.Workers.BaseWorker
import DeclutrMail.Sync.AddressKeys
import DeclutrMail.Calendar.Dates
import DeclutrMail.Quota.RequestLimiter
import DeclutrMail.Actions.CleanupPeriods
import DeclutrMail.Autopilot.QuietHours
import DeclutrMail.Briefs.LocalWindow
import DeclutrMail.Briefs.LocalDays
import DeclutrMail.Billing.Buckets
import DeclutrMail.Metering.SlidingWindow
import DeclutrMail.Quota.RateLimiter
import DeclutrMail.Workers.BoundedMap
import DeclutrMail.Workers.Limiter
import DeclutrMail.Deletion.AccountPurge
import DeclutrMail.Deletion.PointOfNoReturn
import DeclutrMail.Collections.Keyset
import DeclutrMail.Listings.ActivityFeed
import DeclutrMail.Listings.SecurityEvents
import DeclutrMail.Consent.Gate
import DeclutrMail.Consent.Grants
import DeclutrMail.Auth.LastUsed
import DeclutrMail.Auth.TokenUnwrapCache
import DeclutrMail.Adapters.LlmCircuitBreaker
import DeclutrMail.Autopilot.PreviewStore
