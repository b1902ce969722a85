import Morai.Foundation.OrderedGroups
import Morai.Foundation.KeyedTable
import Morai.Python.Decimal
import Morai.Python.Values
import Morai.Db.Models
import Morai.Crypto.Envelope
import Morai.Ledger.Fills
import Morai.Ledger.Events
import Morai.Ledger.Pairing
import Morai.Ledger.CashConservation
import Morai.Foundation.RelationalQuery
import Morai.Ledger.ResolveQuery
import Morai.Foundation.ReadCompareSkip
import Morai.Ledger.SyncEvents
import Morai.Ledger.ScopedReplay
import Morai.Foundation.Runs
import Morai.Ledger.FillAccounting
import Morai.Ingest.ExtractFills
import Morai.Ingest.VendorCash
import Morai.Ingest.Validation
import Morai.Foundation.WindowCover
import Morai.Ingest.BrokerTransactions
import Morai.Ingest.SyncWindows
import Morai.Vendor.Connections
import Morai.Ingest.SyncUser
import Morai.Ingest.ElementsLand
import Morai.Worker.SyncUserTask
import Morai.Worker.AccountHistory
import Morai.Foundation.HeldLocks
import Morai.Worker.ConnectionTransactions
import Morai.Worker.NoHole
import Morai.Worker.GrantOrder
import Morai.Worker.SoleJob
import Morai.Foundation.RotatingSecret
import Morai.Worker.LiveToken
import Morai.Foundation.Attempts
import Morai.Worker.SyncAttempt
import Morai.Worker.VendorRefusals
import Morai.Ingest.Confluence
import Morai.Worker.StoresAgree
import Morai.Crypto.Rotation
import Morai.Ledger.PlainLedger
import Morai.Identity.Tables
import Morai.Identity.Deletion
import Morai.Identity.Requests
import Morai.Identity.DataKeys
import Morai.Identity.DeletionRuns
import Morai.Ledger.ConcurrentSync
import Morai.Ingest.Reingest
import Morai.Vendor.WriteBack
import Morai.Python.Timestamp
import Morai.Crypto.Slots
import Morai.Crypto.RotationRace
import Morai.Worker.SyncedMark
import Morai.Api.ManualSync
import Morai.Foundation.RowLocks
import Morai.Identity.ConcurrentRequests
import Morai.Identity.RequestSteps
import Morai.Identity.RequestInvariants
import Morai.Identity.SoleAdmin
import Morai.Identity.SessionAuthority
import Morai.Identity.RedeemedTokens
import Morai.Identity.PasswordAuthority
import Morai.Foundation.TwoRuns
import Morai.Identity.RowSecurity
import Morai.Identity.TenantSessions
import Morai.Identity.TenantDeletion
import Morai.Api.TenantRequests
import Morai.Api.TenantIsolation
import Morai.Api.TenantRuns
import Morai.Ingest.FirstWins
import Morai.Ledger.Partition
import Morai.Foundation.GroupPattern
import Morai.Identity.RlsContext
import Morai.Ingest.LegAccounting
import Morai.Ingest.WindowsEnd
import Morai.Ledger.EventBatches
import Morai.Python.Digits
import Morai.Ledger.OccSymbol
import Morai.Ledger.RollGuard
import Morai.Ledger.FillIdsHash
import Morai.Db.SplitSql
import Morai.Foundation.NewestTicks
import Morai.Foundation.SerialTable
import Morai.Identity.AuditTrail
import Morai.Procrastinate.Admitted
import Morai.Procrastinate.EndedJobs
import Morai.Procrastinate.EventLog
import Morai.Procrastinate.LockOrder
import Morai.Procrastinate.LoneWorker
import Morai.Procrastinate.PeriodicTicks
import Morai.Worker.SyncTick
import Morai.Api.ConnectionHealth
import Morai.Api.DeletedTenants
import Morai.Crypto.MasterKey
import Morai.Procrastinate.AppRole
