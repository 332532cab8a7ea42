import Bookit.Lib.System
import Bookit.Lib.Prog
import Bookit.Lib.Alone
import Bookit.Lib.Lockstep
import Bookit.Lib.Tasks
import Bookit.Lib.BitField
import Bookit.Lib.Crc
import Bookit.Lib.Threads
import Bookit.Lib.Stages
import Bookit.Lib.Table
import Bookit.Lib.OneTime
import Bookit.Lib.OrderedLog
import Bookit.Lib.Expiring
import Bookit.Lib.SortedSet
import Bookit.Data.Json
import Bookit.Outbox.Store
import Bookit.Outbox.NoLoss
import Bookit.Outbox.Exclusive
import Bookit.Search.Store
import Bookit.Search.InOrder
import Bookit.Search.Shows
import Bookit.Search.ShowUpdates
import Bookit.Search.NoPoison
import Bookit.Search.Overtaken
import Bookit.Lib.Feed
import Bookit.Search.Producers
import Bookit.Search.ProducerInvariant
import Bookit.Search.ProducerSteps
import Bookit.Search.Converges
import Bookit.Redis.Store
import Bookit.Redis.Effects
import Bookit.Redis.SingleNodeLock
import Bookit.Locks.DualKey
import Bookit.Locks.MutualExclusion
import Bookit.Locks.AtomicScripts
import Bookit.Payments.Store
import Bookit.Payments.Request
import Bookit.Payments.Processor
import Bookit.Payments.Invariant
import Bookit.Payments.System
import Bookit.Payments.Idempotency
import Bookit.Payments.Booking
import Bookit.Payments.Cancellation
import Bookit.Payments.CancelOnce
import Bookit.Payments.CheckoutRun
import Bookit.Payments.CrashPoints
import Bookit.Payments.Traces
import Bookit.Payments.Razorpay
import Bookit.Payments.Refunds
import Bookit.Payments.ShopContract
import Bookit.Payments.Programs
import Bookit.Payments.PaymentBinding
import Bookit.Payments.FailedRequests
import Bookit.Redis.Events
import Bookit.LockServer.Handlers
import Bookit.LockServer.BookedCheck
import Bookit.LockServer.Actors
import Bookit.Accounts.Endpoints
import Bookit.Accounts.AdminTokens
import Bookit.Accounts.ResetTokens
import Bookit.Gateway.Store
import Bookit.Gateway.RateLimit
import Bookit.Gateway.Keeper
import Bookit.Gateway.System
import Bookit.Gateway.Effects
import Bookit.Gateway.Commands
import Bookit.Gateway.Admission
import Bookit.Gateway.SeatRegistration
import Bookit.Gateway.SoleRequest
import Bookit.Gateway.RejectedRequests
import Bookit.Gateway.LockResults
import Bookit.Gateway.BookedSeats
import Bookit.Gateway.ExpiryWorkers
import Bookit.Gateway.PrematureRelease
import Bookit.Gateway.CheckoutGuard
import Bookit.Gateway.LockedFields
import Bookit.Gateway.LockTakers
import Bookit.Gateway.LeftLocked
import Bookit.Gateway.Eviction
import Bookit.Schedules.Store
import Bookit.Schedules.Lifecycle
import Bookit.Web.SeatLocking
import Bookit.Web.RoomEvents
import Bookit.Web.SeatMap
import Bookit.Web.SeatBitmap
import Bookit.Web.SoldSeats
import Bookit.Lib.StableSort
import Bookit.Lib.Pages
import Bookit.Web.CachesInvalidated
import Bookit.Web.ListServer
import Bookit.Web.Registry
import Bookit.Web.SeatCounts
import Bookit.Web.CountsAgree
import Bookit.Web.SeatNumbering
import Bookit.Web.SeatsNumbered
import Bookit.Web.ScheduleHandlers
import Bookit.Web.BookingOpens
import Bookit.Web.BaseSeats
import Bookit.Gateway.Answers
import Bookit.Redis.Remains
import Bookit.Redis.Pools
import Bookit.Redis.Crc16
import Bookit.Redis.LockedSeats
import Bookit.Redis.Replication
import Bookit.Redis.ClusterLock
import Bookit.Redis.HashSlots
import Bookit.Redis.SameAnswers
import Bookit.Redis.QueueEntries
import Bookit.Gateway.CancelWins
import Bookit.Gateway.AskedCancellations
import Bookit.Gateway.FreeSlots
import Bookit.Gateway.Handover
import Bookit.Gateway.OrphanedSlots
import Bookit.Gateway.Rebooking
import Bookit.Gateway.RecoveryView
import Bookit.Circuit.Breaker
import Bookit.Circuit.OpenPeriod
import Bookit.Circuit.Probes
import Bookit.Backend.Store
import Bookit.Backend.Tables
import Bookit.Backend.Turns
import Bookit.Backend.Services
import Bookit.Backend.Server
import Bookit.Backend.Runs
import Bookit.Backend.Agreement
import Bookit.Backend.Lifecycle
import Bookit.Backend.Stuck
import Bookit.Notifications.Store
import Bookit.Notifications.Tickets
import Bookit.Web.CacheKeys
import Bookit.Web.ShowsGrid
import Bookit.Lib.Regroup
import Bookit.Lib.Pieces
import Bookit.Web.SeatDesigner
import Bookit.Web.DesignerNames
import Bookit.Web.DesignerRoundTrip
import Bookit.Web.DesignerLayouts
import Bookit.Web.LayoutStore
import Bookit.Web.LayoutEdits
import Bookit.Web.LayoutSaves
