import Metering.Backend
import Metering.Backend.Call
import Metering.Breaker
import Metering.Cache
import Metering.Coalesce
import Metering.Config
import Metering.Config.Validation
import Metering.Context
import Metering.Cycle
import Metering.Failure
import Metering.Fallback.Chain
import Metering.Fallback.Optimism
import Metering.Ledger.Basic
import Metering.Ledger.Operation
import Metering.Ledger.Request
import Metering.Live
import Metering.Number.Binary64
import Metering.Number.Count
import Metering.Number.Decimal
import Metering.Number.Power
import Metering.Period
import Metering.Proofs.Ledger.Operation
import Metering.Proofs.Ledger.Run
import Metering.Proofs.RateLimit.Locality
import Metering.Proofs.Table
import Metering.Proofs.Time.Order
import Metering.Proofs.UsageKey
import Metering.Proration
import Metering.RateLimit.Bucket
import Metering.RateLimit.Decision
import Metering.RateLimit.Limiter
import Metering.RateLimit.Shared
import Metering.RateLimit.Window
import Metering.Record
import Metering.Service.Admin
import Metering.Service.Audit
import Metering.Service.Build
import Metering.Service.Command
import Metering.Service.Concurrent
import Metering.Service.Consume
import Metering.Service.Credit
import Metering.Service.Lookup
import Metering.Service.State
import Metering.Table
import Metering.Telemetry.Buffer
import Metering.Telemetry.Counters
import Metering.Telemetry.Event
import Metering.Text.Invisible
import Metering.Text.Quoted
import Metering.Threshold
import Metering.Time.Date
import Metering.Time.Duration
import Metering.Time.Instant
import Metering.Time.Stamp
import Metering.Wire.Answers
import Metering.Wire.Fields
import Metering.Wire.Json
import Metering.Wire.Reader
import Metering.Wire.Records
import Metering.Wire.Requests
import Metering.Wire.Settings
import Metering.Proofs.Ledger.KeySlot
import Metering.Proofs.Ledger.ExactlyOnce
import Metering.Proofs.Ledger.Accounting
import Metering.Proofs.RateLimit.Idle
import Metering.Proofs.RateLimit.KeyState
import Metering.Proofs.Isolation
import Metering.Proofs.Cache
import Metering.Proofs.Ledger.Coherence
import Metering.Proofs.Service.Triple
import Metering.Proofs.Service.Steady
import Metering.Proofs.Service.Reachable
import Metering.Proofs.Service.Rehearsal
import Metering.Proofs.Time.Calendar
import Metering.Proofs.Cycle
import Metering.Proofs.Breaker
import Metering.Proofs.Time.Elapsed
import Metering.Proofs.RateLimit.Spending
import Metering.Proofs.RateLimit.TokenRate
import Metering.Proofs.RateLimit.WindowCount
import Metering.Proofs.Service.Agreement
import Metering.Proofs.Service.Twins
import Metering.Proofs.Service.Transparency
import Metering.Proofs.Ledger.Books
import Metering.Proofs.Service.Reading
import Metering.Proofs.Service.Atomicity
import Metering.Proofs.Optimism
import Metering.Proofs.Service.Consuming
import Metering.Proofs.Service.Replay
import Metering.Proofs.Service.Retention
import Metering.Proofs.Service.Outage
import Metering.Proofs.Probing
import Metering.Proofs.Service.Interleaving
import Metering.Proofs.Service.Courses
import Metering.Proofs.Service.Rivalry
import Metering.Proofs.Service.LostCredit
import Metering.Proofs.Service.Script
import Metering.Proofs.Service.Scripted
import Metering.Proofs.Service.Candor
import Metering.Proofs.Service.Denials
import Metering.Proofs.Budget
import Metering.Proofs.Service.Spells
import Metering.Proofs.Service.OutageBudget
import Metering.Proofs.Ledger.TierChange
import Metering.Proofs.PeriodKey
import Metering.Proofs.Service.FirstFit
import Metering.Proofs.Ledger.Terms
import Metering.Proofs.Service.Sessions
import Metering.Proofs.Service.WellFormed
import Metering.Proofs.Recency
import Metering.Proofs.Coalescing
import Metering.Proofs.Service.Transitions
import Metering.Proofs.RateLimit.Sweeping
import Metering.Proofs.Recovery
import Metering.Proofs.Projection
import Metering.Proofs.Ledger.Commutation
import Metering.Proofs.Counters
import Metering.Proofs.Service.Conduct
import Metering.Proofs.Service.Announcing
import Metering.Proofs.Service.MeteredUnits
import Metering.Proofs.Declining
import Metering.Proofs.Snapshot
import Metering.Proofs.RateLimit.Retrying
import Metering.Proofs.RateLimit.Accrual
import Metering.Proofs.CycleSearch
import Metering.Proofs.Ledger.CreditPool
import Metering.Proofs.RateLimit.Words
import Metering.Proofs.Rounding
import Metering.Proofs.Threshold
import Metering.Proofs.Service.Warnings
import Metering.Proofs.Service.Watching
