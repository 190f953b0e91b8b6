import AgentWorth.Lib.Runs
import AgentWorth.Lib.Table
import AgentWorth.Lib.Chain
import AgentWorth.Lib.Codec
import AgentWorth.Lib.Decimal
import AgentWorth.Lib.Json
import AgentWorth.Lib.IsoStamp
import AgentWorth.Finance.Reconcile
import AgentWorth.Rails.Registry
import AgentWorth.Executor.SettleOnce
import AgentWorth.Executor.Refunds
import AgentWorth.Executor.Issuer
import AgentWorth.Executor.Authority
import AgentWorth.Executor.Booking
import AgentWorth.Disclosure.Builders
import AgentWorth.Executor.Challenge
import AgentWorth.Executor.Replay
import AgentWorth.Core.Fx
import AgentWorth.Core.Gate
import AgentWorth.Core.GateSpec
import AgentWorth.Core.PolicyCommitment
import AgentWorth.Core.RiskChain
import AgentWorth.Core.Store
import AgentWorth.Core.Blocklist
import AgentWorth.Core.Tamper
import AgentWorth.Core.Records
import AgentWorth.Core.KeyCustody
import AgentWorth.Audit.Export
import AgentWorth.Store.Contract
import AgentWorth.Store.Sqlite
import AgentWorth.Store.Calls
import AgentWorth.Store.Postgres
import AgentWorth.Store.Rehydrate
import AgentWorth.Store.Coherence
import AgentWorth.Store.Notify
import AgentWorth.Store.Reload
import AgentWorth.Store.Refinement
import AgentWorth.Store.Flush
import AgentWorth.Executor.AskOnce
import AgentWorth.Executor.Atomicity
import AgentWorth.Executor.Smurfing
import AgentWorth.Evals.Process
import AgentWorth.Executor.Trajectory
import AgentWorth.Executor.Drain
import AgentWorth.Executor.Velocity
import AgentWorth.Executor.Caps
import AgentWorth.Executor.Breaker
import AgentWorth.Ingress.Idempotency
import AgentWorth.Ingress.RateLimit
import AgentWorth.Ingress.Server
import AgentWorth.Compliance.Additive
import AgentWorth.Compliance.Sanctions
import AgentWorth.Identity.Binding
import AgentWorth.Identity.BaseText
import AgentWorth.Identity.SiwaVerifier
import AgentWorth.Proxy.X402Proxy
import AgentWorth.Ap2.IntentMandate
import AgentWorth.Proxy.Selection
import AgentWorth.Benchmark.Fingerprints
import AgentWorth.Benchmark.Insertion
import AgentWorth.Disclosure.Corpus
import AgentWorth.Core.FxDinero
import AgentWorth.Erc7710.Bounds
import AgentWorth.Erc7710.RoundTrip
import AgentWorth.Erc7710.Codec
import AgentWorth.Erc7710.Expiry
import AgentWorth.Compliance.Refusals
import AgentWorth.Compliance.Package
import AgentWorth.Store.Chronology
import AgentWorth.Obs.SamePolicy
import AgentWorth.Store.Periods
import AgentWorth.Finance.Waiting
import AgentWorth.Finance.Forecast
import AgentWorth.Core.Canonical
import AgentWorth.Executor.Noninterference
import AgentWorth.Core.LeastPrivilege
import AgentWorth.Erc7710.Hashing
import AgentWorth.Erc7710.Signing
import AgentWorth.Executor.Lifecycle
import AgentWorth.Mcp.Confinement
import AgentWorth.Proxy.Backed
import AgentWorth.Audit.Offline
import AgentWorth.Earn.Income
import AgentWorth.Lib.Histories
import AgentWorth.Agent.Notebook
import AgentWorth.Lib.Dialogue
import AgentWorth.Rails.Network
import AgentWorth.Rails.Railed
import AgentWorth.Rails.Progress
import AgentWorth.Rails.Orders
