import Mizan.Interleaving.Prog
import Mizan.Interleaving.Pool
import Mizan.Interleaving.Rely
import Mizan.Core.Types
import Mizan.Core.Numeric
import Mizan.Providers.Types
import Mizan.Wallet.Charge
import Mizan.Billing.Database
import Mizan.Billing.Operations
import Mizan.Billing.Effect
import Mizan.RunningTotal.Chain
import Mizan.Billing.Session
import Mizan.Billing.Isolation
import Mizan.Billing.Ledger
import Mizan.Gateway.Admission
import Mizan.Billing.Serial
import Mizan.Billing.History
import Mizan.Billing.Postgres
import Mizan.Billing.Sqlite
import Mizan.Billing.Serializable
import Mizan.Core.Redaction
import Mizan.Gateway.Completion
import Mizan.Gateway.Stream
import Mizan.Gateway.Metering
import Mizan.Limits.Acquire
import Mizan.Limits.Counter
import Mizan.Limits.Concurrency
import Mizan.Daemon.Digest
import Mizan.Daemon.Request
import Mizan.Daemon.Auth
import Mizan.Daemon.Signature
import Mizan.Daemon.Replay
import Mizan.Dispatch.Jobs
import Mizan.Dispatch.Operations
import Mizan.Dispatch.Store
import Mizan.Dispatch.Invariant
import Mizan.Dispatch.Protocol
import Mizan.Dispatch.Programs
import Mizan.Dispatch.Safety
import Mizan.Dispatch.Outcome
import Mizan.Gateway.Handler
import Mizan.Gateway.Metrics
import Mizan.Machine.Run
import Mizan.Gateway.Accounting
import Mizan.Gateway.Exits
import Mizan.Gateway.Cancellation
import Mizan.Limits.Leases
import Mizan.Limits.Lifetimes
import Mizan.Limits.Rate
import Mizan.Billing.Pool
import Mizan.Billing.Blocking
import Mizan.Core.Text
import Mizan.Delimited.Blocks
import Mizan.Providers.Sse
import Mizan.Providers.Chunking
import Mizan.Billing.Columns
import Mizan.Billing.Settle
import Mizan.Billing.Backends
import Mizan.Auth.Operations
import Mizan.Auth.AdminSeed
import Mizan.Billing.AllOrNothing
import Mizan.Billing.Usage
import Mizan.Wallet.Exact
import Mizan.Daemon.Nodes
import Mizan.Table.Evolve
import Mizan.Daemon.Lifecycle
import Mizan.Gateway.Catalog
import Mizan.Gateway.Listing
import Mizan.Gateway.Disabled
import Mizan.Core.Secrets
import Mizan.Dispatch.Errors
import Mizan.Gateway.Failures
import Mizan.Auth.Credentials
import Mizan.Registry.Log
import Mizan.Auth.History
import Mizan.Auth.Effects
import Mizan.Registry.Records
import Mizan.Auth.Acceptance
import Mizan.Auth.Checks
import Mizan.Auth.Validity
import Mizan.Core.Hiding
import Mizan.Delimited.Quoted
import Mizan.Sql.Placeholders
import Mizan.Rtk.Filter
import Mizan.Limits.Charges
import Mizan.Limits.Calls
import Mizan.Limits.Refusal
import Mizan.Limits.Slots
import Mizan.Limits.Rejection
import Mizan.Metrics.Registry
import Mizan.Metrics.Aggregation
import Mizan.Decimal.Order
import Mizan.Timestamps.Comparison
import Mizan.Gateway.Events
import Mizan.Providers.DataEvents
import Mizan.Gateway.Reported
import Mizan.Providers.Source
import Mizan.Delimited.Escaped
import Mizan.Metrics.Exposition
import Mizan.TextFormat.Samples
import Mizan.Metrics.Series
import Mizan.Metrics.Distinct
import Mizan.Metrics.Growth
import Mizan.Interleaving.Asks
import Mizan.Limits.Expiry
import Mizan.Billing.RoundTrip
import Mizan.Billing.Legible
import Mizan.Billing.Listing
import Mizan.Table.Paging
import Mizan.Billing.Paging
import Mizan.Connections.Secrets
import Mizan.Connections.AuthConfig
import Mizan.Connections.Create
import Mizan.Connections.Registration
import Mizan.Core.Lines
import Mizan.Providers.TestParser
import Mizan.Providers.Agreement
import Mizan.Providers.Shipped
import Mizan.Daemon.Agreement
import Mizan.Gateway.Wire
import Mizan.Fleet.System
import Mizan.Fleet.Revocation
import Mizan.Catalogue.Programs
import Mizan.Catalogue.Invariant
import Mizan.Catalogue.Lifecycle
import Mizan.Catalogue.Sound
import Mizan.Catalogue.Served
import Mizan.Catalogue.Listings
import Mizan.Api.System
import Mizan.Api.AppendOnly
