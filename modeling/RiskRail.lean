import RiskRail.Transition.Core
import RiskRail.Clarity.Core
import RiskRail.Clarity.Chain
import RiskRail.Clarity.Ownership
import RiskRail.Registry.Core
import RiskRail.Registry.Log
import RiskRail.Registry.Authority
import RiskRail.Auth.Challenge
import RiskRail.Numeric.Nearest
import RiskRail.Numeric.Rounding
import RiskRail.Numeric.Decimal
import RiskRail.Engine.Portfolio
import RiskRail.Engine.Risk
import RiskRail.Engine.Shares
import RiskRail.Engine.Loan
import RiskRail.Attestation.Publisher
import RiskRail.Database.RiskSnapshot
import RiskRail.Attestation.Publishable
import RiskRail.Attestation.Sentinel
import RiskRail.Attestation.Throttle
import RiskRail.Attestation.Worker
import RiskRail.Database.Portfolio
import RiskRail.Indexer.Refresh
import RiskRail.Queue.Core
import RiskRail.Report.Worker
import RiskRail.Alerts.Evaluator
import RiskRail.Alerts.Worker
import RiskRail.Alerts.Crossing
import RiskRail.Chainhook.Parser
import RiskRail.Chainhook.Ingest
import RiskRail.Alerts.Rearm
import RiskRail.Javascript.Object
import RiskRail.Report.Canonical
import RiskRail.Sdk.Session
import RiskRail.Attestation.Job
import RiskRail.Chainhook.Confirmations
import RiskRail.Attestation.Confirmation
import RiskRail.Attestation.Skipping
import RiskRail.Attestation.Freshness
import RiskRail.Indexer.Retry
import RiskRail.Alerts.Policy
import RiskRail.Javascript.Map
import RiskRail.Oracle.CoinGecko
import RiskRail.Adapters.BitPay
import RiskRail.Adapters.Native
import RiskRail.Engine.Inputs
import RiskRail.Indexer.UnknownToken
import RiskRail.Registry.Reads
import RiskRail.ProtocolRegistry.Core
import RiskRail.ProtocolRegistry.History
import RiskRail.Consumer.Core
import RiskRail.Consumer.Approvals
import RiskRail.Javascript.Numeral
import RiskRail.Policy.Core
import RiskRail.Stacks.Clarity
import RiskRail.Policy.Reader
import RiskRail.Policy.History
import RiskRail.Markup.Tokenizer
import RiskRail.Alerts.Rendering
import RiskRail.Web.PolicyForm
import RiskRail.Web.Thresholds
import RiskRail.Web.Session
import RiskRail.Database.Mirror
import RiskRail.Engine.Stress
import RiskRail.Engine.Revaluation
import RiskRail.Sdk.Repeats
import RiskRail.Auth.Wallet
import RiskRail.Javascript.Parse
import RiskRail.Report.Identity
import RiskRail.Webhooks.Delivery
import RiskRail.Webhooks.Retries
import RiskRail.Engine.Scenario
import RiskRail.Engine.Fall
import RiskRail.Engine.Unpriced
import RiskRail.Numeric.Growth
import RiskRail.RateLimit.Counters
import RiskRail.RateLimit.Guard
import RiskRail.RateLimit.Shared
import RiskRail.RateLimit.Crowd
import RiskRail.Sdk.Patience
import RiskRail.RateLimit.Client
import RiskRail.Javascript.Listeners
import RiskRail.Realtime.Client
import RiskRail.Realtime.Exact
import RiskRail.Numeric.Binary64
import RiskRail.Javascript.NumberText
import RiskRail.Javascript.Fixed
import RiskRail.Javascript.Hex
import RiskRail.Webhooks.Signature
import RiskRail.Webhooks.Agreement
import RiskRail.Webhooks.Header
import RiskRail.Auth.ApiKeys
import RiskRail.Auth.Guards
import RiskRail.Auth.Accounts
import RiskRail.Auth.Admission
import RiskRail.Alerts.Email
import RiskRail.Alerts.Suppression
import RiskRail.Engine.Steady
import RiskRail.Numeric.Error
import RiskRail.Engine.Precision
import RiskRail.Engine.Totals
import RiskRail.Engine.Indicators
import RiskRail.Engine.Order
import RiskRail.Chainhook.Completeness
import RiskRail.Stacks.Values
import RiskRail.Stacks.Client
import RiskRail.Adapters.NativeAdapter
import RiskRail.Javascript.Utf8
import RiskRail.Webhooks.Binding
import RiskRail.Sdk.Failures
import RiskRail.Adapters.Zest
import RiskRail.Queue.JobIds
import RiskRail.Javascript.Base64
import RiskRail.Javascript.DecodeUtf8
import RiskRail.Webhooks.Secrets
import RiskRail.Transition.Pages
import RiskRail.Transition.Projection
import RiskRail.Webhooks.Endpoints
import RiskRail.Webhooks.Platform
import RiskRail.Webhooks.Requests
import RiskRail.Webhooks.Subscribers
import RiskRail.Javascript.BigInt
import RiskRail.Relational.Traverse
import RiskRail.Adapters.ZestReader
import RiskRail.Adapters.ZestAdapter
import RiskRail.Adapters.ZestMarket
import RiskRail.Api.Requests
import RiskRail.Api.Checks
import RiskRail.Api.Authority
import RiskRail.Api.Tables
