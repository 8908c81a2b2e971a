import NewApiPool.Lib.Runs
import NewApiPool.Lib.GoText
import NewApiPool.Lib.Tally
import NewApiPool.Lib.RoundRobin
import NewApiPool.Lib.TokenBucket
import NewApiPool.Lib.Fallible
import NewApiPool.Lib.Json
import NewApiPool.Lib.JsonPattern
import NewApiPool.Lib.Stateful
import NewApiPool.Lib.Loop
import NewApiPool.Lib.Civil
import NewApiPool.Lib.Choice
import NewApiPool.Lib.Reservation
import NewApiPool.Lib.ReadCommitted
import NewApiPool.Billing.Accounts
import NewApiPool.Billing.Session
import NewApiPool.Billing.SessionLedger
import NewApiPool.Billing.Realtime
import NewApiPool.Billing.PreConsumeRace
import NewApiPool.Batch.Updates
import NewApiPool.User.Row
import NewApiPool.User.TwoFA
import NewApiPool.Relay.Handler
import NewApiPool.Routing.Store
import NewApiPool.Routing.Cache
import NewApiPool.Routing.Select
import NewApiPool.Routing.Shares
import NewApiPool.Routing.AutoGroups
import NewApiPool.Routing.Status
import NewApiPool.Routing.Polling
import NewApiPool.Routing.Fairness
import NewApiPool.Routing.KeyStatus
import NewApiPool.Routing.Abilities
import NewApiPool.Subscription.Store
import NewApiPool.Subscription.Ledger
import NewApiPool.Subscription.Balance
import NewApiPool.Subscription.Refinement
import NewApiPool.Subscription.Refund
import NewApiPool.Subscription.Group
import NewApiPool.Subscription.Restore
import NewApiPool.Subscription.Resets
import NewApiPool.Subscription.Zones
import NewApiPool.Subscription.Progress
import NewApiPool.Payment.TopUp
import NewApiPool.Payment.Concurrent
import NewApiPool.Task.Model
import NewApiPool.Task.Books
import NewApiPool.Midjourney.Model
import NewApiPool.Midjourney.Books
import NewApiPool.Convert.Accumulate
import NewApiPool.Convert.CallTable
import NewApiPool.Convert.Chat
import NewApiPool.Convert.Claude
import NewApiPool.Convert.ToClaude
import NewApiPool.Convert.Passthrough
import NewApiPool.Convert.Responses
import NewApiPool.Convert.ResponsesAgree
import NewApiPool.Convert.Envelope
import NewApiPool.Convert.Gemini
import NewApiPool.Convert.GeminiAgree
import NewApiPool.Convert.Pieces
import NewApiPool.Lib.Blocks
import NewApiPool.Convert.Blocks
import NewApiPool.Convert.Content
import NewApiPool.Lib.Collect
import NewApiPool.Lib.Keyed
import NewApiPool.Convert.Calls
import NewApiPool.Convert.Thinking
import NewApiPool.Convert.MarkdownImages
import NewApiPool.Convert.SchemaCleaning
import NewApiPool.Convert.GeminiRequest
import NewApiPool.Convert.ClaudeRequest
import NewApiPool.Convert.GeminiStream
import NewApiPool.Convert.ToClaudeRequest
import NewApiPool.Convert.ToClaudeFormat
import NewApiPool.Convert.ToClaudeGroup
import NewApiPool.Convert.ToClaudeKept
import NewApiPool.Convert.ToResponses
import NewApiPool.Convert.ToGemini
import NewApiPool.OAuth.AccessPolicy
import NewApiPool.Volcengine.RoundTrip
import NewApiPool.Pool.Lifecycle
import NewApiPool.Routing.MultiKeys
import NewApiPool.Setting.Config
import NewApiPool.Relay.ModelMapping
import NewApiPool.Relay.MappingChain
import NewApiPool.Relay.HeaderOverride
import NewApiPool.Relay.HeaderPassthrough
import NewApiPool.Relay.PassthroughOrders
import NewApiPool.Relay.JsonPaths
import NewApiPool.Relay.Wildcards
import NewApiPool.Relay.WildcardExpansion
import NewApiPool.Relay.PruneObjects
import NewApiPool.Relay.MoveValue
import NewApiPool.Relay.ValueEdits
import NewApiPool.Relay.StreamScanner
import NewApiPool.Relay.EventWriter
import NewApiPool.Relay.OverrideInPlace
import NewApiPool.Billing.TextQuota
import NewApiPool.Billing.Encodings
import NewApiPool.Billing.GroupSwitch
import NewApiPool.Billing.TextBounds
import NewApiPool.Billing.UsageData
import NewApiPool.Task.Pricing
import NewApiPool.Payment.Orders
import NewApiPool.Payment.OrderLock
import NewApiPool.Subscription.Orders
import NewApiPool.Middleware.RateLimit
import NewApiPool.Middleware.SlidingWindow
import NewApiPool.Middleware.TotalLimit
import NewApiPool.User.QuotaCache
import NewApiPool.User.Checkin
import NewApiPool.User.TokenSearch
import NewApiPool.Setting.TierPrices
import NewApiPool.Setting.TierRoundTrip
import NewApiPool.Setting.RulesReadBack
import NewApiPool.Setting.StatusCodes
import NewApiPool.Service.SundaySearch
import NewApiPool.Service.SensitiveWords
import NewApiPool.Cachex.Namespace
import NewApiPool.Cachex.HybridCache
import NewApiPool.Cachex.Backends
import NewApiPool.Service.ChannelAffinity
import NewApiPool.Service.AffinityCache
import NewApiPool.Channel.UpstreamModels
