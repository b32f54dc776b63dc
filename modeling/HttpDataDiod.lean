import HttpDataDiod.Lib.ByteText
import HttpDataDiod.Sql.ReadOnlyGate
import HttpDataDiod.Sql.GateSoundness
import HttpDataDiod.Json.Value
import HttpDataDiod.Sql.DbQueryRequest
import HttpDataDiod.Lib.Decimal
import HttpDataDiod.Routing.ParseUrl
import HttpDataDiod.Routing.CanonicalPath
import HttpDataDiod.Routing.AllowedServer
import HttpDataDiod.Http.Client
import HttpDataDiod.Http.RequestHost
import HttpDataDiod.Http.ClientPool
import HttpDataDiod.Http.TransportBinding
import HttpDataDiod.Worker.CircuitBreaker
import HttpDataDiod.Worker.RetryLoop
import HttpDataDiod.Worker.DedupCache
import HttpDataDiod.Worker.Delivery
import HttpDataDiod.Lib.Interleaving
import HttpDataDiod.Nats.Client
import HttpDataDiod.Nats.Protocol
import HttpDataDiod.Nats.Lifecycle
import HttpDataDiod.Nats.SharedConnection
import HttpDataDiod.Worker.Listening
import HttpDataDiod.Json.Dump
import HttpDataDiod.Tracing.Traceparent
import HttpDataDiod.Tracing.Span
import HttpDataDiod.Tracing.SpanDelivery
import HttpDataDiod.Proxy.Request
import HttpDataDiod.Proxy.RequestHandler
import HttpDataDiod.Proxy.RequestSpans
import HttpDataDiod.Tracing.SenderLoop
import HttpDataDiod.Json.Utf8Decoder
import HttpDataDiod.Lib.Base64
import HttpDataDiod.Json.RoundTrip
import HttpDataDiod.Transport.RequestEnvelope
import HttpDataDiod.Transport.HeaderTransport
import HttpDataDiod.Transport.EnvelopeText
import HttpDataDiod.Transport.ResponseEnvelope
import HttpDataDiod.Proxy.DuplicateDetector
import HttpDataDiod.Transport.DuplicateRefusal
import HttpDataDiod.Transport.ReplyStatus
import HttpDataDiod.Routing.BackendView
import HttpDataDiod.Worker.BreakerHistory
import HttpDataDiod.Http.PoolAccounting
import HttpDataDiod.Transport.NatsTraffic
import HttpDataDiod.Sql.PostgresExecutor
import HttpDataDiod.Sql.OracleExecutor
import HttpDataDiod.Worker.DbQuery
import HttpDataDiod.Proxy.RequestId
import HttpDataDiod.Transport.DbAgreement
import HttpDataDiod.Transport.CachedAnswers
import HttpDataDiod.Worker.BreakerRaces
import HttpDataDiod.Worker.SingleSubscription
import HttpDataDiod.Proxy.GatewayFailure
import HttpDataDiod.Nats.DrainLoss
import HttpDataDiod.Http.PoolWaiting
import HttpDataDiod.Lib.TokenBucket
import HttpDataDiod.Lib.LinkedMap
import HttpDataDiod.Proxy.RateLimiter
import HttpDataDiod.Worker.DedupRetention
import HttpDataDiod.Proxy.RateLimits
import HttpDataDiod.Proxy.DuplicateExpiry
import HttpDataDiod.Proxy.DuplicateBookkeeping
import HttpDataDiod.Tracing.SpanAccounting
import HttpDataDiod.Sql.PoolSoundness
import HttpDataDiod.Lib.Ticket
import HttpDataDiod.Tracing.SenderQueue
import HttpDataDiod.Tracing.BreakerShedding
import HttpDataDiod.Metrics.History
import HttpDataDiod.Lib.Selection
import HttpDataDiod.Metrics.LabeledFamily
import HttpDataDiod.Lib.Counting
import HttpDataDiod.Proxy.InFlightTracker
import HttpDataDiod.Worker.ThreadPool
import HttpDataDiod.Worker.L2Call
import HttpDataDiod.Sql.GateCompleteness
import HttpDataDiod.Transport.BackendMethod
import HttpDataDiod.Json.Utf8Encoding
import HttpDataDiod.Tracing.TraceparentGrammar
import HttpDataDiod.Worker.DbLimits
import HttpDataDiod.Transport.GatewayGrammar
import HttpDataDiod.Sql.RowLimit
import HttpDataDiod.Tracing.Acceptance
import HttpDataDiod.Tracing.CooldownSchedule
import HttpDataDiod.Sql.LobRead
import HttpDataDiod.Lib.Binary64
import HttpDataDiod.Lib.FixedDecimal
import HttpDataDiod.Sql.NumericResults
import HttpDataDiod.Sql.BindParams
import HttpDataDiod.Proxy.RefillSchedule
import HttpDataDiod.Routing.PathReference
import HttpDataDiod.Sql.Bytea
import HttpDataDiod.Sql.TimestampText
import HttpDataDiod.Tracing.Dsn
import HttpDataDiod.Json.Escape
import HttpDataDiod.Json.ScanString
import HttpDataDiod.Json.ScanNumber
import HttpDataDiod.Json.Lexer
import HttpDataDiod.Json.Parser
import HttpDataDiod.Json.Grammar
import HttpDataDiod.Json.Serializer
import HttpDataDiod.Json.Nlohmann
import HttpDataDiod.Lib.DeadlineLoop
import HttpDataDiod.Proxy.NatsPoll
import HttpDataDiod.Transport.Exchange
import HttpDataDiod.Tracing.EnvelopeFraming
import HttpDataDiod.Tracing.SentryEvent
import HttpDataDiod.Tracing.SentryClient
