import HttpDataDiod.Lib.Decimal
import HttpDataDiod.Proxy.Request
import HttpDataDiod.Tracing.Span

/-!
# The request handlers of the proxy

Model of `RequestHandler` with respect to the spans it logs: `handle_get` and
`handle_post`, the main path with its rate limits, the push to NATS and the poll
for the answer, and the database gateway.  A handler is the list of the spans it
enqueues, in order.  An exception that leaves a handler is caught by the HTTP
server; the spans enqueued before it stay enqueued, and so the list ends there.

What a handler does not decide itself (clocks, generated ids, sampling draws, the
answers of the limiters, of the duplicate detector and of NATS) is in its
`HandlerChoices`.

* `handleGet`, `handlePost`: the handlers.
* `handleRequest`, `processRequest`: the main path.
* `handleDbGateway`, `routeDbRequest`: the database gateway.
-/

namespace HttpDataDiod
namespace Proxy

open ByteText JsonValue Tracing NatsContract

/-! ## Configuration and choices -/

/-- The settings that the handlers read.  A limiter is given by its number of
tokens. -/
structure ProxyConfig where
  mode : Text
  sampleRate : ℚ
  rawBodyPassthrough : Bool
  duplicateEnabled : Bool
  duplicateRejectEnabled : Bool
  rateLimiter : Option ℕ
  perIpRateLimiter : Option ℕ
  dbEnabled : Bool
  dbSubject : Text
  databases : List Text
  natsClient : Bool

/-- What a request over NATS comes to. -/
structure NatsAnswer where
  data : Bytes
  consumeSpanId : Text
  lastError : Text
  connected : Bool

/-- What the handling of one request takes from outside. -/
structure HandlerChoices where
  now : ℕ → UInt64
  requestId : Text
  fresh : FreshContext
  resolvedTraceId : TraceId
  pushSpanId : SpanId
  inletSpanId : SpanId
  natsSpanId : SpanId
  pollSpanId : SpanId
  log : ℕ → LogChoices
  duplicate : Bool
  acquire : Bool
  availableTokens : ℕ
  acquirePerIp : Bool
  nats : Except Text NatsAnswer

variable (libs : Libraries) (cfg : ProxyConfig) (env : HandlerChoices)

/-! ## The span loggers -/

/-- `proxy_service_name`. -/
def proxyServiceName (mode : Bytes) : Bytes := ascii "l2-proxy-" ++ mode

/-- `resolve_trace_id`, with a tracer. -/
def resolveTraceId (ctx : TraceContext) : Bytes :=
  if ctx.traceId.isEmpty then env.resolvedTraceId.bytes else ctx.traceId

/-- `resolve_parent_id`. -/
def resolveParentId (parentSpanId fallbackParentId : Bytes) : Bytes :=
  if parentSpanId.isEmpty then fallbackParentId else parentSpanId

/-- The trace context of the request. -/
def requestTraceContext (req : Request) : TraceContext :=
  handleTraceContext env.fresh (getTraceparentHeader req)

/-- The call of `log_incoming_span`. -/
def incomingCall (path : Bytes) (ctx : TraceContext) : SpanCall where
  method := ascii "INCOMING"
  url := path
  statusCode := 200
  startUs := env.now 0
  endUs := env.now 0
  serviceName := ascii "l2-proxy-proxy"
  requestId := env.requestId.bytes
  traceId := resolveTraceId env ctx
  spanId := env.inletSpanId.bytes
  parentId := ctx.parentId

/-- The call of `log_proxy_response`. -/
def proxyResponseCall (method path : Bytes) (statusCode : ℤ) (ctx : TraceContext) : SpanCall where
  method := method
  url := path
  statusCode := statusCode
  startUs := env.now 0
  endUs := env.now 1
  serviceName := proxyServiceName cfg.mode.bytes
  requestId := env.requestId.bytes
  traceId := ctx.traceId
  spanId := ctx.spanId
  parentId := ctx.parentId

/-- The call of `log_backend_error`. -/
def backendErrorCall (method path : Bytes) (statusCode : ℤ) (ctx : TraceContext)
    (category detail : Bytes) : SpanCall where
  method := method
  url := path
  statusCode := statusCode
  startUs := env.now 0
  endUs := env.now 1
  serviceName := proxyServiceName cfg.mode.bytes
  requestId := env.requestId.bytes
  traceId := ctx.traceId
  spanId := ctx.spanId
  parentId := ctx.parentId
  attributes := JsonObject.of
    ([(ascii "backend.error", JsonValue.string category)] ++
     (if detail.isEmpty then [] else [(ascii "backend.detail", JsonValue.string detail)]))

/-- The call of `log_nats_span` for the operation `NATS_` followed by `operation`. -/
def natsCall (operation : Bytes) (statusCode : ℤ) (traceId spanId parentId : Bytes)
    (extraAttrs : List (Bytes × JsonValue)) : SpanCall where
  method := ascii "NATS_" ++ operation
  url := ascii "/nats"
  statusCode := statusCode
  startUs := env.now 2
  endUs := env.now 3
  serviceName := ascii "l2-proxy-NATS"
  requestId := env.requestId.bytes
  traceId := traceId
  spanId := spanId
  parentId := parentId
  attributes := (JsonObject.of extraAttrs).assign
    [(ascii "nats.success", .bool (statusCode = 200))]
  nameOverride := ascii "NATS " ++ operation ++ ascii " /nats"

/-- The call of `log_rate_limit_rejection`. -/
def rateLimitCall (reason clientIp : Bytes) (ctx : TraceContext) (limit remaining : ℕ) :
    SpanCall where
  method := ascii "POST"
  url := ascii "/"
  statusCode := 429
  startUs := env.now 0
  endUs := env.now 0
  serviceName := ascii "l2-proxy-proxy"
  traceId := ctx.traceId
  spanId := ctx.spanId
  parentId := ctx.parentId
  attributes := JsonObject.of
    [(ascii "rate_limit.reason", .string reason),
     (ascii "rate_limit.client_ip", .string clientIp),
     (ascii "rate_limit.limit", .string (decimal limit)),
     (ascii "rate_limit.remaining", .string (decimal remaining))]

/-- The spans of a call, with the draws of the `i`-th call of the request. -/
def logged (i : ℕ) (call : SpanCall) : List SpanData :=
  logRequest cfg.sampleRate (env.log i) call

/-! ## Rate limits -/

/-- `check_rate_limits`: `some` the spans of a rejection, or `none` when the request
passes. -/
def checkRateLimits (clientIp : Bytes) (req : Request) : Option (List SpanData) :=
  let ctx := requestTraceContext env req
  match cfg.rateLimiter, env.acquire with
  | some maxTokens, false =>
    some (logged cfg env 0
      (rateLimitCall env (ascii "global") clientIp ctx maxTokens env.availableTokens))
  | _, _ =>
    match cfg.perIpRateLimiter, env.acquirePerIp with
    | some maxTokens, false =>
      some (logged cfg env 0 (rateLimitCall env (ascii "per_ip") clientIp ctx maxTokens 0))
    | _, _ => none

/-! ## The main path -/

/-- `add_proxy_trace_fields`. -/
def proxyTraceFields (ctx : TraceContext) (inletSpanId spanId : Bytes) (sampled : Bool) :
    List (Bytes × JsonValue) :=
  let traceId := resolveTraceId env ctx
  [(kProxyTraceId, .string traceId),
   (kProxySpanId, .string spanId),
   (kProxyInletSpanId, .string inletSpanId),
   (kProxyTraceparent, .string (generateTraceparent traceId spanId sampled))]

/-- The `traceparent` of `make_span_and_traceparent`. -/
def traceparentForBackend (ctx : TraceContext) : Bytes :=
  if ctx.traceId.isEmpty then ctx.traceparentHeader
  else generateTraceparent ctx.traceId env.pushSpanId.bytes true

/-- The envelope that `push_request` writes out. -/
def pushedData (method : Method) (body : Bytes) (req : Request) (ctx : TraceContext) :
    JsonObject :=
  let traceId := resolveTraceId env ctx
  let spanId := env.natsSpanId.bytes
  ((prepareRequestData libs env.requestId.bytes method.text req.path body req
      (traceparentForBackend env ctx)).assign
    (proxyTraceFields env ctx env.inletSpanId.bytes spanId true)).assign
    ([(kTimestamp, JsonValue.int (env.now 2).toNat),
      (kProxySpanId, .string spanId),
      (kProxyTraceId, .string traceId)] ++
     (if traceId.isEmpty || spanId.isEmpty then []
      else [(kProxyTraceparent, JsonValue.string (generateTraceparent traceId spanId true))]))

/-- `poll_response`: the spans and the answer, which is empty when there is none. -/
def pollResponse (ctx : TraceContext) : List SpanData × Bytes :=
  let parentId := resolveParentId ctx.parentId ctx.spanId
  let failed := fun attrs => logged cfg env 2
    (natsCall env (ascii "poll") 500 ctx.traceId env.pollSpanId.bytes parentId attrs)
  if !cfg.natsClient then
    (failed [(ascii "nats.client_not_initialized", .bool true)], [])
  else
    match env.nats with
    | .error what => (failed [(ascii "nats.error", .string what.bytes)], [])
    | .ok answer =>
      if answer.data.isEmpty then
        (failed [(ascii "nats.empty_response", .bool true),
          (ascii "nats.last_error", .string answer.lastError.bytes)], [])
      else
        let parentId := resolveParentId answer.consumeSpanId.bytes parentId
        (logged cfg env 2 (natsCall env (ascii "poll") 200 ctx.traceId env.pollSpanId.bytes
          parentId
          [(ascii "nats.response_size", .uint answer.data.length),
           (ascii "nats.duration_us", .int ((env.now 3).toNat - (env.now 2).toNat))]),
         answer.data)

namespace NatsResponseContract

def kStatus : Bytes := ascii "status_code"
def kHeaders : Bytes := ascii "headers"
def kBody : Bytes := ascii "body"
def kBodyRequestId : Bytes := ascii "request_id"
def kBodyResponse : Bytes := ascii "response"
def kBodyTimestamp : Bytes := ascii "timestamp"
def kBodyIsBinary : Bytes := ascii "is_binary"
def kBodyContentType : Bytes := ascii "content_type"
def kBodyTraceparent : Bytes := ascii "traceparent"

end NatsResponseContract

/-- `get_response_body`. -/
def getResponseBody (j : JsonValue) : JsonValue :=
  match j.find NatsResponseContract.kBody with
  | some (.object entries) => .object entries
  | _ => .object []

/-- `get_body_bool`. -/
def getBodyBool (j : JsonValue) (key : Bytes) : Bool :=
  match (getResponseBody j).find key with
  | some (.bool b) => b
  | _ => false

/-- `set_response_content`: the spans of the answer to the client.  An answer that is no
object is reported without a span, and `from_base64` may throw. -/
def setResponseContent (method : Method) (path : Bytes) (ctx : TraceContext) (j : JsonValue) :
    List SpanData :=
  let response := (getResponseBody j).safeGetString NatsResponseContract.kBodyResponse []
  let isBinary := getBodyBool j NatsResponseContract.kBodyIsBinary
  if j.isObject && !(isBinary && (libs.base64.decode response).isNone) then
    logged cfg env 3 (proxyResponseCall cfg env method.text path
      (j.safeGetInt NatsResponseContract.kStatus 500) ctx)
  else []

/-- The spans of `fail_backend_request`. -/
def failBackendRequest (method : Method) (path : Bytes) (status : ℤ) (ctx : TraceContext)
    (category detail : Bytes) : List SpanData :=
  logged cfg env 3 (backendErrorCall cfg env method.text path status ctx category detail)

/-- The part of `process_request` after the request has been written out. -/
def pollAndRespond (method : Method) (path : Bytes) (ctx : TraceContext) (requestJson : Bytes) :
    List SpanData :=
  if requestJson.isEmpty then
    failBackendRequest cfg env method path 500 ctx (ascii "queue_failed")
      (ascii "Failed to queue request via NATS")
  else
    let polled := pollResponse cfg env ctx
    polled.1 ++
      if polled.2.isEmpty then
        failBackendRequest cfg env method path 504 ctx (ascii "empty_response")
          (ascii "Empty response received from NATS for request_id=" ++ env.requestId.bytes)
      else
        match libs.json.parse polled.2 with
        | .value j => setResponseContent libs cfg env method path ctx j
        | .parseError what =>
          failBackendRequest cfg env method path 500 ctx (ascii "invalid_response")
            (ascii "Failed to parse response for request_id=" ++ env.requestId.bytes ++
              ascii ": " ++ what.bytes)
        | .outOfRange => []

/-- `process_request`.  The incoming span is logged with the path `/`; the request is
written out before the next one. -/
def processRequest (method : Method) (body : Bytes) (req : Request) : List SpanData :=
  let ctx := requestTraceContext env req
  logged cfg env 0 (incomingCall env (ascii "/") ctx) ++
    match libs.json.dump (.object (pushedData libs env method body req ctx).entries) with
    | none => []
    | some requestJson =>
      logged cfg env 1 (natsCall env (ascii "push") 200 (resolveTraceId env ctx)
        env.natsSpanId.bytes env.inletSpanId.bytes
        [(ascii "nats.request_size", .uint requestJson.length)]) ++
      pollAndRespond libs cfg env method req.path ctx requestJson

/-- `handle_request`. -/
def handleRequest (method : Method) (body : Bytes) (req : Request) : List SpanData :=
  if method = .post ∧ !body.isEmpty ∧ cfg.duplicateEnabled ∧ env.duplicate ∧
      cfg.duplicateRejectEnabled then []
  else
    match checkRateLimits cfg env (scopedClientIp req) req with
    | some spans => spans
    | none => processRequest libs cfg env method body req

/-! ## The database gateway -/

/-- The spans of `send_db_gateway_error`, logged before the answer is written. -/
def sendDbGatewayError (status : ℤ) (method : Method) (path : Bytes) (ctx : TraceContext) :
    List SpanData :=
  logged cfg env 2 (proxyResponseCall cfg env method.text path status ctx)

/-- The round trip over NATS, as `log_db_nats_roundtrip` logs it. -/
def dbRoundtripCall (ctx : TraceContext) (dbName : Bytes) (parentId : Bytes) (success : Bool)
    (attrs : List (Bytes × JsonValue)) : SpanCall :=
  natsCall env (ascii "db_request") (if success then 200 else 500) (resolveTraceId env ctx)
    env.natsSpanId.bytes parentId
    ([(ascii "nats.success", JsonValue.bool success),
      (ascii "nats.destination", .string cfg.dbSubject.bytes),
      (ascii "nats.duration_us", .int ((env.now 3).toNat - (env.now 2).toNat)),
      (ascii "db.name", .string dbName)] ++ attrs)

/-- The part of `route_db_request` after a reply that is not empty. -/
def answerDbRequest (method : Method) (path : Bytes) (ctx : TraceContext) (reply : Bytes) :
    List SpanData :=
  match libs.json.parse reply with
  | .outOfRange => []
  | .parseError _ => sendDbGatewayError cfg env 502 method path ctx
  | .value envelope =>
    if envelope.isObject then
      match libs.json.dump ((envelope.find (ascii "body")).getD (.object [])) with
      | none => []
      | some _ =>
        logged cfg env 2 (proxyResponseCall cfg env method.text path
          (envelope.safeGetInt (ascii "status") 502) ctx)
    else sendDbGatewayError cfg env 502 method path ctx

/-- `route_db_request`. -/
def routeDbRequest (method : Method) (path : Bytes) (ctx : TraceContext) (dbName : Bytes)
    (request : JsonObject) : List SpanData :=
  if !cfg.natsClient then sendDbGatewayError cfg env 503 method path ctx
  else
    match libs.json.dump (.object request.entries) with
    | none => []
    | some _ =>
      let parentId := resolveParentId env.inletSpanId.bytes ctx.parentId
      match env.nats with
      | .error _ => []
      | .ok answer =>
        if answer.data.isEmpty then
          logged cfg env 1 (dbRoundtripCall cfg env ctx dbName parentId false
            (if answer.lastError.bytes.isEmpty then []
             else [(ascii "nats.last_error", JsonValue.string answer.lastError.bytes)])) ++
          sendDbGatewayError cfg env (if answer.connected then 504 else 503) method path ctx
        else
          logged cfg env 1 (dbRoundtripCall cfg env ctx dbName
            (resolveParentId answer.consumeSpanId.bytes parentId) true
            [(ascii "nats.response_size", .uint answer.data.length)]) ++
          answerDbRequest libs cfg env method path ctx answer.data

/-- The request of the gateway with the trace of the proxy added. -/
def tracedDbRequest (ctx : TraceContext) (type dbName : Bytes) (payload : JsonValue) :
    JsonObject :=
  (buildDbQueryRequest type env.requestId.bytes dbName payload).assign
    (proxyTraceFields env ctx env.inletSpanId.bytes env.natsSpanId.bytes ctx.sampled)

/-- The part of `handle_db_gateway` after the path has been parsed, for a configured
database. -/
def dispatchDbAction (method : Method) (body : Bytes) (path : Bytes) (ctx : TraceContext)
    (dbName action : Bytes) : List SpanData :=
  if action = ascii "query" ∧ method = .post then
    match libs.json.parse body with
    | .outOfRange => []
    | .parseError _ => sendDbGatewayError cfg env 400 method path ctx
    | .value payload =>
      let request := tracedDbRequest env ctx Sql.DbQueryContract.kTypeQuery dbName payload
      match Sql.parseDbQueryRequest (.object request.entries) with
      | .error _ => sendDbGatewayError cfg env 400 method path ctx
      | .ok _ => routeDbRequest libs cfg env method path ctx dbName request
  else if action = ascii "ping" ∧ method = .get then
    routeDbRequest libs cfg env method path ctx dbName
      (tracedDbRequest env ctx Sql.DbQueryContract.kTypePing dbName (.object []))
  else
    match GatewayRouting.classifyMethod action method with
    | some status => sendDbGatewayError cfg env status method path ctx
    | none => []

/-- `handle_db_gateway`.  The incoming span is logged with the path of the request. -/
def handleDbGateway (method : Method) (body : Bytes) (req : Request) : List SpanData :=
  let ctx := requestTraceContext env req
  let path := req.path
  logged cfg env 0 (incomingCall env path ctx) ++
    if !cfg.dbEnabled then sendDbGatewayError cfg env 404 method path ctx
    else
      let parsed := GatewayRouting.parsePath (GatewayRouting.normalizePathRest
        (path.drop GatewayRouting.kDbGatewayPath.length))
      if parsed.isList then
        if method = .get then [] else sendDbGatewayError cfg env 405 method path ctx
      else if !parsed.valid then sendDbGatewayError cfg env 404 method path ctx
      else if cfg.databases.all fun db => db.bytes ≠ parsed.dbName then
        sendDbGatewayError cfg env 404 method path ctx
      else dispatchDbAction libs cfg env method body path ctx parsed.dbName parsed.action

/-! ## The handlers -/

/-- The paths that `handle_get` answers itself, without a span. -/
def isOwnPath (path : Bytes) : Bool :=
  isLivenessPath path || path = ascii "/stats" || path = ascii "/crash-test" ||
  path = ascii "/debug/stacktrace" || path = ascii "/health/ready" ||
  path = ascii "/debug/duplicates"

/-- `handle_get`. -/
def handleGet (req : Request) : List SpanData :=
  if isOwnPath req.path then []
  else if GatewayRouting.kDbGatewayPath <+: req.path then
    handleDbGateway libs cfg env .get [] req
  else handleRequest libs cfg env .get [] req

/-- `handle_post`. -/
def handlePost (req : Request) : List SpanData :=
  if GatewayRouting.kDbGatewayPath <+: req.path then
    handleDbGateway libs cfg env .post req.body req
  else if !req.body.isEmpty && !libs.json.accept req.body && !cfg.rawBodyPassthrough then []
  else handleRequest libs cfg env .post req.body req

/-- The handler of a method. -/
def handle (method : Method) (req : Request) : List SpanData :=
  match method with
  | .get => handleGet libs cfg env req
  | .post => handlePost libs cfg env req

end Proxy
end HttpDataDiod
