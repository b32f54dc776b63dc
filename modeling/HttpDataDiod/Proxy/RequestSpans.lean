import HttpDataDiod.Proxy.RequestHandler

/-!
# Which requests log spans that cannot be written out

The texts of a span come from the configuration, from generated ids, from NATS, and
from the request: the two ids of its `traceparent`, on the gateway its path, and in
the span of a rate limit the client's address.  On the main path the path of the
request is written out with the envelope before it gets into a span.

* `requestOk`: the condition on a request, for a configuration.
* `valid_of_mem_handle`: the handlers log only valid spans for such a request.
* `exists_handle_eq_cons_of_not_requestOk`: for every other request they can log one
  that is not valid, if spans are sampled at all.
-/

namespace HttpDataDiod
namespace Proxy

open ByteText JsonValue Tracing NatsContract

/-! ## The condition -/

/-- The condition on a request to the gateway. -/
def gatewayRequestOk (req : Request) : Bool :=
  isValidUtf8 req.path && traceparentOk (getTraceparentHeader req)

/-- The condition on a request on the main path. -/
def mainRequestOk (cfg : ProxyConfig) (req : Request) : Bool :=
  traceparentOk (getTraceparentHeader req) &&
  (cfg.rateLimiter.isNone && cfg.perIpRateLimiter.isNone || isValidUtf8 (scopedClientIp req))

/-- **The condition on a request.**  It follows the dispatch of the handlers. -/
def requestOk (libs : Libraries) (cfg : ProxyConfig) (method : Method) (req : Request) : Bool :=
  match method with
  | .get =>
    if isOwnPath req.path then true
    else if GatewayRouting.kDbGatewayPath <+: req.path then gatewayRequestOk req
    else mainRequestOk cfg req
  | .post =>
    if GatewayRouting.kDbGatewayPath <+: req.path then gatewayRequestOk req
    else if !req.body.isEmpty && !libs.json.accept req.body && !cfg.rawBodyPassthrough then true
    else mainRequestOk cfg req

variable {libs : Libraries} {cfg : ProxyConfig} {env : HandlerChoices}

/-! ## The calls are valid -/

theorem valid_of_mem_logged {i : ℕ} {call : SpanCall} (h : call.Valid) :
    ∀ span ∈ logged cfg env i call, span.Valid := fun _ hspan => h.logRequest hspan

theorem isValidUtf8_methodText (method : Method) : isValidUtf8 method.text = true := by
  cases method <;> decide

theorem isValidUtf8_proxyServiceName (mode : Text) :
    isValidUtf8 (proxyServiceName mode.bytes) = true :=
  isValidUtf8_append_of_valid (by decide) mode.valid

theorem isValidUtf8_resolveTraceId {ctx : TraceContext} (h : ctx.Valid) :
    isValidUtf8 (resolveTraceId env ctx) = true := by
  unfold resolveTraceId
  split
  · exact env.resolvedTraceId.valid
  · exact h.traceId

theorem isValidUtf8_resolveParentId {parentSpanId fallbackParentId : Bytes}
    (hparent : isValidUtf8 parentSpanId = true) (hfallback : isValidUtf8 fallbackParentId = true) :
    isValidUtf8 (resolveParentId parentSpanId fallbackParentId) = true := by
  unfold resolveParentId
  split
  · exact hfallback
  · exact hparent

theorem incomingCall_valid {path : Bytes} {ctx : TraceContext}
    (hpath : isValidUtf8 path = true) (hctx : ctx.Valid) : (incomingCall env path ctx).Valid where
  method := rfl
  url := hpath
  serviceName := rfl
  requestId := env.requestId.valid
  traceId := isValidUtf8_resolveTraceId hctx
  spanId := env.inletSpanId.valid
  parentId := hctx.parentId
  attributes := JsonObject.utf8_empty
  nameOverride := rfl

theorem proxyResponseCall_valid {method : Method} {path : Bytes} {statusCode : ℤ}
    {ctx : TraceContext} (hpath : isValidUtf8 path = true) (hctx : ctx.Valid) :
    (proxyResponseCall cfg env method.text path statusCode ctx).Valid where
  method := isValidUtf8_methodText method
  url := hpath
  serviceName := isValidUtf8_proxyServiceName cfg.mode
  requestId := env.requestId.valid
  traceId := hctx.traceId
  spanId := hctx.spanId
  parentId := hctx.parentId
  attributes := JsonObject.utf8_empty
  nameOverride := rfl

theorem backendErrorCall_valid {method : Method} {path : Bytes} {statusCode : ℤ}
    {ctx : TraceContext} {category detail : Bytes} (hpath : isValidUtf8 path = true)
    (hctx : ctx.Valid) (hcategory : isValidUtf8 category = true)
    (hdetail : isValidUtf8 detail = true) :
    (backendErrorCall cfg env method.text path statusCode ctx category detail).Valid where
  method := isValidUtf8_methodText method
  url := hpath
  serviceName := isValidUtf8_proxyServiceName cfg.mode
  requestId := env.requestId.valid
  traceId := hctx.traceId
  spanId := hctx.spanId
  parentId := hctx.parentId
  attributes := by
    refine JsonObject.utf8_of (List.forall_mem_append.mpr ⟨?_, ?_⟩)
    · exact List.forall_mem_singleton.mpr (entryUtf8_string (by decide) hcategory)
    · split
      · exact List.forall_mem_nil _
      · exact List.forall_mem_singleton.mpr (entryUtf8_string (by decide) hdetail)
  nameOverride := rfl

theorem natsCall_valid {operation traceId spanId parentId : Bytes} {statusCode : ℤ}
    {extraAttrs : List (Bytes × JsonValue)} (hoperation : isValidUtf8 operation = true)
    (htraceId : isValidUtf8 traceId = true) (hspanId : isValidUtf8 spanId = true)
    (hparentId : isValidUtf8 parentId = true) (hattrs : ∀ p ∈ extraAttrs, EntryUtf8 p) :
    (natsCall env operation statusCode traceId spanId parentId extraAttrs).Valid where
  method := isValidUtf8_append_of_valid (by decide) hoperation
  url := rfl
  serviceName := rfl
  requestId := env.requestId.valid
  traceId := htraceId
  spanId := hspanId
  parentId := hparentId
  attributes := (JsonObject.utf8_of hattrs).assign
    (List.forall_mem_singleton.mpr (entryUtf8_mk (by decide) (allUtf8_bool _)))
  nameOverride := isValidUtf8_append_of_valid
    (isValidUtf8_append_of_valid (by decide) hoperation) (by decide)

theorem rateLimitCall_valid {reason clientIp : Bytes} {ctx : TraceContext} {limit remaining : ℕ}
    (hreason : isValidUtf8 reason = true) (hclientIp : isValidUtf8 clientIp = true)
    (hctx : ctx.Valid) : (rateLimitCall env reason clientIp ctx limit remaining).Valid where
  method := rfl
  url := rfl
  serviceName := rfl
  requestId := rfl
  traceId := hctx.traceId
  spanId := hctx.spanId
  parentId := hctx.parentId
  attributes := by
    refine JsonObject.utf8_of ?_
    simp only [List.forall_mem_cons]
    exact ⟨entryUtf8_string (by decide) hreason, entryUtf8_string (by decide) hclientIp,
      entryUtf8_string (by decide) (isValidUtf8_decimal _),
      entryUtf8_string (by decide) (isValidUtf8_decimal _),
      List.forall_mem_nil _⟩
  nameOverride := rfl

/-! ## The handlers log valid spans -/

theorem valid_of_mem_checkRateLimits {clientIp : Bytes} {req : Request} {spans : List SpanData}
    (hctx : (requestTraceContext env req).Valid)
    (hclientIp : (cfg.rateLimiter.isNone && cfg.perIpRateLimiter.isNone) = true ∨
      isValidUtf8 clientIp = true)
    (h : checkRateLimits cfg env clientIp req = some spans) : ∀ span ∈ spans, span.Valid := by
  unfold checkRateLimits at h
  dsimp only at h
  split at h
  · rename_i maxTokens hlimiter _
    obtain rfl := Option.some.inj h
    refine valid_of_mem_logged (rateLimitCall_valid (by decide) ?_ hctx)
    exact hclientIp.resolve_left (by simp [hlimiter])
  · split at h
    · rename_i maxTokens hlimiter _
      obtain rfl := Option.some.inj h
      refine valid_of_mem_logged (rateLimitCall_valid (by decide) ?_ hctx)
      exact hclientIp.resolve_left (by simp [hlimiter])
    · exact absurd h (by simp)

/-- The envelope holds the path of the request. -/
theorem path_mem_prepareRequestData (libs : Libraries) (requestId method path body : Bytes)
    (req : Request) (traceparent : Bytes) :
    (kPath, JsonValue.string path) ∈
      (prepareRequestData libs requestId method path body req traceparent).entries := by
  rw [prepareRequestData_eq]
  refine JsonObject.mem_entries_of
    (nodup_requestPairs libs requestId method path body req traceparent) ?_
  rw [requestPairs]
  simp only [List.append_assoc, List.cons_append, List.mem_cons, true_or, or_true]

theorem path_mem_pushedData (libs : Libraries) (env : HandlerChoices) (method : Method)
    (body : Bytes) (req : Request) (ctx : TraceContext) :
    (kPath, JsonValue.string req.path) ∈ (pushedData libs env method body req ctx).entries := by
  unfold pushedData
  refine JsonObject.mem_entries_assign (JsonObject.mem_entries_assign
    (path_mem_prepareRequestData libs _ _ _ _ _ _) ?_) ?_
  · show kPath ∉ [kProxyTraceId, kProxySpanId, kProxyInletSpanId, kProxyTraceparent]
    decide
  · split
    · show kPath ∉ [kTimestamp, kProxySpanId, kProxyTraceId]
      decide
    · show kPath ∉ [kTimestamp, kProxySpanId, kProxyTraceId, kProxyTraceparent]
      decide

/-- **On the main path the path is written out first.** -/
theorem isValidUtf8_path_of_dump {method : Method} {body : Bytes} {req : Request}
    {ctx : TraceContext} {requestJson : Bytes}
    (h : libs.json.dump (.object (pushedData libs env method body req ctx).entries) =
      some requestJson) : isValidUtf8 req.path = true := by
  have hutf8 := libs.json.allUtf8_of_dump h
  rw [allUtf8, allUtf8Entries_iff] at hutf8
  have hpath := (hutf8 _ (path_mem_pushedData libs env method body req ctx)).2
  rwa [allUtf8_string] at hpath

theorem valid_of_mem_pollResponse {ctx : TraceContext} (hctx : ctx.Valid) :
    ∀ span ∈ (pollResponse cfg env ctx).1, span.Valid := by
  have hparent : isValidUtf8 (resolveParentId ctx.parentId ctx.spanId) = true :=
    isValidUtf8_resolveParentId hctx.parentId hctx.spanId
  have hlogged : ∀ (statusCode : ℤ) (parentId : Bytes) (attrs : List (Bytes × JsonValue)),
      isValidUtf8 parentId = true → (∀ p ∈ attrs, EntryUtf8 p) →
      ∀ span ∈ logged cfg env 2 (natsCall env (ascii "poll") statusCode ctx.traceId
        env.pollSpanId.bytes parentId attrs), span.Valid := fun _ _ _ hparentId hattrs =>
    valid_of_mem_logged
      (natsCall_valid (by decide) hctx.traceId env.pollSpanId.valid hparentId hattrs)
  unfold pollResponse
  dsimp only
  split
  · refine hlogged 500 _ _ hparent (List.forall_mem_singleton.mpr ?_)
    exact entryUtf8_mk (by decide) (allUtf8_bool _)
  · split
    · rename_i what _
      refine hlogged 500 _ _ hparent (List.forall_mem_singleton.mpr ?_)
      exact entryUtf8_string (by decide) what.valid
    · rename_i answer _
      split
      · refine hlogged 500 _ _ hparent ?_
        simp only [List.forall_mem_cons]
        exact ⟨entryUtf8_mk (by decide) (allUtf8_bool _),
          entryUtf8_string (by decide) answer.lastError.valid,
          List.forall_mem_nil _⟩
      · refine hlogged 200 _ _
          (isValidUtf8_resolveParentId answer.consumeSpanId.valid hparent) ?_
        simp only [List.forall_mem_cons]
        exact ⟨entryUtf8_mk (by decide) (allUtf8_uint _), entryUtf8_mk (by decide) (allUtf8_int _),
          List.forall_mem_nil _⟩

theorem valid_of_mem_pollAndRespond {method : Method} {path : Bytes} {ctx : TraceContext}
    {requestJson : Bytes} (hpath : isValidUtf8 path = true) (hctx : ctx.Valid) :
    ∀ span ∈ pollAndRespond libs cfg env method path ctx requestJson, span.Valid := by
  have hfailed : ∀ (status : ℤ) (category detail : Bytes), isValidUtf8 category = true →
      isValidUtf8 detail = true →
      ∀ span ∈ failBackendRequest cfg env method path status ctx category detail, span.Valid :=
    fun _ _ _ hcategory hdetail =>
      valid_of_mem_logged (backendErrorCall_valid hpath hctx hcategory hdetail)
  unfold pollAndRespond
  split
  · exact hfailed _ _ _ (by decide) (by decide)
  · refine List.forall_mem_append.mpr ⟨valid_of_mem_pollResponse hctx, ?_⟩
    split
    · exact hfailed _ _ _ (by decide)
        (isValidUtf8_append_of_valid (by decide) env.requestId.valid)
    · split
      · unfold setResponseContent
        dsimp only
        split
        · exact valid_of_mem_logged (proxyResponseCall_valid hpath hctx)
        · exact List.forall_mem_nil _
      · rename_i what _
        refine hfailed _ _ _ (by decide) ?_
        refine isValidUtf8_append_of_valid (isValidUtf8_append_of_valid
          (isValidUtf8_append_of_valid ?_ env.requestId.valid) ?_) what.valid
        · decide
        · decide
      · exact List.forall_mem_nil _

theorem valid_of_mem_processRequest {method : Method} {body : Bytes} {req : Request}
    (hctx : (requestTraceContext env req).Valid) :
    ∀ span ∈ processRequest libs cfg env method body req, span.Valid := by
  unfold processRequest
  refine List.forall_mem_append.mpr
    ⟨valid_of_mem_logged (incomingCall_valid (by decide) hctx), ?_⟩
  split
  · exact List.forall_mem_nil _
  · rename_i requestJson hdump
    refine List.forall_mem_append.mpr ⟨valid_of_mem_logged (natsCall_valid (by decide)
      (isValidUtf8_resolveTraceId hctx) env.natsSpanId.valid env.inletSpanId.valid ?_), ?_⟩
    · exact List.forall_mem_singleton.mpr (entryUtf8_mk (by decide) (allUtf8_uint _))
    · exact valid_of_mem_pollAndRespond (isValidUtf8_path_of_dump hdump) hctx

theorem valid_of_mem_handleRequest {method : Method} {body : Bytes} {req : Request}
    (h : mainRequestOk cfg req = true) :
    ∀ span ∈ handleRequest libs cfg env method body req, span.Valid := by
  rw [mainRequestOk, Bool.and_eq_true, Bool.or_eq_true] at h
  have hctx : (requestTraceContext env req).Valid :=
    TraceContext.valid_handleTraceContext_iff.mpr h.1
  unfold handleRequest
  split
  · exact List.forall_mem_nil _
  · split
    · rename_i spans hspans
      exact valid_of_mem_checkRateLimits hctx h.2 hspans
    · exact valid_of_mem_processRequest hctx

/-! ## The database gateway logs valid spans -/

theorem valid_of_mem_sendDbGatewayError {status : ℤ} {method : Method} {path : Bytes}
    {ctx : TraceContext} (hpath : isValidUtf8 path = true) (hctx : ctx.Valid) :
    ∀ span ∈ sendDbGatewayError cfg env status method path ctx, span.Valid :=
  valid_of_mem_logged (proxyResponseCall_valid hpath hctx)

theorem dbRoundtripCall_valid {ctx : TraceContext} {dbName parentId : Bytes} {success : Bool}
    {attrs : List (Bytes × JsonValue)} (hctx : ctx.Valid) (hdbName : isValidUtf8 dbName = true)
    (hparentId : isValidUtf8 parentId = true) (hattrs : ∀ p ∈ attrs, EntryUtf8 p) :
    (dbRoundtripCall cfg env ctx dbName parentId success attrs).Valid := by
  refine natsCall_valid (by decide) (isValidUtf8_resolveTraceId hctx) env.natsSpanId.valid
    hparentId (List.forall_mem_append.mpr ⟨?_, hattrs⟩)
  simp only [List.forall_mem_cons]
  exact ⟨entryUtf8_mk (by decide) (allUtf8_bool _),
    entryUtf8_string (by decide) cfg.dbSubject.valid, entryUtf8_mk (by decide) (allUtf8_int _),
    entryUtf8_string (by decide) hdbName, List.forall_mem_nil _⟩

theorem valid_of_mem_answerDbRequest {method : Method} {path reply : Bytes} {ctx : TraceContext}
    (hpath : isValidUtf8 path = true) (hctx : ctx.Valid) :
    ∀ span ∈ answerDbRequest libs cfg env method path ctx reply, span.Valid := by
  unfold answerDbRequest
  split
  · exact List.forall_mem_nil _
  · exact valid_of_mem_sendDbGatewayError hpath hctx
  · split
    · split
      · exact List.forall_mem_nil _
      · exact valid_of_mem_logged (proxyResponseCall_valid hpath hctx)
    · exact valid_of_mem_sendDbGatewayError hpath hctx

theorem valid_of_mem_routeDbRequest {method : Method} {path dbName : Bytes} {ctx : TraceContext}
    {request : JsonObject} (hpath : isValidUtf8 path = true) (hctx : ctx.Valid)
    (hdbName : isValidUtf8 dbName = true) :
    ∀ span ∈ routeDbRequest libs cfg env method path ctx dbName request, span.Valid := by
  have hparent : isValidUtf8 (resolveParentId env.inletSpanId.bytes ctx.parentId) = true :=
    isValidUtf8_resolveParentId env.inletSpanId.valid hctx.parentId
  unfold routeDbRequest
  split
  · exact valid_of_mem_sendDbGatewayError hpath hctx
  · split
    · exact List.forall_mem_nil _
    · dsimp only
      split
      · exact List.forall_mem_nil _
      · rename_i answer _
        split
        · refine List.forall_mem_append.mpr ⟨valid_of_mem_logged
            (dbRoundtripCall_valid hctx hdbName hparent ?_),
            valid_of_mem_sendDbGatewayError hpath hctx⟩
          split
          · exact List.forall_mem_nil _
          · exact List.forall_mem_singleton.mpr
              (entryUtf8_string (by decide) answer.lastError.valid)
        · refine List.forall_mem_append.mpr ⟨valid_of_mem_logged
            (dbRoundtripCall_valid hctx hdbName
              (isValidUtf8_resolveParentId answer.consumeSpanId.valid hparent) ?_),
            valid_of_mem_answerDbRequest hpath hctx⟩
          exact List.forall_mem_singleton.mpr (entryUtf8_mk (by decide) (allUtf8_uint _))

theorem valid_of_mem_dispatchDbAction {method : Method} {body path dbName action : Bytes}
    {ctx : TraceContext} (hpath : isValidUtf8 path = true) (hctx : ctx.Valid)
    (hdbName : isValidUtf8 dbName = true) :
    ∀ span ∈ dispatchDbAction libs cfg env method body path ctx dbName action, span.Valid := by
  unfold dispatchDbAction
  split
  · split
    · exact List.forall_mem_nil _
    · exact valid_of_mem_sendDbGatewayError hpath hctx
    · dsimp only
      split
      · exact valid_of_mem_sendDbGatewayError hpath hctx
      · exact valid_of_mem_routeDbRequest hpath hctx hdbName
  · split
    · exact valid_of_mem_routeDbRequest hpath hctx hdbName
    · split
      · exact valid_of_mem_sendDbGatewayError hpath hctx
      · exact List.forall_mem_nil _

theorem valid_of_mem_handleDbGateway {method : Method} {body : Bytes} {req : Request}
    (h : gatewayRequestOk req = true) :
    ∀ span ∈ handleDbGateway libs cfg env method body req, span.Valid := by
  rw [gatewayRequestOk, Bool.and_eq_true] at h
  obtain ⟨hpath, htrace⟩ := h
  have hctx : (requestTraceContext env req).Valid :=
    TraceContext.valid_handleTraceContext_iff.mpr htrace
  unfold handleDbGateway
  refine List.forall_mem_append.mpr
    ⟨valid_of_mem_logged (incomingCall_valid hpath hctx), ?_⟩
  split
  · exact valid_of_mem_sendDbGatewayError hpath hctx
  · dsimp only
    split
    · split
      · exact List.forall_mem_nil _
      · exact valid_of_mem_sendDbGatewayError hpath hctx
    · split
      · exact valid_of_mem_sendDbGatewayError hpath hctx
      · split
        · exact valid_of_mem_sendDbGatewayError hpath hctx
        · rename_i hknown
          -- A database that is routed to is a configured one, so its name is well formed.
          simp only [List.all_eq_true, decide_eq_true_eq, not_forall, not_not] at hknown
          obtain ⟨db, -, hdb⟩ := hknown
          exact valid_of_mem_dispatchDbAction hpath hctx (hdb ▸ db.valid)

/-- **The handlers log valid spans** for every request that meets the condition. -/
theorem valid_of_mem_handle {method : Method} {req : Request}
    (h : requestOk libs cfg method req = true) :
    ∀ span ∈ handle libs cfg env method req, span.Valid := by
  cases method with
  | get =>
    simp only [requestOk] at h
    simp only [handle, handleGet]
    split
    · exact List.forall_mem_nil _
    · rename_i hown
      rw [if_neg hown] at h
      split
      · rename_i hgateway
        rw [if_pos hgateway] at h
        exact valid_of_mem_handleDbGateway h
      · rename_i hgateway
        rw [if_neg hgateway] at h
        exact valid_of_mem_handleRequest h
  | post =>
    simp only [requestOk] at h
    simp only [handle, handlePost]
    split
    · rename_i hgateway
      rw [if_pos hgateway] at h
      exact valid_of_mem_handleDbGateway h
    · rename_i hgateway
      rw [if_neg hgateway] at h
      split
      · exact List.forall_mem_nil _
      · rename_i hbody
        rw [if_neg hbody] at h
        exact valid_of_mem_handleRequest h

/-! ## Every other request can log a span that is not valid -/

/-- The draw that is below every positive rate. -/
def zeroDraw : Draw := ⟨0, le_refl 0, zero_lt_one⟩

/-- Choices under which every call is sampled and the limiters answer as given. -/
def sampledChoices (acquire acquirePerIp : Bool) : HandlerChoices where
  now := fun _ => 0
  requestId := ⟨[], isValidUtf8_nil⟩
  fresh := ⟨HexId.zero _, HexId.zero _⟩
  resolvedTraceId := HexId.zero _
  pushSpanId := HexId.zero _
  inletSpanId := HexId.zero _
  natsSpanId := HexId.zero _
  pollSpanId := HexId.zero _
  log := fun _ =>
    { draw := zeroDraw
      traceId := HexId.zero _
      spanId := HexId.zero _
      enqueueTimeUs := 0 }
  duplicate := false
  acquire := acquire
  availableTokens := 0
  acquirePerIp := acquirePerIp
  nats := .error ⟨[], isValidUtf8_nil⟩

theorem logged_sampledChoices (hrate : 0 < cfg.sampleRate) (acquire acquirePerIp : Bool) (i : ℕ)
    (call : SpanCall) :
    logged cfg (sampledChoices acquire acquirePerIp) i call =
      [call.span ((sampledChoices acquire acquirePerIp).log i)] :=
  logRequest_of_draw_eq_zero call hrate rfl

theorem isValidUtf8_traceId_of_resolveTraceId {ctx : TraceContext}
    (h : isValidUtf8 (resolveTraceId env ctx) = true) : isValidUtf8 ctx.traceId = true := by
  unfold resolveTraceId at h
  split at h
  · rename_i hempty
    rw [List.isEmpty_iff.mp hempty]
    exact isValidUtf8_nil
  · exact h

/-- The incoming span shows the `traceparent` and the path. -/
theorem ok_of_incomingCall_span {path : Bytes} {req : Request} {choices : LogChoices}
    (h : ((incomingCall env path (requestTraceContext env req)).span choices).Valid) :
    isValidUtf8 path = true ∧ traceparentOk (getTraceparentHeader req) = true := by
  refine ⟨isValidUtf8_url_of_span h rfl rfl, ?_⟩
  have hctx : (handleTraceContext env.fresh (getTraceparentHeader req)).Valid :=
    ⟨isValidUtf8_traceId_of_resolveTraceId (isValidUtf8_traceId_of_span h),
      isValidUtf8_spanId_handleTraceContext _ _, h.parentId⟩
  exact TraceContext.valid_handleTraceContext_iff.mp hctx

/-- The span of a rate limit shows the client's address. -/
theorem isValidUtf8_clientIp_of_rateLimitCall_span {reason clientIp : Bytes} {ctx : TraceContext}
    {limit remaining : ℕ} {choices : LogChoices}
    (h : ((rateLimitCall env reason clientIp ctx limit remaining).span choices).Valid) :
    isValidUtf8 clientIp = true := by
  have hattributes : (rateLimitCall env reason clientIp ctx limit remaining).attributes.Utf8 :=
    utf8_attributes_of_span h
  have hnodup : List.Nodup [ascii "rate_limit.reason", ascii "rate_limit.client_ip",
      ascii "rate_limit.limit", ascii "rate_limit.remaining"] := by decide
  have hentry : EntryUtf8 (ascii "rate_limit.client_ip", .string clientIp) :=
    JsonObject.Utf8.of_assign hattributes hnodup (by simp)
  rw [← allUtf8_string]
  exact hentry.2

/-- The first span of a handler is the one of its first call. -/
theorem exists_eq_cons_of_logged_append (hrate : 0 < cfg.sampleRate) {acquire acquirePerIp : Bool}
    {i : ℕ} {call : SpanCall} {spans rest : List SpanData}
    (h : spans = logged cfg (sampledChoices acquire acquirePerIp) i call ++ rest)
    (hinvalid : ∀ choices, ¬ (call.span choices).Valid) :
    ∃ span rest, spans = span :: rest ∧ ¬ span.Valid := by
  rw [logged_sampledChoices hrate, List.singleton_append] at h
  exact ⟨_, rest, h, hinvalid _⟩

theorem exists_handleDbGateway_of_not_ok (libs : Libraries) (hrate : 0 < cfg.sampleRate)
    {req : Request} (h : gatewayRequestOk req ≠ true) (method : Method) (body : Bytes) :
    ∃ env span rest, handleDbGateway libs cfg env method body req = span :: rest ∧
      ¬ span.Valid := by
  refine ⟨sampledChoices true true, exists_eq_cons_of_logged_append hrate rfl ?_⟩
  intro choices hvalid
  rw [gatewayRequestOk, ne_eq, Bool.and_eq_true] at h
  exact h (ok_of_incomingCall_span hvalid)

theorem exists_processRequest_of_not_ok (libs : Libraries) (hrate : 0 < cfg.sampleRate)
    {req : Request} (h : traceparentOk (getTraceparentHeader req) ≠ true) (method : Method)
    (body : Bytes) :
    ∃ span rest, processRequest libs cfg (sampledChoices true true) method body req =
      span :: rest ∧ ¬ span.Valid :=
  exists_eq_cons_of_logged_append hrate rfl fun _ hvalid => h (ok_of_incomingCall_span hvalid).2

theorem checkRateLimits_of_acquire {clientIp : Bytes} {req : Request} :
    checkRateLimits cfg (sampledChoices true true) clientIp req = none := by
  unfold checkRateLimits
  dsimp only
  split
  · rename_i h
    exact absurd h Bool.true_eq_false_eq_False
  · split
    · rename_i h
      exact absurd h Bool.true_eq_false_eq_False
    · rfl

theorem exists_checkRateLimits_of_not_valid (req : Request) (hrate : 0 < cfg.sampleRate)
    {clientIp : Bytes} (hlimiter : (cfg.rateLimiter.isNone && cfg.perIpRateLimiter.isNone) ≠ true)
    (h : isValidUtf8 clientIp ≠ true) :
    ∃ spans, checkRateLimits cfg (sampledChoices false false) clientIp req = some spans ∧
      ∃ span rest, spans = span :: rest ∧ ¬ span.Valid := by
  unfold checkRateLimits
  dsimp only
  split
  · refine ⟨_, rfl, exists_eq_cons_of_logged_append hrate (List.append_nil _).symm ?_⟩
    exact fun _ hvalid => h (isValidUtf8_clientIp_of_rateLimitCall_span hvalid)
  · rename_i hglobal
    split
    · refine ⟨_, rfl, exists_eq_cons_of_logged_append hrate (List.append_nil _).symm ?_⟩
      exact fun _ hvalid => h (isValidUtf8_clientIp_of_rateLimitCall_span hvalid)
    · rename_i hperIp
      exfalso
      apply hlimiter
      rw [Bool.and_eq_true, Option.isNone_iff_eq_none, Option.isNone_iff_eq_none]
      constructor
      · exact Option.eq_none_iff_forall_ne_some.mpr fun n hn => hglobal n hn rfl
      · exact Option.eq_none_iff_forall_ne_some.mpr fun n hn => hperIp n hn rfl

theorem exists_handleRequest_of_not_ok (libs : Libraries) (hrate : 0 < cfg.sampleRate)
    {req : Request} (h : mainRequestOk cfg req ≠ true) (method : Method) (body : Bytes) :
    ∃ env span rest, handleRequest libs cfg env method body req = span :: rest ∧
      ¬ span.Valid := by
  by_cases htrace : traceparentOk (getTraceparentHeader req) = true
  · have hboth : (cfg.rateLimiter.isNone && cfg.perIpRateLimiter.isNone) ≠ true ∧
        isValidUtf8 (scopedClientIp req) ≠ true := by
      rw [mainRequestOk, htrace, Bool.true_and, ne_eq, Bool.or_eq_true, not_or] at h
      exact h
    obtain ⟨spans, hspans, span, rest, rfl, hinvalid⟩ :=
      exists_checkRateLimits_of_not_valid req hrate hboth.1 hboth.2
    refine ⟨sampledChoices false false, span, rest, ?_, hinvalid⟩
    rw [handleRequest, if_neg (fun hdup => Bool.false_ne_true hdup.2.2.2.1), hspans]
  · obtain ⟨span, rest, hspans, hinvalid⟩ :=
      exists_processRequest_of_not_ok libs hrate htrace method body
    refine ⟨sampledChoices true true, span, rest, ?_, hinvalid⟩
    rw [handleRequest, if_neg (fun hdup => Bool.false_ne_true hdup.2.2.2.1),
      checkRateLimits_of_acquire]
    exact hspans

/-- **Every other request** has choices under which the first span it logs is not
valid, if the tracer samples spans at all. -/
theorem exists_handle_eq_cons_of_not_requestOk (libs : Libraries) (hrate : 0 < cfg.sampleRate)
    {method : Method} {req : Request} (h : requestOk libs cfg method req ≠ true) :
    ∃ env span rest, handle libs cfg env method req = span :: rest ∧ ¬ span.Valid := by
  cases method with
  | get =>
    simp only [requestOk] at h
    simp only [handle, handleGet]
    split
    · rename_i hown
      exact absurd (if_pos hown) h
    · rename_i hown
      rw [if_neg hown] at h
      split
      · rename_i hgateway
        rw [if_pos hgateway] at h
        exact exists_handleDbGateway_of_not_ok libs hrate h .get []
      · rename_i hgateway
        rw [if_neg hgateway] at h
        exact exists_handleRequest_of_not_ok libs hrate h .get []
  | post =>
    simp only [requestOk] at h
    simp only [handle, handlePost]
    split
    · rename_i hgateway
      rw [if_pos hgateway] at h
      exact exists_handleDbGateway_of_not_ok libs hrate h .post req.body
    · rename_i hgateway
      rw [if_neg hgateway] at h
      split
      · rename_i hbody
        exact absurd (if_pos hbody) h
      · rename_i hbody
        rw [if_neg hbody] at h
        exact exists_handleRequest_of_not_ok libs hrate h .post req.body

end Proxy
end HttpDataDiod
