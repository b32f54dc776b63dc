import HttpDataDiod.Transport.EnvelopeText

/-!
# What reaches NATS, and the limiters

The proxy has two pipelines.  `handle_request` asks the limiters in
`check_rate_limits` before it publishes on the main subject; `handle_db_gateway`
publishes on the subject of the database gateway.  A handler is here the list of
its calls of the limiters and of its publications, in order.

* `natsTraffic`: the calls and publications of one request.
* `gatewayRequest`: the request that `handle_db_gateway` passes to
  `route_db_request`, with `handleDbGateway_of_gatewayRequest` for the spans.
* `GatewaySends`: the requests that the gateway publishes.
* `covered_iff`: with both limiters enabled, a request is published only after both
  have granted it, exactly when it is not one of these.
-/

namespace HttpDataDiod
namespace Transport

open ByteText JsonValue Proxy Tracing

/-- The subjects of the two pipelines: `m_nats.m_subject` and `m_db_query.m_subject`. -/
inductive Subject where
  | nats
  | dbQuery
  deriving DecidableEq

/-- What a handler does to the limiters and to NATS. -/
inductive Effect where
  /-- `RateLimiter::acquire` returned this. -/
  | acquire (granted : Bool)
  /-- `PerIPRateLimiter::acquire(client_ip)` returned this. -/
  | acquirePerIp (clientIp : Bytes) (granted : Bool)
  /-- The request went out. -/
  | publish (subject : Subject) (text : Bytes)
  deriving DecidableEq

section Pipelines

variable (json : JsonLibrary) (tracer : Bool) (cfg : ProxyConfig) (env : HandlerChoices)

/-! ## The main path -/

/-- The first check of `check_rate_limits`: the call, if there is a limiter, and whether
the request goes on. -/
def askRateLimiter : List Effect × Bool :=
  match cfg.rateLimiter with
  | some _ => ([.acquire env.acquire], env.acquire)
  | none => ([], true)

/-- The second check. -/
def askPerIpRateLimiter (clientIp : Bytes) : List Effect × Bool :=
  match cfg.perIpRateLimiter with
  | some _ => ([.acquirePerIp clientIp env.acquirePerIp], env.acquirePerIp)
  | none => ([], true)

/-- `check_rate_limits`. -/
def askLimiters (clientIp : Bytes) : List Effect × Bool :=
  let first := askRateLimiter cfg env
  if first.2 then
    let second := askPerIpRateLimiter cfg env clientIp
    (first.1 ++ second.1, second.2)
  else first

/-- The publications of a text, as often as the NATS client gets it out: the poll sends it
again until an answer comes. -/
def published (sent : ℕ) (subject : Subject) (text : Bytes) : List Effect :=
  List.replicate sent (.publish subject text)

/-- `handle_request`. -/
def requestTraffic (sent : ℕ) (method : Method) (body : Bytes) (req : Request) : List Effect :=
  if method = .post ∧ !body.isEmpty ∧ cfg.duplicateEnabled ∧ env.duplicate ∧
      cfg.duplicateRejectEnabled then []
  else
    let asked := askLimiters cfg env (scopedClientIp req)
    asked.1 ++
      if asked.2 then
        match pushRequest json env method body req tracer with
        | some text => if text.isEmpty || !cfg.natsClient then [] else published sent .nats text
        | none => []
      else []

/-! ## The database gateway -/

/-- The request that the gateway builds from the payload. -/
def dbRequest (ctx : TraceContext) (type dbName : Bytes) (payload : JsonValue) : JsonObject :=
  if tracer then tracedDbRequest env ctx type dbName payload
  else buildDbQueryRequest type env.requestId.bytes dbName payload

/-- The path of a gateway request behind the prefix. -/
def gatewayPath (req : Request) : GatewayRouting.ParsedPath :=
  GatewayRouting.parsePath (GatewayRouting.normalizePathRest
    (req.path.drop GatewayRouting.kDbGatewayPath.length))

/-- The request that the part of `handle_db_gateway` behind the path's check passes to
`route_db_request`, if it gets there. -/
def dbActionRequest (method : Method) (body : Bytes) (ctx : TraceContext)
    (dbName action : Bytes) : Option JsonObject :=
  if action = ascii "query" ∧ method = .post then
    match json.parse body with
    | .value payload =>
      let request := dbRequest tracer env ctx Sql.DbQueryContract.kTypeQuery dbName payload
      match Sql.parseDbQueryRequest (.object request.entries) with
      | .ok _ => some request
      | .error _ => none
    | _ => none
  else if action = ascii "ping" ∧ method = .get then
    some (dbRequest tracer env ctx Sql.DbQueryContract.kTypePing dbName (.object []))
  else none

/-- The request that `handle_db_gateway` passes to `route_db_request`. -/
def gatewayRequest (method : Method) (body : Bytes) (req : Request) : Option JsonObject :=
  let parsed := gatewayPath req
  if !cfg.dbEnabled then none
  else if parsed.isList then none
  else if !parsed.valid then none
  else if cfg.databases.all fun db => db.bytes ≠ parsed.dbName then none
  else dbActionRequest json tracer env method body (requestTraceContext env req) parsed.dbName
    parsed.action

/-- `handle_db_gateway`.  The gateway asks NATS once. -/
def gatewayTraffic (sent : ℕ) (method : Method) (body : Bytes) (req : Request) : List Effect :=
  match gatewayRequest json tracer cfg env method body req with
  | none => []
  | some request =>
    if !cfg.natsClient then []
    else
      match json.dump (.object request.entries) with
      | some text => published (min sent 1) .dbQuery text
      | none => []

/-! ## The handlers -/

/-- `handle_get` and `handle_post`. -/
def natsTraffic (sent : ℕ) (method : Method) (req : Request) : List Effect :=
  match method with
  | .get =>
    if isOwnPath req.path then []
    else if GatewayRouting.kDbGatewayPath <+: req.path then
      gatewayTraffic json tracer cfg env sent .get [] req
    else requestTraffic json tracer cfg env sent .get [] req
  | .post =>
    if GatewayRouting.kDbGatewayPath <+: req.path then
      gatewayTraffic json tracer cfg env sent .post req.body req
    else if !req.body.isEmpty && !json.accept req.body && !cfg.rawBodyPassthrough then []
    else requestTraffic json tracer cfg env sent .post req.body req

/-- Both limiters granted the request before every publication. -/
def Covered (req : Request) (traffic : List Effect) : Prop :=
  ∀ before subject text after, traffic = before ++ .publish subject text :: after →
    .acquire true ∈ before ∧ .acquirePerIp (scopedClientIp req) true ∈ before

/-- **The requests that the gateway publishes**: the path is one of the gateway's and
names a configured database; it is a POST to `query` with a body that is accepted, or a
GET to `ping`; and the request can be written out and gets out. -/
structure GatewaySends (sent : ℕ) (method : Method) (req : Request) : Prop where
  isGatewayPath : GatewayRouting.kDbGatewayPath <+: req.path
  enabled : cfg.dbEnabled = true
  isAction : (gatewayPath req).isList = false ∧ (gatewayPath req).valid = true
  known : ∃ db ∈ cfg.databases, db.bytes = (gatewayPath req).dbName
  request : ∃ type payload,
    (((gatewayPath req).action = ascii "query" ∧ method = .post ∧
        type = Sql.DbQueryContract.kTypeQuery ∧ json.parse req.body = .value payload ∧
        ∃ r, Sql.parseDbQueryRequest (.object (dbRequest tracer env (requestTraceContext env req)
          type (gatewayPath req).dbName payload).entries) = .ok r) ∨
      ((gatewayPath req).action = ascii "ping" ∧ method = .get ∧
        type = Sql.DbQueryContract.kTypePing ∧ payload = .object [])) ∧
    (json.dump (.object (dbRequest tracer env (requestTraceContext env req)
      type (gatewayPath req).dbName payload).entries)).isSome = true
  client : cfg.natsClient = true
  getsOut : 0 < sent

end Pipelines

section Proofs

variable {json : JsonLibrary} {tracer : Bool} {cfg : ProxyConfig} {env : HandlerChoices}
  {sent : ℕ} {method : Method} {body : Bytes} {req : Request}

/-! ## The two models of a handler -/

/-- The limiters let a request go on exactly when the spans are not those of a rejection. -/
theorem askLimiters_snd (clientIp : Bytes) :
    (askLimiters cfg env clientIp).2 = (checkRateLimits cfg env clientIp req).isNone := by
  unfold askLimiters askRateLimiter askPerIpRateLimiter checkRateLimits
  cases cfg.rateLimiter with
  | none =>
    cases cfg.perIpRateLimiter with
    | none => rfl
    | some n => cases env.acquirePerIp <;> rfl
  | some m =>
    cases env.acquire with
    | false => rfl
    | true =>
      cases cfg.perIpRateLimiter with
      | none => rfl
      | some n => cases env.acquirePerIp <;> rfl

/-- The spans of a rejection: none, or those of an error. -/
def Rejects (cfg : ProxyConfig) (env : HandlerChoices) (method : Method) (path : Bytes)
    (ctx : TraceContext) (spans : List SpanData) : Prop :=
  spans = [] ∨ ∃ status, spans = sendDbGatewayError cfg env status method path ctx

theorem dispatchDbAction_of_dbActionRequest {ctx : TraceContext} {path dbName action : Bytes} :
    (∀ request, dbActionRequest json true env method body ctx dbName action = some request →
      dispatchDbAction (vendored json) cfg env method body path ctx dbName action =
        routeDbRequest (vendored json) cfg env method path ctx dbName request) ∧
    (dbActionRequest json true env method body ctx dbName action = none →
      Rejects cfg env method path ctx
        (dispatchDbAction (vendored json) cfg env method body path ctx dbName action)) := by
  unfold dbActionRequest dispatchDbAction dbRequest
  simp only [if_true, vendored]
  split
  · cases json.parse body with
    | outOfRange => exact ⟨nofun, fun _ => .inl rfl⟩
    | parseError what => exact ⟨nofun, fun _ => .inr ⟨400, rfl⟩⟩
    | value payload =>
      simp only
      cases Sql.parseDbQueryRequest (.object (tracedDbRequest env ctx
          Sql.DbQueryContract.kTypeQuery dbName payload).entries) with
      | error message => exact ⟨nofun, fun _ => .inr ⟨400, rfl⟩⟩
      | ok r => exact ⟨fun request h => by rw [Option.some.inj h], nofun⟩
  · split
    · exact ⟨fun request h => by rw [Option.some.inj h], nofun⟩
    · refine ⟨nofun, fun _ => ?_⟩
      cases GatewayRouting.classifyMethod action method with
      | none => exact .inl rfl
      | some status => exact .inr ⟨status, rfl⟩

/-- **The spans of the gateway.**  What it passes to `route_db_request` gives the spans of
`route_db_request`; everything else is answered with an error, or with the list of the
databases. -/
theorem handleDbGateway_of_gatewayRequest :
    ∃ spans, handleDbGateway (vendored json) cfg env method body req =
        logged cfg env 0 (incomingCall env req.path (requestTraceContext env req)) ++ spans ∧
      (∀ request, gatewayRequest json true cfg env method body req = some request →
        spans = routeDbRequest (vendored json) cfg env method req.path
          (requestTraceContext env req) (gatewayPath req).dbName request) ∧
      (gatewayRequest json true cfg env method body req = none →
        Rejects cfg env method req.path (requestTraceContext env req) spans) := by
  refine ⟨_, rfl, ?_⟩
  unfold gatewayRequest
  rw [← gatewayPath]
  simp only
  split
  · exact ⟨nofun, fun _ => .inr ⟨404, rfl⟩⟩
  split
  · refine ⟨nofun, fun _ => ?_⟩
    split
    · exact .inl rfl
    · exact .inr ⟨405, rfl⟩
  split
  · exact ⟨nofun, fun _ => .inr ⟨404, rfl⟩⟩
  split
  · exact ⟨nofun, fun _ => .inr ⟨404, rfl⟩⟩
  · exact dispatchDbAction_of_dbActionRequest

/-! ## The main path is covered -/

theorem not_publish_mem_askLimiters {clientIp text : Bytes} {subject : Subject} :
    Effect.publish subject text ∉ (askLimiters cfg env clientIp).1 := by
  unfold askLimiters askRateLimiter askPerIpRateLimiter
  cases cfg.rateLimiter <;> cases cfg.perIpRateLimiter <;> cases env.acquire <;> simp

/-- With both limiters enabled, a request goes on only when both have granted it. -/
theorem mem_askLimiters (hglobal : cfg.rateLimiter.isSome = true)
    (hperIp : cfg.perIpRateLimiter.isSome = true) {clientIp : Bytes}
    (h : (askLimiters cfg env clientIp).2 = true) :
    .acquire true ∈ (askLimiters cfg env clientIp).1 ∧
      .acquirePerIp clientIp true ∈ (askLimiters cfg env clientIp).1 := by
  obtain ⟨m, hm⟩ := Option.isSome_iff_exists.mp hglobal
  obtain ⟨n, hn⟩ := Option.isSome_iff_exists.mp hperIp
  simp only [askLimiters, askRateLimiter, askPerIpRateLimiter, hm, hn] at h ⊢
  cases hacquire : env.acquire with
  | false => simp [hacquire] at h
  | true =>
    simp only [hacquire, if_true] at h ⊢
    simp [h]

/-- What is published behind calls that publish nothing has these calls before it. -/
theorem subset_of_append_eq {calls rest before after : List Effect} {subject : Subject}
    {text : Bytes} (hcalls : ∀ subject text, Effect.publish subject text ∉ calls)
    (h : calls ++ rest = before ++ .publish subject text :: after) : calls ⊆ before := by
  rw [List.append_eq_append_iff] at h
  obtain ⟨more, rfl, -⟩ | ⟨more, rfl, htail⟩ := h
  · exact List.subset_append_left _ _
  · cases more with
    | nil => rw [List.append_nil]; exact List.Subset.refl _
    | cons e more =>
      obtain ⟨rfl, -⟩ := List.cons.inj htail
      exact absurd (List.mem_append_right _ List.mem_cons_self) (hcalls subject text)

theorem covered_nil : Covered req [] := by
  intro before subject text after h
  simp at h

/-- **The main path asks both limiters first.** -/
theorem covered_requestTraffic (hglobal : cfg.rateLimiter.isSome = true)
    (hperIp : cfg.perIpRateLimiter.isSome = true) :
    Covered req (requestTraffic json tracer cfg env sent method body req) := by
  unfold requestTraffic
  split
  · exact covered_nil
  · intro before subject text after h
    simp only at h
    have hsubset := subset_of_append_eq (fun _ _ => not_publish_mem_askLimiters) h
    split at h
    · rename_i hgranted
      obtain ⟨hfirst, hsecond⟩ := mem_askLimiters hglobal hperIp hgranted
      exact ⟨hsubset hfirst, hsubset hsecond⟩
    · rw [List.append_nil] at h
      exact absurd (h ▸ List.mem_append_right _ List.mem_cons_self) not_publish_mem_askLimiters

/-- What goes out on the main subject is the request as it was written out. -/
theorem pushRequest_of_mem_requestTraffic {text : Bytes}
    (h : .publish .nats text ∈ requestTraffic json tracer cfg env sent method body req) :
    pushRequest json env method body req tracer = some text := by
  unfold requestTraffic at h
  split at h
  · exact absurd h List.not_mem_nil
  · rcases List.mem_append.mp h with h | h
    · exact absurd h not_publish_mem_askLimiters
    · split at h
      · split at h
        · next text' hpush =>
          split at h
          · exact absurd h List.not_mem_nil
          · obtain ⟨-, rfl⟩ := Effect.publish.inj (List.eq_of_mem_replicate h)
            exact hpush
        · exact absurd h List.not_mem_nil
      · exact absurd h List.not_mem_nil

/-! ## The gateway is not -/

/-- The gateway publishes the text of its request on its own subject, and does nothing else. -/
theorem exists_of_mem_gatewayTraffic {e : Effect}
    (h : e ∈ gatewayTraffic json tracer cfg env sent method body req) :
    ∃ request text, gatewayRequest json tracer cfg env method body req = some request ∧
      json.dump (.object request.entries) = some text ∧ e = .publish .dbQuery text := by
  unfold gatewayTraffic at h
  split at h
  · exact absurd h List.not_mem_nil
  · next request hrequest =>
    split at h
    · exact absurd h List.not_mem_nil
    · split at h
      · next text hdump => exact ⟨request, text, hrequest, hdump, List.eq_of_mem_replicate h⟩
      · exact absurd h List.not_mem_nil

/-- What the gateway publishes no limiter has been asked about. -/
theorem covered_gatewayTraffic_iff :
    Covered req (gatewayTraffic json tracer cfg env sent method body req) ↔
      gatewayTraffic json tracer cfg env sent method body req = [] := by
  constructor
  · intro h
    cases htraffic : gatewayTraffic json tracer cfg env sent method body req with
    | nil => rfl
    | cons e rest =>
      obtain ⟨-, text, -, -, rfl⟩ :=
        exists_of_mem_gatewayTraffic (htraffic ▸ List.mem_cons_self)
      rw [htraffic] at h
      exact absurd (h [] .dbQuery text rest rfl).1 List.not_mem_nil
  · intro h
    rw [h]
    exact covered_nil

/-- The request that passes the checks of an action. -/
theorem dbActionRequest_eq_some_iff {ctx : TraceContext} {dbName action : Bytes}
    {request : JsonObject} :
    dbActionRequest json tracer env method body ctx dbName action = some request ↔
      ∃ type payload,
        ((action = ascii "query" ∧ method = .post ∧ type = Sql.DbQueryContract.kTypeQuery ∧
            json.parse body = .value payload ∧
            ∃ r, Sql.parseDbQueryRequest (.object (dbRequest tracer env ctx type dbName
              payload).entries) = .ok r) ∨
          (action = ascii "ping" ∧ method = .get ∧ type = Sql.DbQueryContract.kTypePing ∧
            payload = .object [])) ∧
        request = dbRequest tracer env ctx type dbName payload := by
  unfold dbActionRequest
  constructor
  · intro h
    split at h
    · rename_i hquery
      cases hparse : json.parse body with
      | outOfRange => rw [hparse] at h; cases h
      | parseError what => rw [hparse] at h; cases h
      | value payload =>
        simp only [hparse] at h
        cases hvalid : Sql.parseDbQueryRequest (.object (dbRequest tracer env ctx
            Sql.DbQueryContract.kTypeQuery dbName payload).entries) with
        | error message => rw [hvalid] at h; cases h
        | ok r =>
          rw [hvalid] at h
          exact ⟨_, payload, .inl ⟨hquery.1, hquery.2, rfl, rfl, r, hvalid⟩,
            (Option.some.inj h).symm⟩
    · split at h
      · rename_i hping
        exact ⟨_, _, .inr ⟨hping.1, hping.2, rfl, rfl⟩, (Option.some.inj h).symm⟩
      · cases h
  · rintro ⟨type, payload, ⟨rfl, rfl, rfl, hparse, r, hvalid⟩ | ⟨rfl, rfl, rfl, rfl⟩, rfl⟩
    · rw [if_pos ⟨rfl, rfl⟩, hparse]
      simp only [hvalid]
    · rw [if_neg (by decide), if_pos ⟨rfl, rfl⟩]

/-- The request that passes all checks of the gateway. -/
theorem gatewayRequest_eq_some_iff {request : JsonObject} :
    gatewayRequest json tracer cfg env method body req = some request ↔
      cfg.dbEnabled = true ∧
      ((gatewayPath req).isList = false ∧ (gatewayPath req).valid = true) ∧
      (∃ db ∈ cfg.databases, db.bytes = (gatewayPath req).dbName) ∧
      dbActionRequest json tracer env method body (requestTraceContext env req)
        (gatewayPath req).dbName (gatewayPath req).action = some request := by
  have hknown : (cfg.databases.all fun db => db.bytes ≠ (gatewayPath req).dbName) = false ↔
      ∃ db ∈ cfg.databases, db.bytes = (gatewayPath req).dbName := by
    simp [List.all_eq_false]
  rw [← hknown]
  unfold gatewayRequest
  simp only
  cases cfg.dbEnabled with
  | false => simp
  | true =>
    cases (gatewayPath req).isList with
    | true => simp
    | false =>
      cases (gatewayPath req).valid with
      | false => simp
      | true =>
        cases cfg.databases.all fun db => db.bytes ≠ (gatewayPath req).dbName with
        | true => simp
        | false => simp

/-- **What the gateway publishes.** -/
theorem gatewayTraffic_ne_nil_iff (hpath : GatewayRouting.kDbGatewayPath <+: req.path)
    (hbody : method = .post → body = req.body) :
    gatewayTraffic json tracer cfg env sent method body req ≠ [] ↔
      GatewaySends json tracer cfg env sent method req := by
  unfold gatewayTraffic
  constructor
  · intro h
    cases hrequest : gatewayRequest json tracer cfg env method body req with
    | none => simp [hrequest] at h
    | some request =>
      simp only [hrequest] at h
      obtain ⟨henabled, hvalid, hknown, haction⟩ := gatewayRequest_eq_some_iff.mp hrequest
      obtain ⟨type, payload, hcase, rfl⟩ := dbActionRequest_eq_some_iff.mp haction
      cases hclient : cfg.natsClient with
      | false => simp [hclient] at h
      | true =>
        cases hdump : json.dump (.object (dbRequest tracer env (requestTraceContext env req) type
            (gatewayPath req).dbName payload).entries) with
        | none => simp [hclient, hdump] at h
        | some text =>
          refine ⟨hpath, henabled, hvalid, hknown, ⟨type, payload, ?_, by rw [hdump]; rfl⟩,
            hclient, ?_⟩
          · obtain ⟨hquery, hpost, htype, hparse, hr⟩ | hping := hcase
            · exact .inl ⟨hquery, hpost, htype, hbody hpost ▸ hparse, hr⟩
            · exact .inr hping
          · cases sent with
            | zero => simp [hclient, hdump, published] at h
            | succ n => exact Nat.succ_pos n
  · intro h
    obtain ⟨type, payload, hcase, hdump⟩ := h.request
    obtain ⟨text, htext⟩ := Option.isSome_iff_exists.mp hdump
    have haction : dbActionRequest json tracer env method body (requestTraceContext env req)
        (gatewayPath req).dbName (gatewayPath req).action =
          some (dbRequest tracer env (requestTraceContext env req) type
            (gatewayPath req).dbName payload) := by
      refine dbActionRequest_eq_some_iff.mpr ⟨type, payload, ?_, rfl⟩
      obtain ⟨hquery, hpost, htype, hparse, hr⟩ | hping := hcase
      · exact .inl ⟨hquery, hpost, htype, hbody hpost ▸ hparse, hr⟩
      · exact .inr hping
    have hrequest := gatewayRequest_eq_some_iff.mpr ⟨h.enabled, h.isAction, h.known, haction⟩
    have hone : min sent 1 = 1 := Nat.min_eq_right h.getsOut
    simp [hrequest, h.client, htext, published, hone]

/-- The paths that `handle_get` answers itself are none of the gateway's. -/
theorem not_isOwnPath_of_isGatewayPath {path : Bytes}
    (h : GatewayRouting.kDbGatewayPath <+: path) : isOwnPath path = false := by
  by_contra hown
  simp only [Bool.not_eq_false, isOwnPath, isLivenessPath, Bool.or_eq_true,
    decide_eq_true_eq] at hown
  rcases hown with (((((rfl | rfl) | rfl) | rfl) | rfl) | rfl) | rfl <;> revert h <;> decide

/-- **The limiters cover a request exactly when the gateway does not send it.**  With the
global and the per-IP limiter enabled, every publication of a request comes after both have
granted it, unless the request is one that the database gateway publishes. -/
theorem covered_iff (json : JsonLibrary) (tracer : Bool) (cfg : ProxyConfig)
    (env : HandlerChoices) (sent : ℕ) (method : Method) (req : Request)
    (hglobal : cfg.rateLimiter.isSome = true) (hperIp : cfg.perIpRateLimiter.isSome = true) :
    Covered req (natsTraffic json tracer cfg env sent method req) ↔
      ¬ GatewaySends json tracer cfg env sent method req := by
  by_cases hpath : GatewayRouting.kDbGatewayPath <+: req.path
  · cases method with
    | get =>
      rw [natsTraffic, not_isOwnPath_of_isGatewayPath hpath, if_neg (by decide), if_pos hpath,
        covered_gatewayTraffic_iff, ← gatewayTraffic_ne_nil_iff hpath (by simp), not_not]
    | post =>
      rw [natsTraffic, if_pos hpath, covered_gatewayTraffic_iff,
        ← gatewayTraffic_ne_nil_iff hpath (fun _ => rfl), not_not]
  · refine iff_of_true ?_ fun h => hpath h.isGatewayPath
    cases method with
    | get =>
      rw [natsTraffic, if_neg hpath]
      split
      · exact covered_nil
      · exact covered_requestTraffic hglobal hperIp
    | post =>
      rw [natsTraffic, if_neg hpath]
      split
      · exact covered_nil
      · exact covered_requestTraffic hglobal hperIp

end Proofs

/-! ## Two requests -/

theorem isValidUtf8_mainDb : isValidUtf8 (ascii "main") = true := by decide

/-- A proxy with both limiters, and the gateway for one database. -/
def limitedProxy : ProxyConfig where
  mode := ⟨ascii "proxy", isValidUtf8_proxyMode⟩
  sampleRate := 0
  rawBodyPassthrough := false
  duplicateEnabled := false
  duplicateRejectEnabled := false
  rateLimiter := some 100
  perIpRateLimiter := some 10
  dbEnabled := true
  dbSubject := ⟨[], isValidUtf8_nil⟩
  databases := [⟨ascii "main", isValidUtf8_mainDb⟩]
  natsClient := true

/-- A request for a path, and nothing else. -/
def plainGet (path : Bytes) : Request := { sampleRequest with path, body := [] }

/-- The text of the gateway's ping. -/
def pingText : Text where
  bytes := ascii "\x7b\"db\":\"main\"," ++ ascii "\"request_id\":\"\"," ++
    ascii "\"type\":\"ping\"\x7d"
  valid := by decide +kernel

/-- Both limiters grant a request of the main path, and then it goes out twice. -/
theorem covered_iff_mainPath :
    natsTraffic (JsonLibrary.single .null pingText) false limitedProxy (sampledChoices true true) 2
        .get (plainGet (ascii "/api")) =
      [.acquire true, .acquirePerIp (ascii "10.0.0.1") true, .publish .nats pingText.bytes,
        .publish .nats pingText.bytes] ∧
    Covered (plainGet (ascii "/api"))
      (natsTraffic (JsonLibrary.single .null pingText) false limitedProxy
        (sampledChoices true true) 2 .get (plainGet (ascii "/api"))) :=
  ⟨by decide +kernel, (covered_iff _ _ _ _ _ _ _ rfl rfl).mpr
    fun h => absurd h.isGatewayPath (by decide)⟩

/-- A ping of the gateway goes out although both limiters are exhausted: neither is
asked. -/
theorem not_covered_ping :
    limitedProxy.rateLimiter.isSome = true ∧ limitedProxy.perIpRateLimiter.isSome = true ∧
    natsTraffic (JsonLibrary.single .null pingText) false limitedProxy (sampledChoices false false)
        1 .get (plainGet (ascii "/v1/sql/main/ping")) = [.publish .dbQuery pingText.bytes] ∧
    ¬ Covered (plainGet (ascii "/v1/sql/main/ping"))
      (natsTraffic (JsonLibrary.single .null pingText) false limitedProxy
        (sampledChoices false false) 1 .get (plainGet (ascii "/v1/sql/main/ping"))) := by
  have htraffic : natsTraffic (JsonLibrary.single .null pingText) false limitedProxy
      (sampledChoices false false) 1 .get (plainGet (ascii "/v1/sql/main/ping")) =
        [.publish .dbQuery pingText.bytes] := by decide +kernel
  refine ⟨rfl, rfl, htraffic, fun h => ?_⟩
  exact absurd (h [] .dbQuery pingText.bytes [] (by rw [htraffic]; rfl)).1 List.not_mem_nil

end Transport
end HttpDataDiod
