import HttpDataDiod.Transport.NatsTraffic
import HttpDataDiod.Worker.DbQuery

/-!
# Proxy and worker read a database request alike

The proxy builds the request of the gateway field by field from the payload of the client,
adds its trace, checks the result with `parse_db_query_request` and sends its text; the worker
parses the text and checks it again with the same function.  What it finds is what the proxy
has found: a request that passes the first check passes the second one, and is handed to the
executor of the database in the path.

* `parseDbQueryRequest_wire`: the parser on a value that went over NATS.
* `find_dbRequest`: the fields of the request that the proxy builds.
* `DbQueryRequest.Same`: the two requests are the same.
* `dbRequest_agreement`: proxy and worker agree, and what is published has been checked.
-/

namespace HttpDataDiod

open ByteText JsonValue

/-! ## The parser at the other end -/

namespace JsonValue

theorem safeGetString_wire (j : JsonValue) (key fallback : Bytes) :
    j.wire.safeGetString key fallback = j.safeGetString key fallback := by
  unfold safeGetString
  rw [find_wire]
  cases j.find key with
  | none => rfl
  | some v =>
    cases v with
    | string s => rw [Option.map_some, wire_string]
    | int n =>
      rw [Option.map_some, wire]
      by_cases hn : 0 ≤ n
      · rw [if_pos hn]
      · rw [if_neg hn]
    | object entries => rw [Option.map_some, wire_object]
    | array elems => rw [Option.map_some, wire]
    | null => rw [Option.map_some, wire]
    | bool b => rw [Option.map_some, wire]
    | uint n => rw [Option.map_some, wire]
    | float bits => rw [Option.map_some, wire]

theorem isScalar_wire (j : JsonValue) : j.wire.isScalar = j.isScalar := by
  cases j with
  | int n =>
    rw [wire]
    split <;> rfl
  | object entries => rw [wire_object]; rfl
  | array elems => rw [wire]; rfl
  | null => rw [wire]
  | bool b => rw [wire]
  | uint n => rw [wire]
  | float bits => rw [wire]
  | string s => rw [wire]

/-- The entries of an object at the other end. -/
def wired (entries : List (Bytes × JsonValue)) : List (Bytes × JsonValue) :=
  entries.map fun e => (e.1, e.2.wire)

theorem setEntry_wired (key : Bytes) (v : JsonValue) (es : List (Bytes × JsonValue)) :
    setEntry key v.wire (wired es) = wired (setEntry key v es) := by
  unfold wired
  induction es with
  | nil => rfl
  | cons e es ih =>
    simp only [List.map_cons, setEntry]
    split
    · rfl
    · split
      · rfl
      · rw [List.map_cons, ih]

end JsonValue

namespace Sql

open DbQueryContract

theorem parseParamItems_wired (acc items : List (Bytes × JsonValue)) :
    parseParamItems (wired acc) (wired items) = (parseParamItems acc items).map wired := by
  induction items generalizing acc with
  | nil => rfl
  | cons item items ih =>
    obtain ⟨name, value⟩ := item
    show parseParamItems (wired acc) ((name, value.wire) :: wired items) = _
    rw [parseParamItems, parseParamItems, isScalar_wire, setEntry_wired]
    split
    · exact ih _
    · rfl

theorem parseParams_wire (j : JsonValue) : parseParams j.wire = (parseParams j).map wired := by
  unfold parseParams
  rw [find_wire]
  cases j.find kParams with
  | none => rfl
  | some v =>
    cases v with
    | object items =>
      rw [Option.map_some, wire_object]
      exact parseParamItems_wired [] items
    | int n =>
      rw [Option.map_some, wire]
      by_cases hn : 0 ≤ n
      · rw [if_pos hn]; rfl
      · rw [if_neg hn]; rfl
    | array elems => rw [Option.map_some, wire]; rfl
    | null => rw [Option.map_some, wire]; rfl
    | bool b => rw [Option.map_some, wire]; rfl
    | uint n => rw [Option.map_some, wire]; rfl
    | float bits => rw [Option.map_some, wire]; rfl
    | string s => rw [Option.map_some, wire]; rfl

theorem parseLimit_wire (j : JsonValue) (key : Bytes) (message : String) :
    parseLimit j.wire key message = parseLimit j key message := by
  unfold parseLimit
  rw [safeGetInt_wire]

/-- The request with its parameters as they come out at the other end. -/
def DbQueryRequest.wire (r : DbQueryRequest) : DbQueryRequest := { r with params := wired r.params }

/-- **The parser on a value that went over NATS.** -/
theorem parseDbQueryRequest_wire {j : JsonValue} {r : DbQueryRequest}
    (h : parseDbQueryRequest j = .ok r) : parseDbQueryRequest j.wire = .ok r.wire := by
  rw [parseDbQueryRequest_eq_ok_iff] at h ⊢
  simp only [isObject_wire, safeGetString_wire, parseLimit_wire, parseParams_wire]
  obtain ⟨hobject, htype, hsql, hparams, htimeout, hrows, hfields⟩ := h
  exact ⟨hobject, htype, hsql, by rw [hparams]; rfl, htimeout, hrows, hfields⟩

/-- Parameters that are of the kinds the parser gives stay as they are. -/
theorem wired_params_of_find {j : JsonValue} {r : DbQueryRequest}
    (h : parseDbQueryRequest j = .ok r)
    (hfind : (j.find kParams).map JsonValue.wire = j.find kParams) :
    wired r.params = r.params := by
  obtain ⟨-, -, -, hparams, -⟩ := parseDbQueryRequest_eq_ok_iff.mp h
  have hwire : parseParams j.wire = parseParams j := by
    unfold parseParams
    rw [find_wire, hfind]
  rw [parseParams_wire, hparams] at hwire
  exact Except.ok.inj hwire

end Sql

/-! ## The request that the proxy builds -/

namespace Transport

open Proxy Tracing Worker Sql DbQueryContract

section Request

variable (tracer : Bool) (env : HandlerChoices) (ctx : TraceContext) (type dbName : Bytes)
  (payload : JsonValue)

theorem keys_payloadFields :
    ((payloadFields payload).map Prod.fst).Sublist [kParams, kTimeoutMs, kMaxRows] := by
  have hkeys : (payloadFields payload).map Prod.fst =
      [kParams, kTimeoutMs, kMaxRows].filter fun key => (payload.find key).isSome := by
    rw [payloadFields, List.map_filterMap, ← List.filterMap_eq_filter]
    refine List.filterMap_congr fun key _ => ?_
    cases hfind : payload.find key <;> simp [Option.guard, hfind]
  rw [hkeys]
  exact List.filter_sublist

/-- The assignments of `build_db_query_request`. -/
def builtFields (requestId : Bytes) : List (Bytes × JsonValue) :=
  [(kType, JsonValue.string type), (DbQueryContract.kRequestId, .string requestId),
    (kDb, .string dbName)] ++
   (if type = kTypeQuery then [(kSql, JsonValue.string (payload.safeGetString kSql []))]
    else []) ++
   payloadFields payload

theorem keys_builtFields (requestId : Bytes) :
    ((builtFields type dbName payload requestId).map Prod.fst).Sublist
      [kType, DbQueryContract.kRequestId, kDb, kSql, kParams, kTimeoutMs, kMaxRows] := by
  rw [builtFields, List.map_append, List.map_append]
  have hsql : ((if type = kTypeQuery then
      [(kSql, JsonValue.string (payload.safeGetString kSql []))] else []).map Prod.fst).Sublist
        [kSql] := by
    split
    · exact List.Sublist.refl _
    · exact List.nil_sublist _
  exact ((List.Sublist.refl [kType, DbQueryContract.kRequestId, kDb]).append hsql).append
    (keys_payloadFields payload)

theorem nodup_keys_builtFields (requestId : Bytes) :
    ((builtFields type dbName payload requestId).map Prod.fst).Nodup :=
  (keys_builtFields type dbName payload requestId).nodup (by decide)

/-- The optional fields of the client are taken over as they are. -/
theorem find_builtFields_payload (requestId : Bytes) {key : Bytes}
    (hkey : key ∈ [kParams, kTimeoutMs, kMaxRows]) :
    (JsonObject.of (builtFields type dbName payload requestId)).find key = payload.find key := by
  cases hfind : payload.find key with
  | some v =>
    refine JsonObject.find_of_of_mem (nodup_keys_builtFields type dbName payload requestId) ?_
    refine List.mem_append_right _ (List.mem_filterMap.mpr ⟨key, hkey, ?_⟩)
    rw [hfind]
    rfl
  | none =>
    refine JsonObject.find_of_of_not_mem fun hmem => ?_
    obtain ⟨p, hp, rfl⟩ := List.mem_map.mp hmem
    rcases List.mem_append.mp hp with hp | hp
    · have hfixed : p.1 ∈ [kType, DbQueryContract.kRequestId, kDb, kSql] := by
        rcases List.mem_append.mp hp with hp | hp
        · exact List.mem_append_left [kSql] (List.mem_map_of_mem hp)
        · split at hp
          · rw [List.mem_singleton.mp hp]
            simp
          · exact absurd hp List.not_mem_nil
      have hdisjoint : ∀ key ∈ [kType, DbQueryContract.kRequestId, kDb, kSql],
          key ∉ [kParams, kTimeoutMs, kMaxRows] := by decide
      exact hdisjoint _ hfixed hkey
    · obtain ⟨key, -, hv⟩ := List.mem_filterMap.mp hp
      obtain ⟨v, hfound, rfl⟩ := Option.map_eq_some_iff.mp hv
      exact absurd (hfound.symm.trans hfind) (by simp)

/-- The trace of the proxy goes to keys of its own. -/
theorem find_dbRequest {key : Bytes}
    (hkey : key ∈ [kType, DbQueryContract.kRequestId, kDb, kSql, kParams, kTimeoutMs, kMaxRows]) :
    (dbRequest tracer env ctx type dbName payload).find key =
      (JsonObject.of (builtFields type dbName payload env.requestId.bytes)).find key := by
  unfold dbRequest
  split
  · refine JsonObject.find_assign_of_not_mem fun hmem => ?_
    have hdisjoint : ∀ key ∈ [kType, DbQueryContract.kRequestId, kDb, kSql, kParams, kTimeoutMs,
        kMaxRows], key ∉ [NatsContract.kProxyTraceId, NatsContract.kProxySpanId,
          NatsContract.kProxyInletSpanId, NatsContract.kProxyTraceparent] := by decide
    exact hdisjoint key hkey hmem
  · rfl

/-- A text among the fields. -/
theorem safeGetString_dbRequest {key text : Bytes}
    (hkey : key ∈ [kType, DbQueryContract.kRequestId, kDb, kSql, kParams, kTimeoutMs, kMaxRows])
    (hmem : (key, JsonValue.string text) ∈
      builtFields type dbName payload env.requestId.bytes) :
    (JsonValue.object (dbRequest tracer env ctx type dbName payload).entries).safeGetString key
      [] = text := by
  have hfind := (find_dbRequest tracer env ctx type dbName payload hkey).trans
    (JsonObject.find_of_of_mem (nodup_keys_builtFields type dbName payload _) hmem)
  unfold JsonObject.find at hfind
  rw [safeGetString, hfind]

/-- An optional field. -/
theorem find_dbRequest_payload {key : Bytes} (hkey : key ∈ [kParams, kTimeoutMs, kMaxRows]) :
    (JsonValue.object (dbRequest tracer env ctx type dbName payload).entries).find key =
      payload.find key :=
  (find_dbRequest tracer env ctx type dbName payload
    (List.mem_append_right [kType, DbQueryContract.kRequestId, kDb, kSql] hkey)).trans
    (find_builtFields_payload type dbName payload _ hkey)

/-- **The fields of an accepted request**: type, database and request id are the ones
given. -/
theorem fields_of_parse_dbRequest {r : DbQueryRequest}
    (h : parseDbQueryRequest (.object (dbRequest tracer env ctx type dbName payload).entries)
      = .ok r) :
    r.type = type ∧ r.db = dbName ∧ r.requestId = env.requestId.bytes := by
  obtain ⟨-, -, -, -, -, -, htype, hid, hdb, -⟩ := parseDbQueryRequest_eq_ok_iff.mp h
  refine ⟨htype.trans (safeGetString_dbRequest tracer env ctx type dbName payload (by decide) ?_),
    hdb.trans (safeGetString_dbRequest tracer env ctx type dbName payload (by decide) ?_),
    hid.trans (safeGetString_dbRequest tracer env ctx type dbName payload (by decide) ?_)⟩
  · simp [builtFields]
  · simp [builtFields]
  · simp [builtFields]

/-- The proxy does not check a ping: its request would always pass. -/
theorem exists_parse_ping :
    ∃ r, parseDbQueryRequest (.object (dbRequest tracer env ctx kTypePing dbName
      (.object [])).entries) = .ok r := by
  have htype : (JsonValue.object (dbRequest tracer env ctx kTypePing dbName
      (.object [])).entries).safeGetString kType [] = kTypePing :=
    safeGetString_dbRequest tracer env ctx kTypePing dbName (.object []) (by decide)
      (by simp [builtFields])
  have hfind {key : Bytes} (hkey : key ∈ [kParams, kTimeoutMs, kMaxRows]) :=
    find_dbRequest_payload tracer env ctx kTypePing dbName (.object []) hkey
  refine ⟨⟨_, _, _, _, [], -1, -1⟩, parseDbQueryRequest_eq_ok_iff.mpr
    ⟨rfl, .inr htype, ?_, ?_, ?_, ?_, rfl, rfl, rfl, rfl⟩⟩
  · rw [htype]
    rfl
  · rw [parseParams, hfind (by decide)]
    rfl
  · rw [parseLimit, safeGetInt, hfind (by decide)]
    rfl
  · rw [parseLimit, safeGetInt, hfind (by decide)]
    rfl

end Request

/-! ## The worker's handler -/

section Handler

variable (stod : Bytes → Option UInt64)

/-- A request for a database is answered by the executor of exactly this name, and as an
unknown one when there is none; the request itself is not refused. -/
structure DispatchedTo (h : DbQueryHandler) (j : JsonValue) (dbName : Bytes) (r : DbQueryRequest) :
    Prop where
  executor : ∀ e ∈ h.executors, e.config.name = dbName →
    h.handleRequest stod j = e.answer stod r
  unknown : (∀ e ∈ h.executors, e.config.name ≠ dbName) →
    h.handleRequest stod j = (404, makeDbErrorBody (ascii "UNKNOWN_DATABASE")
      (ascii "Unknown database '" ++ dbName ++ ascii "'"))
  accepted : (h.handleRequest stod j).1 ≠ 400

theorem status_executeQuery (e : DbQueryExecutor) (sql : Bytes) (params : List (Bytes × JsonValue))
    (timeoutMs maxRows : ℤ) : (e.executeQuery stod sql params timeoutMs maxRows).1 ≠ 400 := by
  unfold DbQueryExecutor.executeQuery
  cases e.driver with
  | postgres execute =>
    simp only [PgDelivery.body]
    split
    · simp [makeDbUnavailable]
    split
    · simp [makeDbSqlError]
    split
    · simp [makeDbSqlError]
    split
    · simp [makeDbSqlError]
    · simp
  | oracle execute =>
    simp only [OracleDelivery.body]
    split
    · simp [makeDbUnavailable]
    split
    · simp [makeDbUnavailable]
    split
    · simp [makeDbSqlError]
    · simp

theorem status_answer (e : DbQueryExecutor) (r : DbQueryRequest) : (e.answer stod r).1 ≠ 400 := by
  unfold DbQueryExecutor.answer
  split
  · split <;> simp
  · exact status_executeQuery stod e _ _ _ _

theorem select_of_ne_nil (h : DbQueryHandler) {db : Bytes} (hdb : db ≠ []) :
    h.select db = h.executors.find? fun e => e.config.name = db := by
  unfold DbQueryHandler.select
  split
  · exact absurd rfl hdb
  · rfl

theorem handleRequest_of_select (h : DbQueryHandler) {j : JsonValue} {r : DbQueryRequest}
    {e : DbQueryExecutor} (hparse : parseDbQueryRequest j = .ok r)
    (hselect : h.select r.db = some e) : h.handleRequest stod j = e.answer stod r := by
  unfold DbQueryHandler.handleRequest
  rw [hparse]
  simp only [hselect]

theorem handleRequest_of_select_eq_none (h : DbQueryHandler) {j : JsonValue} {r : DbQueryRequest}
    (hparse : parseDbQueryRequest j = .ok r) (hselect : h.select r.db = none) :
    h.handleRequest stod j = (404, makeDbErrorBody (ascii "UNKNOWN_DATABASE")
      (ascii "Unknown database '" ++ r.db ++ ascii "'")) := by
  unfold DbQueryHandler.handleRequest
  rw [hparse]
  simp only [hselect]

/-- An accepted request that names a database goes to the executor of that name. -/
theorem dispatchedTo_of_parse (h : DbQueryHandler) {j : JsonValue} {r : DbQueryRequest}
    (hparse : parseDbQueryRequest j = .ok r) (hdb : r.db ≠ []) : DispatchedTo stod h j r.db r := by
  have hselect := select_of_ne_nil h hdb
  cases hfound : h.executors.find? fun e => e.config.name = r.db with
  | none =>
    have hunknown := handleRequest_of_select_eq_none stod h hparse (hselect.trans hfound)
    refine ⟨fun e he hname => ?_, fun _ => hunknown, ?_⟩
    · exact absurd hname (by simpa using List.find?_eq_none.mp hfound e he)
    · rw [hunknown]
      simp
  | some e =>
    have hname : e.config.name = r.db := by simpa using List.find?_some hfound
    have hmem := List.mem_of_find?_eq_some hfound
    have hanswer := handleRequest_of_select stod h hparse (hselect.trans hfound)
    refine ⟨fun e' he' hname' => ?_, fun hnone => absurd hname (hnone e hmem), ?_⟩
    · rw [List.inj_on_of_nodup_map h.nodup he' hmem (hname'.trans hname.symm)]
      exact hanswer
    · rw [hanswer]
      exact status_answer stod e r

end Handler

/-! ## Agreement -/

theorem dbName_ne_nil_of_valid {req : Request} (hlist : (gatewayPath req).isList = false)
    (hvalid : (gatewayPath req).valid = true) : (gatewayPath req).dbName ≠ [] := by
  unfold gatewayPath at hlist hvalid ⊢
  unfold GatewayRouting.parsePath at hlist hvalid ⊢
  split at hlist
  · cases hlist
  · rename_i hrest
    rw [if_neg hrest] at hvalid ⊢
    simp only [Bool.and_eq_true, Bool.not_eq_true', List.isEmpty_eq_false_iff] at hvalid
    exact hvalid.1.1

section Agreement

variable {json : JsonLibrary} {tracer : Bool} {cfg : ProxyConfig} {env : HandlerChoices} {sent : ℕ}
  {method : Method} {body : Bytes} {req : Request}

/-- What the gateway publishes is the text of a request that passes the check, for the
database in the path. -/
theorem checked_of_mem_gatewayTraffic {text : Bytes}
    (h : .publish .dbQuery text ∈ gatewayTraffic json tracer cfg env sent method body req) :
    (gatewayPath req).dbName ≠ [] ∧
      ∃ type payload r,
        parseDbQueryRequest (.object (dbRequest tracer env (requestTraceContext env req) type
          (gatewayPath req).dbName payload).entries) = .ok r ∧
        json.dump (.object (dbRequest tracer env (requestTraceContext env req) type
          (gatewayPath req).dbName payload).entries) = some text := by
  obtain ⟨request, text', hrequest, hdump, heq⟩ := exists_of_mem_gatewayTraffic h
  obtain ⟨-, rfl⟩ := Effect.publish.inj heq
  obtain ⟨-, ⟨hlist, hvalid⟩, -, haction⟩ := gatewayRequest_eq_some_iff.mp hrequest
  obtain ⟨type, payload, hchecked, rfl⟩ := dbActionRequest_eq_some_iff.mp haction
  refine ⟨dbName_ne_nil_of_valid hlist hvalid, type, payload, ?_⟩
  rcases hchecked with ⟨-, -, -, -, r, hr⟩ | ⟨-, -, rfl, rfl⟩
  · exact ⟨r, hr, hdump⟩
  · obtain ⟨r, hr⟩ := exists_parse_ping tracer env (requestTraceContext env req)
      (gatewayPath req).dbName
    exact ⟨r, hr, hdump⟩

/-- The main path publishes on its own subject. -/
theorem not_publish_dbQuery_mem_requestTraffic {text : Bytes} :
    .publish .dbQuery text ∉ requestTraffic json tracer cfg env sent method body req := by
  unfold requestTraffic
  intro h
  split at h
  · exact absurd h List.not_mem_nil
  rcases List.mem_append.mp h with h | h
  · exact not_publish_mem_askLimiters h
  split at h
  · split at h
    · split at h
      · exact absurd h List.not_mem_nil
      · have heq := List.eq_of_mem_replicate h
        exact absurd heq (by simp)
    · exact absurd h List.not_mem_nil
  · exact absurd h List.not_mem_nil

theorem checked_of_mem_natsTraffic {text : Bytes}
    (h : .publish .dbQuery text ∈ natsTraffic json tracer cfg env sent method req) :
    (gatewayPath req).dbName ≠ [] ∧
      ∃ type payload r,
        parseDbQueryRequest (.object (dbRequest tracer env (requestTraceContext env req) type
          (gatewayPath req).dbName payload).entries) = .ok r ∧
        json.dump (.object (dbRequest tracer env (requestTraceContext env req) type
          (gatewayPath req).dbName payload).entries) = some text := by
  cases method with
  | get =>
    rw [natsTraffic] at h
    split at h
    · exact absurd h List.not_mem_nil
    split at h
    · exact checked_of_mem_gatewayTraffic h
    · exact absurd h not_publish_dbQuery_mem_requestTraffic
  | post =>
    rw [natsTraffic] at h
    split at h
    · exact checked_of_mem_gatewayTraffic h
    split at h
    · exact absurd h List.not_mem_nil
    · exact absurd h not_publish_dbQuery_mem_requestTraffic

/-- A query that the check refuses is not passed on. -/
theorem natsTraffic_eq_nil_of_error {payload : JsonValue} {message : String}
    (hpath : GatewayRouting.kDbGatewayPath <+: req.path)
    (hparse : json.parse req.body = .value payload)
    (herror : parseDbQueryRequest (.object (dbRequest tracer env (requestTraceContext env req)
      kTypeQuery (gatewayPath req).dbName payload).entries) = .error message) :
    natsTraffic json tracer cfg env sent .post req = [] := by
  rw [natsTraffic, if_pos hpath, gatewayTraffic]
  cases hrequest : gatewayRequest json tracer cfg env .post req.body req with
  | none => rfl
  | some request =>
    obtain ⟨-, -, -, haction⟩ := gatewayRequest_eq_some_iff.mp hrequest
    obtain ⟨type, payload', hchecked, -⟩ := dbActionRequest_eq_some_iff.mp haction
    rcases hchecked with ⟨-, -, rfl, hparse', r, hr⟩ | ⟨-, hget, -⟩
    · obtain rfl := ParseResult.value.inj (hparse.symm.trans hparse')
      exact absurd (herror.symm.trans hr) (by simp)
    · cases hget

end Agreement

/-- **Proxy and worker agree.**  A request that the proxy builds, checks and writes out is
read by the worker as the same request: same type, database, statement, limits and request id,
and the same parameters, in the kinds of integers that the parser gives, which is how they
came from the client.  The worker hands it to the executor of exactly the database in the
path, or answers that there is none.  What goes out on the gateway's subject is such a
request, and of a query that fails the check nothing goes out. -/
theorem dbRequest_agreement (json : JsonLibrary) (stod : Bytes → Option UInt64) (tracer : Bool)
    (cfg : ProxyConfig) (env : HandlerChoices) :
    (∀ (ctx : TraceContext) (type dbName : Bytes) (payload : JsonValue) (r : DbQueryRequest)
        (text : Bytes),
      parseDbQueryRequest (.object (dbRequest tracer env ctx type dbName payload).entries)
        = .ok r →
      json.dump (.object (dbRequest tracer env ctx type dbName payload).entries) = some text →
      json.RoundTrips (.object (dbRequest tracer env ctx type dbName payload).entries) →
      (r.type = type ∧ r.db = dbName ∧ r.requestId = env.requestId.bytes) ∧
      ∃ j r', json.parse text = .value j ∧ parseDbQueryRequest j = .ok r' ∧
        r' = { r with params := wired r.params } ∧ (payload.wire = payload → r' = r) ∧
        (dbName ≠ [] → ∀ h : DbQueryHandler, DispatchedTo stod h j dbName r')) ∧
    (∀ (sent : ℕ) (method : Method) (req : Request) (text : Bytes),
      .publish .dbQuery text ∈ natsTraffic json tracer cfg env sent method req →
      (gatewayPath req).dbName ≠ [] ∧
        ∃ type payload r,
          parseDbQueryRequest (.object (dbRequest tracer env (requestTraceContext env req) type
            (gatewayPath req).dbName payload).entries) = .ok r ∧
          json.dump (.object (dbRequest tracer env (requestTraceContext env req) type
            (gatewayPath req).dbName payload).entries) = some text) ∧
    (∀ (sent : ℕ) (req : Request) (payload : JsonValue) (message : String),
      GatewayRouting.kDbGatewayPath <+: req.path → json.parse req.body = .value payload →
      parseDbQueryRequest (.object (dbRequest tracer env (requestTraceContext env req) kTypeQuery
        (gatewayPath req).dbName payload).entries) = .error message →
      natsTraffic json tracer cfg env sent .post req = []) := by
  refine ⟨?_, fun sent method req text => checked_of_mem_natsTraffic,
    fun sent req payload message => natsTraffic_eq_nil_of_error⟩
  intro ctx type dbName payload r text hparse hdump hround
  have hfields := fields_of_parse_dbRequest tracer env ctx type dbName payload hparse
  have hwire := parseDbQueryRequest_wire hparse
  refine ⟨hfields, _, r.wire, hround.parse hdump, hwire, rfl, fun hpayload => ?_, ?_⟩
  · have hfind := find_dbRequest_payload tracer env ctx type dbName payload
      (List.mem_cons_self : kParams ∈ [kParams, kTimeoutMs, kMaxRows])
    have hparams : wired r.params = r.params := by
      refine wired_params_of_find hparse ?_
      rw [hfind, ← find_wire, hpayload]
    rw [DbQueryRequest.wire, hparams]
  · intro hdb h
    have hname : r.wire.db = dbName := hfields.2.1
    have hdispatched := dispatchedTo_of_parse stod h hwire (by rw [hname]; exact hdb)
    rwa [hname] at hdispatched

/-! ## A query with a parameter -/

/-- The payload of a client. -/
def paramPayload : JsonValue :=
  .object [(kParams, .object [(ascii "n", .uint 3)]), (kSql, .string (ascii "select :n")),
    (kTimeoutMs, .uint 500)]

/-- The request that the proxy makes of it. -/
def paramRequest : JsonValue :=
  .object (dbRequest false (sampledChoices true true) (requestTraceContext
    (sampledChoices true true) sampleRequest) kTypeQuery (ascii "main") paramPayload).entries

/-- Its text. -/
def paramText : Text where
  bytes := ascii "\x7b\"db\":\"main\",\"params\":\x7b\"n\":3\x7d,\"request_id\":\"\"," ++
    ascii "\"sql\":\"select :n\",\"timeout_ms\":500,\"type\":\"query\"\x7d"
  valid := by decide +kernel

/-- The worker reads the query as the proxy has checked it, and hands it to the executor of
`main`. -/
theorem dbRequest_agreement_param :
    ∃ r j, parseDbQueryRequest paramRequest = .ok r ∧ r.sql = ascii "select :n" ∧
      (JsonLibrary.single paramRequest paramText).parse paramText.bytes = .value j ∧
      parseDbQueryRequest j = .ok r ∧ r.timeoutMs = 500 ∧
      DispatchedTo (fun _ => none) ⟨[rawExecutor], List.nodup_singleton _⟩ j (ascii "main") r := by
  obtain ⟨r, hr⟩ : ∃ r, parseDbQueryRequest paramRequest = .ok r := ⟨_, rfl⟩
  have hutf8 : paramRequest.allUtf8 = true := by decide +kernel
  obtain ⟨-, j, r', hj, hr', -, hsame, hdispatched⟩ :=
    (dbRequest_agreement (JsonLibrary.single paramRequest paramText) (fun _ => none) false
      limitedProxy (sampledChoices true true)).1 _ kTypeQuery (ascii "main") paramPayload r
      paramText.bytes hr (JsonLibrary.dump_of_allUtf8 _ hutf8)
      (JsonLibrary.roundTrips_single paramRequest paramText)
  obtain rfl := hsame (by simp [paramPayload, wire, wireEntries])
  refine ⟨r', j, hr, ?_, hj, hr', ?_, hdispatched (by decide) _⟩
  · obtain rfl := Except.ok.inj ((rfl : parseDbQueryRequest paramRequest = _).symm.trans hr)
    rfl
  · obtain rfl := Except.ok.inj ((rfl : parseDbQueryRequest paramRequest = _).symm.trans hr)
    rfl

end Transport
end HttpDataDiod
