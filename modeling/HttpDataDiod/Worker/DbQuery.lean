import HttpDataDiod.Json.RoundTrip
import HttpDataDiod.Sql.OracleExecutor
import HttpDataDiod.Sql.PostgresExecutor
import Mathlib.Data.List.Nodup

/-!
# The worker's side of the database gateway

Model of `DbQueryHandler` and of `process_db_query_from_nats`.  A message is parsed, handed
to the executor of the database that it names, and answered with the envelope of a status
and a body.  Parsing and execution stand in a `try`, whose handler makes a body of the
exception; the envelope is written out behind it.

* `DbQueryExecutor.executeQuery`: one of the two drivers, over what its database delivers.
* `DbQueryHandler.select`, `handleRequest`: the executor of a request, and its answer.
* `processDbQueryFromNats`: the answers that a message is given, and whether an exception
  leaves the function.
* `reachedTexts`: the texts of a database that an answer is made of.
* `processDbQueryFromNats_answersOnce_iff`: a message is answered once and without an
  exception exactly when these are well formed.
-/

namespace HttpDataDiod
namespace Worker

open ByteText JsonValue Sql

/-! ## Executors -/

/-- `DbConfig`, as far as a request reads it. -/
structure DbConfig where
  name : Bytes
  queryTimeoutMs : ℤ
  maxRows : ℤ

/-- A driver with what its database delivers for a statement, its parameters and the
timeout. -/
inductive Driver where
  | postgres (execute : Bytes → List (Bytes × JsonValue) → ℤ → PgDelivery)
  | oracle (execute : Bytes → List (Bytes × JsonValue) → ℤ → OracleDelivery)

/-- `DbQueryExecutor`: the configuration, the driver, and what a ping within a timeout
gives and how long it takes. -/
structure DbQueryExecutor where
  config : DbConfig
  driver : Driver
  ping : ℤ → Bool
  latencyMs : ℕ

section Executor

variable (stod : Bytes → Option UInt64)

/-- `execute_query`: the status and the body. -/
def DbQueryExecutor.executeQuery (e : DbQueryExecutor) (sql : Bytes)
    (params : List (Bytes × JsonValue)) (timeoutMs maxRows : ℤ) : ℤ × JsonValue :=
  match e.driver with
  | .postgres execute => (execute sql params timeoutMs).body stod e.config.name maxRows
  | .oracle execute => (execute sql params timeoutMs).body e.config.name params maxRows

/-- The texts of the database that go into the body of a query. -/
def DbQueryExecutor.queryTexts (e : DbQueryExecutor) (sql : Bytes)
    (params : List (Bytes × JsonValue)) (timeoutMs maxRows : ℤ) : List Bytes :=
  match e.driver with
  | .postgres execute => (execute sql params timeoutMs).texts stod e.config.name maxRows
  | .oracle execute => (execute sql params timeoutMs).texts e.config.name params maxRows

theorem DbQueryExecutor.allUtf8_executeQuery_iff (e : DbQueryExecutor) (sql : Bytes)
    (params : List (Bytes × JsonValue)) (timeoutMs maxRows : ℤ) :
    (e.executeQuery stod sql params timeoutMs maxRows).2.allUtf8 = true ↔
      ∀ text ∈ e.queryTexts stod sql params timeoutMs maxRows, isValidUtf8 text = true := by
  unfold DbQueryExecutor.executeQuery DbQueryExecutor.queryTexts
  cases e.driver with
  | postgres execute => exact PgDelivery.allUtf8_body_iff stod _ _ _
  | oracle execute => exact OracleDelivery.allUtf8_body_iff _ _ _ _

end Executor

/-! ## The handler -/

/-- `DbQueryHandler`: the executors, by the names of their databases. -/
structure DbQueryHandler where
  executors : List DbQueryExecutor
  nodup : (executors.map fun e => e.config.name).Nodup

/-- The executor of a request: without a name, the only one there is. -/
def DbQueryHandler.select (h : DbQueryHandler) (db : Bytes) : Option DbQueryExecutor :=
  match db, h.executors with
  | [], [e] => some e
  | _, executors => executors.find? fun e => e.config.name = db

section Handler

variable (stod : Bytes → Option UInt64)

/-- The answer of an executor to a request. -/
def DbQueryExecutor.answer (e : DbQueryExecutor) (req : DbQueryRequest) : ℤ × JsonValue :=
  if req.type = DbQueryContract.kTypePing then
    if e.ping req.timeoutMs then (200, makeDbPingResponse e.config.name e.latencyMs)
    else (503, makeDbErrorBody (ascii "DB_UNAVAILABLE") (ascii "Database ping failed"))
  else
    e.executeQuery stod req.sql req.params
      (resolvePositiveOr req.timeoutMs e.config.queryTimeoutMs)
      (resolvePositiveOr req.maxRows e.config.maxRows)

/-- `DbQueryHandler::handle_request`: the status and the body. -/
def DbQueryHandler.handleRequest (h : DbQueryHandler) (request : JsonValue) : ℤ × JsonValue :=
  match parseDbQueryRequest request with
  | .error message => (400, makeDbErrorBody (ascii "BAD_REQUEST") (ascii message))
  | .ok req =>
    match h.select req.db with
    | none =>
      (404, makeDbErrorBody (ascii "UNKNOWN_DATABASE")
        (ascii "Unknown database '" ++ req.db ++ ascii "'"))
    | some e => e.answer stod req

/-- The texts of a database that go into the answer of an executor. -/
def DbQueryExecutor.answerTexts (e : DbQueryExecutor) (req : DbQueryRequest) : List Bytes :=
  if req.type = DbQueryContract.kTypePing then
    if e.ping req.timeoutMs then [e.config.name] else []
  else
    e.queryTexts stod req.sql req.params
      (resolvePositiveOr req.timeoutMs e.config.queryTimeoutMs)
      (resolvePositiveOr req.maxRows e.config.maxRows)

/-- **The texts of a database that a request reaches**: none when it is refused, or names no
database. -/
def DbQueryHandler.reachedTexts (h : DbQueryHandler) (request : JsonValue) : List Bytes :=
  match parseDbQueryRequest request with
  | .error _ => []
  | .ok req =>
    match h.select req.db with
    | none => []
    | some e => e.answerTexts stod req

end Handler

/-! ## The messages -/

/-- A publication: the subject, the payload and the headers. -/
structure Publication where
  subject : Bytes
  payload : Bytes
  headers : List (Bytes × Bytes)

/-- What a call of `process_db_query_from_nats` comes to. -/
structure DbOutcome where
  published : List Publication
  /-- An exception has left the function. -/
  escaped : Bool

/-- `make_consume_span_headers`. -/
def makeConsumeSpanHeaders (consumeSpanId : Bytes) : List (Bytes × Bytes) :=
  if consumeSpanId.isEmpty then [] else [(ascii "X-Consume-Span-Id", consumeSpanId)]

def kSendMaxRetries : ℕ := 3

/-- The loop of `send_nats_response_impl`; `publish` tells whether an attempt gets the
message out. -/
def sendNatsResponse (publish : ℕ → Bool) (p : Publication) : ℕ → List Publication
  | 0 => []
  | left + 1 =>
    if publish (kSendMaxRetries - (left + 1)) then [p] else sendNatsResponse publish p left

/-- What the worker's surroundings answer while a message is processed: the handler if it is
initialised, the text of an exception other than a parse error, the id of the consume span,
and whether an attempt to publish succeeds. -/
structure DbSurroundings where
  handler : Option DbQueryHandler
  what : Text
  consumeSpanId : Bytes
  publish : ℕ → Bool

section Messages

variable (json : JsonLibrary) (stod : Bytes → Option UInt64) (env : DbSurroundings)

/-- The part of `process_db_query_from_nats` in the `try`, and its handler: the status, the
body, and the id of the consume span. -/
def dbAnswer (requestJson : Bytes) : (ℤ × JsonValue) × Bytes :=
  match json.parse requestJson with
  | .parseError _ => ((400, makeDbErrorBody (ascii "BAD_REQUEST") (ascii "Invalid JSON body")), [])
  -- no `parse_error`, so it leaves `try_parse`
  | .outOfRange => ((500, makeDbErrorBody (ascii "INTERNAL_ERROR") env.what.bytes), [])
  | .value request =>
    match env.handler with
    | none =>
      ((503, makeDbErrorBody (ascii "DB_UNAVAILABLE") (ascii "DB gateway is not initialized")),
        env.consumeSpanId)
    | some h => (h.handleRequest stod request, env.consumeSpanId)

/-- `process_db_query_from_nats`, with `send_db_query_response` at its end. -/
def processDbQueryFromNats (requestJson replyTo : Bytes) : DbOutcome :=
  let answer := dbAnswer json stod env requestJson
  match json.dump (makeDbResponseEnvelope answer.1.1 answer.1.2) with
  | none => ⟨[], true⟩
  | some text =>
    ⟨sendNatsResponse env.publish ⟨replyTo, text, makeConsumeSpanHeaders answer.2⟩
      kSendMaxRetries, false⟩

/-- The texts of a database that a message reaches. -/
def messageTexts (requestJson : Bytes) : List Bytes :=
  match json.parse requestJson, env.handler with
  | .value request, some h => h.reachedTexts stod request
  | _, _ => []

/-- A message is answered with exactly one envelope, on the subject that it asks for, and
nothing is thrown. -/
def AnswersOnce (requestJson replyTo : Bytes) : Prop :=
  let outcome := processDbQueryFromNats json stod env requestJson replyTo
  outcome.escaped = false ∧
    ∃ status body text headers, json.dump (makeDbResponseEnvelope status body) = some text ∧
      outcome.published = [⟨replyTo, text, headers⟩]

end Messages

/-! ## Which texts decide -/

section Answers

variable (stod : Bytes → Option UInt64)

theorem DbQueryExecutor.allUtf8_answer_iff (e : DbQueryExecutor) (req : DbQueryRequest) :
    (e.answer stod req).2.allUtf8 = true ↔
      ∀ text ∈ e.answerTexts stod req, isValidUtf8 text = true := by
  unfold DbQueryExecutor.answer DbQueryExecutor.answerTexts
  split
  · split
    · simp only [allUtf8_makeDbPingResponse_iff, List.mem_singleton, forall_eq]
    · have hfailed : (makeDbErrorBody (ascii "DB_UNAVAILABLE")
          (ascii "Database ping failed")).allUtf8 = true :=
        (allUtf8_makeDbErrorBody_iff (by decide)).mpr (by decide)
      simp only [hfailed, List.not_mem_nil, false_implies, implies_true]
  · exact e.allUtf8_executeQuery_iff stod _ _ _ _

/-- **What the handler answers** can be written out unless a text of the database cannot: the
request, which has been parsed, gives well-formed texts only. -/
theorem DbQueryHandler.allUtf8_handleRequest_iff (h : DbQueryHandler) {request : JsonValue}
    (hrequest : request.allUtf8 = true) :
    (h.handleRequest stod request).2.allUtf8 = true ↔
      ∀ text ∈ h.reachedTexts stod request, isValidUtf8 text = true := by
  unfold DbQueryHandler.handleRequest DbQueryHandler.reachedTexts
  cases hparse : parseDbQueryRequest request with
  | error message =>
    have hmessages : ∀ m ∈ requestErrors, isValidUtf8 (ascii m) = true := by decide +kernel
    have hmessage := hmessages message (mem_requestErrors_of_parseDbQueryRequest hparse)
    have hbody : (makeDbErrorBody (ascii "BAD_REQUEST") (ascii message)).allUtf8 = true :=
      (allUtf8_makeDbErrorBody_iff (by decide)).mpr hmessage
    simp only [hbody, List.not_mem_nil, false_implies, implies_true]
  | ok req =>
    cases hselect : h.select req.db with
    | none =>
      have hdb : isValidUtf8 req.db = true := by
        obtain ⟨-, -, -, -, -, -, -, -, hdb, -⟩ := parseDbQueryRequest_eq_ok_iff.mp hparse
        rw [hdb]
        exact isValidUtf8_safeGetString hrequest isValidUtf8_nil
      have hmessage : isValidUtf8 (ascii "Unknown database '" ++ req.db ++ ascii "'") = true :=
        isValidUtf8_append_of_valid (isValidUtf8_append_of_valid (by decide) hdb) (by decide)
      have hbody : (makeDbErrorBody (ascii "UNKNOWN_DATABASE")
          (ascii "Unknown database '" ++ req.db ++ ascii "'")).allUtf8 = true :=
        (allUtf8_makeDbErrorBody_iff (by decide)).mpr hmessage
      simp only [hselect, hbody, List.not_mem_nil, false_implies, implies_true]
    | some e =>
      simp only [hselect]
      exact e.allUtf8_answer_iff stod req

end Answers

section Messages

variable (json : JsonLibrary) (stod : Bytes → Option UInt64) (env : DbSurroundings)

theorem allUtf8_dbAnswer_iff (hreads : json.ReadsUtf8) (requestJson : Bytes) :
    (dbAnswer json stod env requestJson).1.2.allUtf8 = true ↔
      ∀ text ∈ messageTexts json stod env requestJson, isValidUtf8 text = true := by
  unfold dbAnswer messageTexts
  cases hvalue : json.parse requestJson with
  | parseError what =>
    have hbody : (makeDbErrorBody (ascii "BAD_REQUEST")
        (ascii "Invalid JSON body")).allUtf8 = true :=
      (allUtf8_makeDbErrorBody_iff (by decide)).mpr (by decide)
    simp only [hbody, List.not_mem_nil, false_implies, implies_true]
  | outOfRange =>
    have hbody : (makeDbErrorBody (ascii "INTERNAL_ERROR") env.what.bytes).allUtf8 = true :=
      (allUtf8_makeDbErrorBody_iff (by decide)).mpr env.what.valid
    simp only [hbody, List.not_mem_nil, false_implies, implies_true]
  | value request =>
    cases env.handler with
    | none =>
      have hbody : (makeDbErrorBody (ascii "DB_UNAVAILABLE")
          (ascii "DB gateway is not initialized")).allUtf8 = true :=
        (allUtf8_makeDbErrorBody_iff (by decide)).mpr (by decide)
      simp only [hbody, List.not_mem_nil, false_implies, implies_true]
    | some h => exact h.allUtf8_handleRequest_iff stod (hreads _ _ hvalue)

theorem sendNatsResponse_of_publish {publish : ℕ → Bool} (hpublish : publish 0 = true)
    (p : Publication) : sendNatsResponse publish p kSendMaxRetries = [p] := by
  simp only [kSendMaxRetries, sendNatsResponse, Nat.sub_self, hpublish, if_true]

/-- **Every database message is answered once, unless the database delivers a text that is
not UTF-8.**  The executor's answer is guarded; its serialisation behind the `try` is not, and
throws on the first malformed text: nothing is published then. -/
theorem processDbQueryFromNats_answersOnce_iff
    (hreads : json.ReadsUtf8)
    (hpublish : ∀ attempt, env.publish attempt = true) (requestJson replyTo : Bytes) :
    AnswersOnce json stod env requestJson replyTo ↔
      ∀ text ∈ messageTexts json stod env requestJson, isValidUtf8 text = true := by
  rw [← allUtf8_dbAnswer_iff json stod env hreads requestJson,
    ← allUtf8_makeDbResponseEnvelope_iff (dbAnswer json stod env requestJson).1.1]
  unfold AnswersOnce processDbQueryFromNats
  simp only
  cases hdump : json.dump (makeDbResponseEnvelope (dbAnswer json stod env requestJson).1.1
      (dbAnswer json stod env requestJson).1.2) with
  | none =>
    have hthrows : (makeDbResponseEnvelope (dbAnswer json stod env requestJson).1.1
        (dbAnswer json stod env requestJson).1.2).allUtf8 = false := by
      rw [← json.isSome_dump, hdump, Option.isSome_none]
    rw [hthrows]
    exact ⟨fun h => Bool.noConfusion h.1, fun h => Bool.noConfusion h⟩
  | some text =>
    refine ⟨fun _ => json.allUtf8_of_dump hdump, fun _ => ⟨rfl, ?_⟩⟩
    exact ⟨_, _, text, _, hdump, sendNatsResponse_of_publish (hpublish 0) _⟩

end Messages

/-! ## A healthy database, and a column of raw bytes -/

/-- The request of a ping. -/
def pingRequest : JsonValue :=
  .object [(DbQueryContract.kDb, .string (ascii "main")),
    (DbQueryContract.kType, .string DbQueryContract.kTypePing)]

/-- Its text. -/
def pingMessage : Bytes := ascii "\x7b\"db\":\"main\",\"type\":\"ping\"\x7d"

/-- The request of a query. -/
def rawRequest : JsonValue :=
  .object [(DbQueryContract.kDb, .string (ascii "main")),
    (DbQueryContract.kSql, .string (ascii "select v from t")),
    (DbQueryContract.kType, .string DbQueryContract.kTypeQuery)]

/-- Its text. -/
def rawMessage : Bytes :=
  ascii "\x7b\"db\":\"main\",\"sql\":\"select v from t\",\"type\":\"query\"\x7d"

theorem isValidUtf8_pingReply :
    isValidUtf8 (ascii "\x7b\"body\":\x7b\"db\":\"main\",\"latency_ms\":3,\"status\":\"ok\"\x7d,\"status\":200\x7d")
      = true := by
  decide +kernel

/-- The text of the answer to the ping. -/
def pingReply : Text :=
  ⟨ascii "\x7b\"body\":\x7b\"db\":\"main\",\"latency_ms\":3,\"status\":\"ok\"\x7d,\"status\":200\x7d",
    isValidUtf8_pingReply⟩

/-- A library that writes the answer to the ping, and reads one message. -/
def dbJson (message : Bytes) (request : JsonValue) : JsonLibrary :=
  (JsonLibrary.single (makeDbResponseEnvelope 200 (makeDbPingResponse (ascii "main") 3))
    pingReply).reading message (.value request)

/-- A fetched value of bytes. -/
def rawData (bytes : Bytes) : DpiData where
  isNull := false
  asBytes := bytes
  asInt64 := 0
  asUint64 := 0
  asDouble := 0
  asTimestamp := ⟨0, 0, 0, 0, 0, 0, 0, 0, 0⟩
  asIntervalDS := ⟨0, 0, 0, 0, 0⟩
  asIntervalYM := ⟨0, 0⟩
  asLOB := []

/-- An Oracle database with one row, whose `RAW` column holds the byte `FF`. -/
def rawExecutor : DbQueryExecutor where
  config := ⟨ascii "main", 30000, 1000⟩
  driver := .oracle fun _ _ _ =>
    { ready := true
      connection := .ok ()
      prepare := .ok ()
      bind := fun _ => .ok ()
      execute := .ok [⟨.ok (ascii "V", .raw), .ok ()⟩]
      fetches := [.ok [.ok (rawData [0xFF])]]
      durationMs := 3 }
  ping := fun _ => true
  latencyMs := 3

/-- The worker of this database. -/
def rawSurroundings : DbSurroundings where
  handler := some ⟨[rawExecutor], List.nodup_singleton _⟩
  what := ⟨[], isValidUtf8_nil⟩
  consumeSpanId := []
  publish := fun _ => true

theorem readsUtf8_dbJson (message : Bytes) (request : JsonValue)
    (hrequest : request.allUtf8 = true) : (dbJson message request).ReadsUtf8 :=
  (JsonLibrary.readsUtf8_single pingReply (by decide +kernel)).reading message hrequest

/-- The ping is answered once. -/
theorem processDbQueryFromNats_answersOnce_ping :
    (dbJson pingMessage pingRequest).ReadsUtf8 ∧
    AnswersOnce (dbJson pingMessage pingRequest) (fun _ => none) rawSurroundings pingMessage
      (ascii "_INBOX.1") := by
  have hreads := readsUtf8_dbJson pingMessage pingRequest (by decide +kernel)
  exact ⟨hreads, (processDbQueryFromNats_answersOnce_iff _ _ _ hreads (fun _ => rfl) _ _).mpr
    (by decide +kernel)⟩

/-- The byte of the `RAW` column is a string of the answer, and the message stays without
one. -/
theorem not_answersOnce_rawColumn :
    (dbJson rawMessage rawRequest).ReadsUtf8 ∧
    (processDbQueryFromNats (dbJson rawMessage rawRequest) (fun _ => none) rawSurroundings
        rawMessage (ascii "_INBOX.1")).escaped = true ∧
    (processDbQueryFromNats (dbJson rawMessage rawRequest) (fun _ => none) rawSurroundings
        rawMessage (ascii "_INBOX.1")).published.length = 0 ∧
    ¬ AnswersOnce (dbJson rawMessage rawRequest) (fun _ => none) rawSurroundings rawMessage
        (ascii "_INBOX.1") := by
  have hreads := readsUtf8_dbJson rawMessage rawRequest (by decide +kernel)
  have hrun : (processDbQueryFromNats (dbJson rawMessage rawRequest) (fun _ => none)
      rawSurroundings rawMessage (ascii "_INBOX.1")).escaped = true ∧
      (processDbQueryFromNats (dbJson rawMessage rawRequest) (fun _ => none) rawSurroundings
        rawMessage (ascii "_INBOX.1")).published.length = 0 := by decide +kernel
  exact ⟨hreads, hrun.1, hrun.2, fun h => absurd (hrun.1.symm.trans h.1) (by decide)⟩

end Worker
end HttpDataDiod
