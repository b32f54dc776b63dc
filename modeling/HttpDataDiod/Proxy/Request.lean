import HttpDataDiod.Json.Dump
import HttpDataDiod.Sql.DbQueryRequest

/-!
# The requests of the proxy

The data of an HTTP request that the proxy reads, and the pure helpers over it:
`url_utils.hpp`, `header_utils.hpp`, `request_data_preparer.cpp` and the routing of
the database gateway in `db_gateway_routing.hpp`.  A path is already
percent-decoded and a header value is any byte string.

* `extractClientIp`, `extractQueryString`, `filterHeadersToJson`,
  `prepareRequestData`.
* `GatewayRouting.parsePath`, `GatewayRouting.classifyMethod`,
  `buildDbQueryRequest`.
-/

namespace HttpDataDiod
namespace Proxy

open ByteText JsonValue

/-! ## The request -/

/-- The two methods the proxy has a handler for. -/
inductive Method where
  | get
  | post
  deriving DecidableEq

/-- The method as the handlers write it. -/
def Method.text : Method → Bytes
  | .get => ascii "GET"
  | .post => ascii "POST"

/-- `httplib::Request`.  The addresses of the two ends come from the socket. -/
structure Request where
  path : Bytes
  target : Bytes
  headers : List (Bytes × Bytes)
  body : Bytes
  remoteAddr : Text
  localAddr : Text

/-- `headers.find(name)`: the names are compared without regard to case. -/
def findHeader (headers : List (Bytes × Bytes)) (name : Bytes) : Option Bytes :=
  (headers.find? fun h => toLower h.1 = toLower name).map Prod.snd

/-- A header that is there and not empty. -/
def nonemptyHeader (req : Request) (name : Bytes) : Option Bytes :=
  (findHeader req.headers name).filter fun value => !value.isEmpty

/-- `get_traceparent_header`. -/
def getTraceparentHeader (req : Request) : Bytes :=
  (findHeader req.headers (ascii "traceparent")).getD []

/-- A blank or a tab. -/
def isBlank (c : UInt8) : Bool := c = 32 || c = 9

/-- The last address of `X-Forwarded-For`, without the blanks around it; `none` if
nothing is left. -/
def lastForwardedFor (xff : Bytes) : Option Bytes :=
  let clientIp := (xff.reverse.takeWhile fun c => c ≠ 44).reverse
  let trimmed := (clientIp.dropWhile isBlank).reverse.dropWhile isBlank
  if trimmed.isEmpty then none else some trimmed.reverse

/-- `extract_client_ip`. -/
def extractClientIp (req : Request) : Bytes :=
  match nonemptyHeader req (ascii "x-real-ip") with
  | some ip => ip
  | none =>
    match (nonemptyHeader req (ascii "x-forwarded-for")).bind lastForwardedFor with
    | some ip => ip
    | none =>
      match nonemptyHeader req (ascii "cf-connecting-ip") with
      | some ip => ip
      | none => req.remoteAddr.bytes

/-- The client address of `ScopedRequestContext`. -/
def scopedClientIp (req : Request) : Bytes :=
  let clientIp := extractClientIp req
  if clientIp.isEmpty then ascii "unknown" else clientIp

/-- `extract_query_string`. -/
def extractQueryString (req : Request) : Bytes :=
  (req.target.dropWhile fun c => c ≠ 63).drop 1

/-- `is_liveness_path`. -/
def isLivenessPath (path : Bytes) : Bool :=
  path = ascii "/health/live" || path = ascii "/health"

/-! ## The envelope for the worker -/

namespace NatsContract

def kRequestId : Bytes := ascii "request_id"
def kMethod : Bytes := ascii "method"
def kPath : Bytes := ascii "path"
def kQuery : Bytes := ascii "query"
def kBody : Bytes := ascii "body"
def kBodyIsBinary : Bytes := ascii "body_is_binary"
def kClientIp : Bytes := ascii "client_ip"
def kProxyIp : Bytes := ascii "proxy_ip"
def kTraceparent : Bytes := ascii "traceparent"
def kHeaders : Bytes := ascii "headers"
def kProxySpanId : Bytes := ascii "proxy_span_id"
def kProxyInletSpanId : Bytes := ascii "proxy_inlet_span_id"
def kProxyTraceId : Bytes := ascii "proxy_trace_id"
def kProxyTraceparent : Bytes := ascii "proxy_traceparent"
def kTimestamp : Bytes := ascii "timestamp"

end NatsContract

open NatsContract

/-- The vendored base64 codec; `decode` is `none` where `from_base64` throws. -/
structure Base64 where
  encode : Bytes → Bytes
  decode : Bytes → Option Bytes

/-- The vendored libraries. -/
structure Libraries where
  json : JsonLibrary
  base64 : Base64

/-- `g_default_skip_headers`. -/
def defaultSkipHeaders : List Bytes :=
  [ascii "host", ascii "content-length", ascii "connection", ascii "transfer-encoding"]

/-- `filter_headers_to_json` with the default skip set: the values are sanitised. -/
def filterHeadersToJson (headers : List (Bytes × Bytes)) : JsonObject :=
  JsonObject.of ((headers.filter fun h => toLower h.1 ∉ defaultSkipHeaders).map fun h =>
    (h.1, .string (sanitizeInvalid h.2)))

/-- `prepare_request_data`. -/
def prepareRequestData (libs : Libraries) (requestId method path body : Bytes) (req : Request)
    (traceparentForBackend : Bytes) : JsonObject :=
  JsonObject.of
    ([(kRequestId, JsonValue.string requestId),
      (kMethod, .string method),
      (kPath, .string path),
      (kQuery, .string (extractQueryString req)),
      (kTraceparent, .string traceparentForBackend),
      (kClientIp, .string (extractClientIp req)),
      (kProxyIp, .string req.localAddr.bytes)] ++
     (if !body.isEmpty && !libs.json.accept body then
       [(kBody, JsonValue.string (libs.base64.encode body)), (kBodyIsBinary, .bool true)]
      else [(kBody, JsonValue.string body)]) ++
     (if (filterHeadersToJson req.headers).entries.isEmpty then []
      else [(kHeaders, JsonValue.object (filterHeadersToJson req.headers).entries)]))

/-- The fields that `prepare_request_data` writes, in the order it writes them. -/
def requestPairs (libs : Libraries) (requestId method path body : Bytes) (req : Request)
    (traceparentForBackend : Bytes) : List (Bytes × JsonValue) :=
  [(kRequestId, JsonValue.string requestId),
   (kMethod, .string method),
   (kPath, .string path),
   (kQuery, .string (extractQueryString req)),
   (kTraceparent, .string traceparentForBackend),
   (kClientIp, .string (extractClientIp req)),
   (kProxyIp, .string req.localAddr.bytes)] ++
  (if !body.isEmpty && !libs.json.accept body then
    [(kBody, JsonValue.string (libs.base64.encode body)), (kBodyIsBinary, .bool true)]
   else [(kBody, JsonValue.string body)]) ++
  (if (filterHeadersToJson req.headers).entries.isEmpty then []
   else [(kHeaders, JsonValue.object (filterHeadersToJson req.headers).entries)])

theorem prepareRequestData_eq (libs : Libraries) (requestId method path body : Bytes)
    (req : Request) (traceparentForBackend : Bytes) :
    prepareRequestData libs requestId method path body req traceparentForBackend =
      JsonObject.of (requestPairs libs requestId method path body req traceparentForBackend) := rfl

/-- The keys of the envelope, by the two choices. -/
theorem keys_requestPairs (libs : Libraries) (requestId method path body : Bytes)
    (req : Request) (traceparentForBackend : Bytes) :
    (requestPairs libs requestId method path body req traceparentForBackend).map Prod.fst =
      [kRequestId, kMethod, kPath, kQuery, kTraceparent, kClientIp, kProxyIp, kBody] ++
      (if !body.isEmpty && !libs.json.accept body then [kBodyIsBinary] else []) ++
      (if (filterHeadersToJson req.headers).entries.isEmpty then [] else [kHeaders]) := by
  unfold requestPairs
  split
  · split <;> rfl
  · split <;> rfl

/-- No field is written twice. -/
theorem nodup_requestPairs (libs : Libraries) (requestId method path body : Bytes)
    (req : Request) (traceparentForBackend : Bytes) :
    ((requestPairs libs requestId method path body req traceparentForBackend).map
      Prod.fst).Nodup := by
  rw [keys_requestPairs]
  split
  · split <;> decide
  · split <;> decide

/-! ## The database gateway's routing -/

namespace GatewayRouting

/-- `kDbGatewayPath`. -/
def kDbGatewayPath : Bytes := ascii "/v1/sql"

/-- `normalize_path_rest`. -/
def normalizePathRest (pathRest : Bytes) : Bytes :=
  ((pathRest.dropWhile fun c => c = 47).reverse.dropWhile fun c => c = 47).reverse

/-- `ParsedPath`. -/
structure ParsedPath where
  dbName : Bytes
  action : Bytes
  isList : Bool
  valid : Bool

/-- `parse_path`. -/
def parsePath (normalizedRest : Bytes) : ParsedPath :=
  if normalizedRest.isEmpty then { dbName := [], action := [], isList := true, valid := true }
  else
    let dbName := normalizedRest.takeWhile fun c => c ≠ 47
    let action := (normalizedRest.dropWhile fun c => c ≠ 47).drop 1
    { dbName
      action
      isList := false
      valid := !dbName.isEmpty && !action.isEmpty && 47 ∉ action }

/-- The status of `classify_method`; `none` when there is no error. -/
def classifyMethod (action : Bytes) (method : Method) : Option ℤ :=
  if (action = ascii "query" ∧ method ≠ .post) ∨ (action = ascii "ping" ∧ method ≠ .get) then
    some 405
  else if action ≠ ascii "query" ∧ action ≠ ascii "ping" then some 404
  else none

end GatewayRouting

open Sql.DbQueryContract

/-- The optional fields that `build_db_query_request` takes over from the payload. -/
def payloadFields (payload : JsonValue) : List (Bytes × JsonValue) :=
  [kParams, kTimeoutMs, kMaxRows].filterMap fun key =>
    (payload.find key).map fun value => (key, value)

/-- `build_db_query_request`. -/
def buildDbQueryRequest (type requestId db : Bytes) (payload : JsonValue) : JsonObject :=
  JsonObject.of
    ([(kType, JsonValue.string type), (Sql.DbQueryContract.kRequestId, .string requestId),
      (kDb, .string db)] ++
     (if type = kTypeQuery then [(kSql, JsonValue.string (payload.safeGetString kSql []))]
      else []) ++
     payloadFields payload)

end Proxy
end HttpDataDiod
