import HttpDataDiod.Lib.Base64
import HttpDataDiod.Lib.Decimal
import HttpDataDiod.Proxy.Request

/-!
# The worker reads a request

Model of `json_schema_validator.hpp`, of `parse_request_data` of `l2_worker.cpp` and of
`decode_nats_request` of `worker_request_parser.hpp`.  The validator and the decoder read
the same message, each with accesses of its own:

* `operator[]` of a const object must not be asked for a missing key; what follows is
  undefined behaviour;
* a conversion to a type that the value does not have throws `type_error`;
* `value(key, default)` takes the default for a missing key only.

* `RequestValidator.validate`, `parseRequestData`: the check.
* `decodeNatsRequest`: the decoder.
* `decodable`: the condition under which the decoder returns, for an accepted message;
  the check does not imply it.
-/

namespace HttpDataDiod
namespace Worker

open ByteText JsonValue Proxy NatsContract

/-! ## Accesses -/

/-- What stops a reader of a JSON value. -/
inductive AccessError where
  /-- A missing key of a const object: undefined behaviour. -/
  | missingKey (key : Bytes)
  /-- The exception `type_error`. -/
  | typeError
  /-- The exception of `from_base64`. -/
  | invalidBase64
  deriving DecidableEq

/-- `j[key].get<std::string>()` of a const value. -/
def getString (j : JsonValue) (key : Bytes) : Except AccessError Bytes :=
  if j.isObject then
    match j.find key with
    | some (.string s) => .ok s
    | some _ => .error .typeError
    | none => .error (.missingKey key)
  else .error .typeError

/-- `j.value(key, default)` for a string. -/
def valueString (j : JsonValue) (key default : Bytes) : Except AccessError Bytes :=
  if j.isObject then
    match j.find key with
    | some (.string s) => .ok s
    | some _ => .error .typeError
    | none => .ok default
  else .error .typeError

/-- `j.value(key, default)` for a boolean. -/
def valueBool (j : JsonValue) (key : Bytes) (default : Bool) : Except AccessError Bool :=
  if j.isObject then
    match j.find key with
    | some (.bool b) => .ok b
    | some _ => .error .typeError
    | none => .ok default
  else .error .typeError

/-- `contains`. -/
def contains (j : JsonValue) (key : Bytes) : Bool := (j.find key).isSome

/-! ## The validator -/

/-- `RequestValidator`. -/
structure RequestValidator where
  requiredFields : List Bytes
  allowedMethods : List Bytes
  allowedPaths : List Bytes
  maxBodySize : ℕ
  maxPathLength : ℕ

/-- Why a request is not accepted: a reason with the field it is about, or the exception
`type_error`. -/
inductive Refusal where
  | rejected (error failedField : Bytes)
  | typeError
  deriving DecidableEq

namespace RequestValidator

variable (v : RequestValidator)

/-- The loop over the required fields. -/
def checkRequired (request : JsonValue) : Except Refusal Unit :=
  match v.requiredFields.find? fun field => !contains request field with
  | some field => .error (.rejected (ascii "Missing required field: " ++ field) field)
  | none => .ok ()

/-- The check of the method, if there is one. -/
def checkMethod (request : JsonValue) : Except Refusal Unit :=
  match request.find (ascii "method") with
  | none => .ok ()
  | some (.string method) =>
    if !v.allowedMethods.isEmpty && method ∉ v.allowedMethods then
      .error (.rejected (ascii "Method not allowed: " ++ method) (ascii "method"))
    else .ok ()
  | some _ => .error .typeError

/-- The check of the path, if there is one. -/
def checkPath (request : JsonValue) : Except Refusal Unit :=
  match request.find (ascii "path") with
  | none => .ok ()
  | some (.string path) =>
    if v.maxPathLength < path.length then
      .error (.rejected (ascii "Path too long: " ++ decimal path.length ++ ascii " > " ++
        decimal v.maxPathLength) (ascii "path"))
    else if !v.allowedPaths.isEmpty && !v.allowedPaths.any fun allowed => allowed <+: path then
      .error (.rejected (ascii "Path not allowed: " ++ path) (ascii "path"))
    else .ok ()
  | some _ => .error .typeError

/-- The check of the body, if there is one. -/
def checkBody (request : JsonValue) : Except Refusal Unit :=
  match request.find (ascii "body") with
  | none => .ok ()
  | some (.string body) =>
    if v.maxBodySize < body.length then
      .error (.rejected (ascii "Body too large: " ++ decimal body.length ++ ascii " > " ++
        decimal v.maxBodySize) (ascii "body"))
    else .ok ()
  | some _ => .error .typeError

/-- `validate`. -/
def validate (request : JsonValue) : Except Refusal Unit := do
  v.checkRequired request
  v.checkMethod request
  v.checkPath request
  v.checkBody request

end RequestValidator

/-- `g_validator_default_max_body_bytes`. -/
def validatorDefaultMaxBodyBytes : ℕ := 10 * 1024 * 1024

/-- `g_validator_default_max_path_length`. -/
def validatorDefaultMaxPathLength : ℕ := 2048

/-- `create_standard_request_validator`. -/
def createStandardRequestValidator : RequestValidator where
  requiredFields := [ascii "method", ascii "path", ascii "request_id"]
  allowedMethods := [ascii "GET", ascii "POST"]
  allowedPaths := []
  maxBodySize := validatorDefaultMaxBodyBytes
  maxPathLength := validatorDefaultMaxPathLength

/-! ## `parse_request_data` -/

/-- What `parse_request_data` comes to: a value, `false`, or an exception. -/
inductive ParseOutcome where
  | accepted (j : JsonValue)
  | refused
  | thrown

/-- The part of `parse_request_data` after the text has been parsed.  For the report of a
refused request the id is read from it, where that throws too. -/
def checkRequest (sentry : Bool) (j : JsonValue) : ParseOutcome :=
  match createStandardRequestValidator.validate j with
  | .error .typeError => .thrown
  | .error (.rejected _ _) =>
    if sentry then
      match valueString j kRequestId [] with
      | .ok _ => .refused
      | .error _ => .thrown
    else .refused
  | .ok () =>
    match j.find kMethod with
    | some (.string method) =>
      if method ≠ ascii "POST" ∧ method ≠ ascii "GET" then .refused else .accepted j
    | _ => .thrown

/-- `parse_request_data`. -/
def parseRequestData (json : JsonLibrary) (sentry : Bool) (requestJson : Bytes) : ParseOutcome :=
  match json.parse requestJson with
  | .value j => checkRequest sentry j
  | .parseError _ => .refused
  | .outOfRange => .thrown

/-! ## `decode_nats_request` -/

/-- `WorkerRequestData`. -/
structure WorkerRequestData where
  requestId : Bytes
  path : Bytes
  query : Bytes
  method : Bytes
  body : Bytes
  clientIp : Bytes
  proxyIp : Bytes
  traceparent : Bytes
  proxyTraceparent : Bytes
  proxySpanId : Bytes
  forwardedHeaders : List (Bytes × Bytes)

/-- The string entries of an object. -/
def stringEntries : List (Bytes × JsonValue) → List (Bytes × Bytes)
  | [] => []
  | (name, .string value) :: entries => (name, value) :: stringEntries entries
  | _ :: entries => stringEntries entries

/-- `filter_headers` with the default skip set. -/
def filterHeaders (headers : List (Bytes × Bytes)) : List (Bytes × Bytes) :=
  headers.filter fun h => toLower h.1 ∉ defaultSkipHeaders

/-- `filter_headers_from_json` with the default skip set: entries that are no strings are
left out, and a value that is no object has none. -/
def filterHeadersFromJson : JsonValue → List (Bytes × Bytes)
  | .object entries => filterHeaders (stringEntries entries)
  | _ => []

/-- The body of the request: base64 when it is flagged as binary. -/
def decodeBody (body : Bytes) (isBinary : Bool) : Except AccessError Bytes :=
  if isBinary then
    match fromBase64 body with
    | some decoded => .ok decoded
    | none => .error .invalidBase64
  else .ok body

/-- `decode_nats_request`. -/
def decodeNatsRequest (requestData : JsonValue) : Except AccessError WorkerRequestData := do
  let requestId ← getString requestData kRequestId
  let path ← getString requestData kPath
  let query ← valueString requestData kQuery []
  let method ← getString requestData kMethod
  let encoded ← getString requestData kBody
  let isBinary ← valueBool requestData kBodyIsBinary false
  let body ← decodeBody encoded isBinary
  let clientIp ← valueString requestData kClientIp (ascii "unknown")
  let proxyIp ← valueString requestData kProxyIp (ascii "unknown")
  let proxyTraceparent ← valueString requestData kProxyTraceparent []
  let proxySpanId ← valueString requestData kProxySpanId []
  let traceparent ← valueString requestData kTraceparent []
  let forwardedHeaders :=
    match requestData.find kHeaders with
    | some headers => filterHeadersFromJson headers
    | none => []
  pure { requestId, path, query, method, body, clientIp, proxyIp, traceparent,
         proxyTraceparent, proxySpanId, forwardedHeaders }

/-! ## What the check makes sure of -/

theorem isObject_of_find {j : JsonValue} {key : Bytes} {v : JsonValue} (h : j.find key = some v) :
    j.isObject = true := by
  cases j with
  | object entries => rfl
  | _ => exact absurd h (by simp [find])

theorem bind_eq_ok_iff {ε α β : Type} {x : Except ε α} {f : α → Except ε β} {b : β} :
    x >>= f = .ok b ↔ ∃ a, x = .ok a ∧ f a = .ok b := by
  refine ⟨Sql.exists_of_bind_eq_ok, ?_⟩
  rintro ⟨a, rfl, h⟩
  exact h

namespace RequestValidator

variable (v : RequestValidator) (j : JsonValue)

theorem checkRequired_eq_ok_iff :
    v.checkRequired j = .ok () ↔ ∀ field ∈ v.requiredFields, contains j field = true := by
  unfold checkRequired
  split
  · rename_i field hfind
    have hmissing := List.find?_some hfind
    rw [Bool.not_eq_true'] at hmissing
    constructor
    · intro h
      exact absurd h (by simp)
    · intro h
      rw [h field (List.mem_of_find?_eq_some hfind)] at hmissing
      exact absurd hmissing (by simp)
  · rename_i hfind
    rw [List.find?_eq_none] at hfind
    refine ⟨fun _ field hfield => ?_, fun _ => rfl⟩
    simpa using hfind field hfield

theorem checkMethod_eq_ok_iff :
    v.checkMethod j = .ok () ↔ ∀ x, j.find kMethod = some x →
      ∃ method, x = .string method ∧ (v.allowedMethods = [] ∨ method ∈ v.allowedMethods) := by
  show (match j.find kMethod with
    | none => Except.ok ()
    | some (.string method) => _
    | some _ => _) = .ok () ↔ _
  cases j.find kMethod with
  | none => simp
  | some x =>
    cases x with
    | string method =>
      by_cases hempty : v.allowedMethods = []
      · simp [hempty]
      · by_cases hmem : method ∈ v.allowedMethods
        · simp [hmem]
        · simp [hempty, hmem]
    | _ => simp

theorem checkPath_eq_ok_iff (hpaths : v.allowedPaths = []) :
    v.checkPath j = .ok () ↔ ∀ x, j.find kPath = some x →
      ∃ path, x = .string path ∧ path.length ≤ v.maxPathLength := by
  show (match j.find kPath with
    | none => Except.ok ()
    | some (.string path) => _
    | some _ => _) = .ok () ↔ _
  cases j.find kPath with
  | none => simp
  | some x =>
    cases x with
    | string path =>
      by_cases hlength : v.maxPathLength < path.length
      · simp [hlength]
      · simp [hlength, hpaths, Nat.not_lt.mp hlength]
    | _ => simp

theorem checkBody_eq_ok_iff :
    v.checkBody j = .ok () ↔ ∀ x, j.find kBody = some x →
      ∃ body, x = .string body ∧ body.length ≤ v.maxBodySize := by
  show (match j.find kBody with
    | none => Except.ok ()
    | some (.string body) => _
    | some _ => _) = .ok () ↔ _
  cases j.find kBody with
  | none => simp
  | some x =>
    cases x with
    | string body =>
      by_cases hlength : v.maxBodySize < body.length
      · simp [hlength]
      · simp [hlength, Nat.not_lt.mp hlength]
    | _ => simp

/-- The four checks, one after the other. -/
theorem validate_eq_ok_iff :
    v.validate j = .ok () ↔ v.checkRequired j = .ok () ∧ v.checkMethod j = .ok () ∧
      v.checkPath j = .ok () ∧ v.checkBody j = .ok () := by
  unfold validate
  constructor
  · intro h
    obtain ⟨⟨⟩, hrequired, h⟩ := bind_eq_ok_iff.mp h
    obtain ⟨⟨⟩, hmethod, h⟩ := bind_eq_ok_iff.mp h
    obtain ⟨⟨⟩, hpath, hbody⟩ := bind_eq_ok_iff.mp h
    exact ⟨hrequired, hmethod, hpath, hbody⟩
  · rintro ⟨hrequired, hmethod, hpath, hbody⟩
    exact bind_eq_ok_iff.mpr ⟨(), hrequired, bind_eq_ok_iff.mpr ⟨(), hmethod,
      bind_eq_ok_iff.mpr ⟨(), hpath, hbody⟩⟩⟩

end RequestValidator

/-- **What the standard validator accepts**: the three required fields, of which the method
and the path are strings within their limits, and no body but a string within its limit. -/
theorem validate_standard_iff (j : JsonValue) :
    createStandardRequestValidator.validate j = .ok () ↔
      (∃ method, j.find kMethod = some (.string method) ∧
        (method = ascii "GET" ∨ method = ascii "POST")) ∧
      (∃ path, j.find kPath = some (.string path) ∧
        path.length ≤ validatorDefaultMaxPathLength) ∧
      contains j kRequestId = true ∧
      (∀ v, j.find kBody = some v → ∃ body, v = .string body ∧
        body.length ≤ validatorDefaultMaxBodyBytes) := by
  rw [RequestValidator.validate_eq_ok_iff, RequestValidator.checkRequired_eq_ok_iff,
    RequestValidator.checkMethod_eq_ok_iff, RequestValidator.checkPath_eq_ok_iff _ _ rfl,
    RequestValidator.checkBody_eq_ok_iff]
  have hfields : createStandardRequestValidator.requiredFields = [kMethod, kPath, kRequestId] := rfl
  have hmethods : createStandardRequestValidator.allowedMethods =
    [ascii "GET", ascii "POST"] := rfl
  rw [hfields, hmethods]
  constructor
  · rintro ⟨hrequired, hmethod, hpath, hbody⟩
    simp only [List.forall_mem_cons] at hrequired
    obtain ⟨hm, hp, hr, -⟩ := hrequired
    obtain ⟨x, hx⟩ := Option.isSome_iff_exists.mp hm
    obtain ⟨y, hy⟩ := Option.isSome_iff_exists.mp hp
    obtain ⟨method, rfl, hallowed⟩ := hmethod x hx
    obtain ⟨path, rfl, hlength⟩ := hpath y hy
    refine ⟨⟨method, hx, ?_⟩, ⟨path, hy, hlength⟩, hr, hbody⟩
    simpa using hallowed
  · rintro ⟨⟨method, hx, hallowed⟩, ⟨path, hy, hlength⟩, hr, hbody⟩
    refine ⟨?_, ?_, ?_, hbody⟩
    · simp only [List.forall_mem_cons]
      exact ⟨by rw [contains, hx]; rfl, by rw [contains, hy]; rfl, hr, List.forall_mem_nil _⟩
    · intro x hx'
      rw [hx] at hx'
      exact ⟨method, (Option.some.inj hx').symm, Or.inr (by simpa using hallowed)⟩
    · intro y hy'
      rw [hy] at hy'
      exact ⟨path, (Option.some.inj hy').symm, hlength⟩

/-- An accepted request has passed the validator. -/
theorem validate_of_checkRequest {sentry : Bool} {j j' : JsonValue}
    (h : checkRequest sentry j = .accepted j') :
    j' = j ∧ createStandardRequestValidator.validate j = .ok () := by
  unfold checkRequest at h
  split at h
  · exact absurd h (by simp)
  · split at h
    · split at h
      · exact absurd h (by simp)
      · exact absurd h (by simp)
    · exact absurd h (by simp)
  · rename_i hvalidate
    split at h
    · split at h
      · exact absurd h (by simp)
      · exact ⟨(ParseOutcome.accepted.inj h).symm, hvalidate⟩
    · exact absurd h (by simp)

/-! ## When the decoder returns -/

/-- The entry is there and a string. -/
def isStringAt (j : JsonValue) (key : Bytes) : Bool :=
  match j.find key with
  | some (.string _) => true
  | _ => false

/-- The entry is not there, or a string. -/
def isStringOrAbsent (j : JsonValue) (key : Bytes) : Bool :=
  match j.find key with
  | some (.string _) => true
  | some _ => false
  | none => true

/-- The fields that the decoder reads as strings if they are there. -/
def optionalFields : List Bytes :=
  [kQuery, kClientIp, kProxyIp, kProxyTraceparent, kProxySpanId, kTraceparent]

/-- The body is there, and is base64 if it is flagged as binary; the flag is a boolean. -/
def bodyDecodable (j : JsonValue) : Bool :=
  match j.find kBody, j.find kBodyIsBinary with
  | some (.string _), none => true
  | some (.string body), some (.bool isBinary) => !isBinary || (fromBase64 body).isSome
  | _, _ => false

/-- **The condition on a message.** -/
def decodable (j : JsonValue) : Bool :=
  isStringAt j kRequestId && optionalFields.all (isStringOrAbsent j) && bodyDecodable j

variable {j : JsonValue}

theorem exists_getString_iff (hj : j.isObject = true) (key : Bytes) :
    (∃ s, getString j key = .ok s) ↔ isStringAt j key = true := by
  unfold getString isStringAt
  rw [if_pos hj]
  split <;> simp_all

theorem exists_valueString_iff (hj : j.isObject = true) (key default : Bytes) :
    (∃ s, valueString j key default = .ok s) ↔ isStringOrAbsent j key = true := by
  unfold valueString isStringOrAbsent
  rw [if_pos hj]
  split <;> simp_all

/-- The body is read and decoded. -/
theorem exists_decodeBody_iff (hj : j.isObject = true) :
    (∃ encoded isBinary body, getString j kBody = .ok encoded ∧
      valueBool j kBodyIsBinary false = .ok isBinary ∧ decodeBody encoded isBinary = .ok body) ↔
      bodyDecodable j = true := by
  unfold getString valueBool bodyDecodable
  rw [if_pos hj, if_pos hj]
  cases j.find kBody with
  | none => simp
  | some v =>
    cases v with
    | string encoded =>
      cases j.find kBodyIsBinary with
      | none => simp [decodeBody]
      | some w =>
        cases w with
        | bool isBinary =>
          cases isBinary with
          | false => simp [decodeBody]
          | true => cases hdecode : fromBase64 encoded <;> simp [decodeBody, hdecode]
        | _ => simp
    | _ => simp

/-- The result of the decoder, from the results of its accesses. -/
theorem decodeNatsRequest_eq_ok {requestId path query method encoded body clientIp proxyIp
    proxyTraceparent proxySpanId traceparent : Bytes} {isBinary : Bool}
    (hrequestId : getString j kRequestId = .ok requestId)
    (hpath : getString j kPath = .ok path)
    (hquery : valueString j kQuery [] = .ok query)
    (hmethod : getString j kMethod = .ok method)
    (hencoded : getString j kBody = .ok encoded)
    (hisBinary : valueBool j kBodyIsBinary false = .ok isBinary)
    (hbody : decodeBody encoded isBinary = .ok body)
    (hclientIp : valueString j kClientIp (ascii "unknown") = .ok clientIp)
    (hproxyIp : valueString j kProxyIp (ascii "unknown") = .ok proxyIp)
    (hproxyTraceparent : valueString j kProxyTraceparent [] = .ok proxyTraceparent)
    (hproxySpanId : valueString j kProxySpanId [] = .ok proxySpanId)
    (htraceparent : valueString j kTraceparent [] = .ok traceparent) :
    decodeNatsRequest j = .ok
      { requestId, path, query, method, body, clientIp, proxyIp, traceparent, proxyTraceparent,
        proxySpanId,
        forwardedHeaders :=
          match j.find kHeaders with
          | some headers => filterHeadersFromJson headers
          | none => [] } := by
  unfold decodeNatsRequest
  rw [hrequestId, hpath, hquery, hmethod, hencoded, hisBinary]
  show (decodeBody encoded isBinary >>= fun body => _) = _
  rw [hbody, hclientIp, hproxyIp, hproxyTraceparent, hproxySpanId, htraceparent]
  rfl

/-- **When the decoder returns**: on an object with a method and a path, exactly under the
condition. -/
theorem exists_decodeNatsRequest_iff (hmethod : isStringAt j kMethod = true)
    (hpath : isStringAt j kPath = true) (hj : j.isObject = true) :
    (∃ data, decodeNatsRequest j = .ok data) ↔ decodable j = true := by
  have hoptional : optionalFields.all (isStringOrAbsent j) = true ↔
      (∀ key ∈ optionalFields, isStringOrAbsent j key = true) := List.all_eq_true
  rw [decodable, Bool.and_eq_true, Bool.and_eq_true, hoptional, ← exists_decodeBody_iff hj,
    ← exists_getString_iff hj]
  constructor
  · rintro ⟨data, h⟩
    obtain ⟨requestId, hrequestId, h⟩ := bind_eq_ok_iff.mp h
    obtain ⟨path, -, h⟩ := bind_eq_ok_iff.mp h
    obtain ⟨query, hquery, h⟩ := bind_eq_ok_iff.mp h
    obtain ⟨method, -, h⟩ := bind_eq_ok_iff.mp h
    obtain ⟨encoded, hencoded, h⟩ := bind_eq_ok_iff.mp h
    obtain ⟨isBinary, hisBinary, h⟩ := bind_eq_ok_iff.mp h
    obtain ⟨body, hbody, h⟩ := bind_eq_ok_iff.mp h
    obtain ⟨clientIp, hclientIp, h⟩ := bind_eq_ok_iff.mp h
    obtain ⟨proxyIp, hproxyIp, h⟩ := bind_eq_ok_iff.mp h
    obtain ⟨proxyTraceparent, hproxyTraceparent, h⟩ := bind_eq_ok_iff.mp h
    obtain ⟨proxySpanId, hproxySpanId, h⟩ := bind_eq_ok_iff.mp h
    obtain ⟨traceparent, htraceparent, -⟩ := bind_eq_ok_iff.mp h
    refine ⟨⟨⟨requestId, hrequestId⟩, ?_⟩, encoded, isBinary, body, hencoded, hisBinary, hbody⟩
    simp only [optionalFields, List.forall_mem_cons]
    exact ⟨(exists_valueString_iff hj _ _).mp ⟨query, hquery⟩,
      (exists_valueString_iff hj _ _).mp ⟨clientIp, hclientIp⟩,
      (exists_valueString_iff hj _ _).mp ⟨proxyIp, hproxyIp⟩,
      (exists_valueString_iff hj _ _).mp ⟨proxyTraceparent, hproxyTraceparent⟩,
      (exists_valueString_iff hj _ _).mp ⟨proxySpanId, hproxySpanId⟩,
      (exists_valueString_iff hj _ _).mp ⟨traceparent, htraceparent⟩, List.forall_mem_nil _⟩
  · rintro ⟨⟨⟨requestId, hrequestId⟩, hoptionals⟩, encoded, isBinary, body, hencoded, hisBinary,
      hbody⟩
    simp only [optionalFields, List.forall_mem_cons] at hoptionals
    obtain ⟨hquery, hclientIp, hproxyIp, hproxyTraceparent, hproxySpanId, htraceparent, -⟩ :=
      hoptionals
    obtain ⟨path, hpath⟩ := (exists_getString_iff hj _).mpr hpath
    obtain ⟨method, hmethod⟩ := (exists_getString_iff hj _).mpr hmethod
    obtain ⟨query, hquery⟩ := (exists_valueString_iff hj _ []).mpr hquery
    obtain ⟨clientIp, hclientIp⟩ := (exists_valueString_iff hj _ (ascii "unknown")).mpr hclientIp
    obtain ⟨proxyIp, hproxyIp⟩ := (exists_valueString_iff hj _ (ascii "unknown")).mpr hproxyIp
    obtain ⟨proxyTraceparent, hproxyTraceparent⟩ :=
      (exists_valueString_iff hj _ []).mpr hproxyTraceparent
    obtain ⟨proxySpanId, hproxySpanId⟩ := (exists_valueString_iff hj _ []).mpr hproxySpanId
    obtain ⟨traceparent, htraceparent⟩ := (exists_valueString_iff hj _ []).mpr htraceparent
    exact ⟨_, decodeNatsRequest_eq_ok hrequestId hpath hquery hmethod hencoded hisBinary hbody
      hclientIp hproxyIp hproxyTraceparent hproxySpanId htraceparent⟩

/-- **Decoding an accepted message.**  The decoder returns exactly when the id is a string,
the optional fields are strings where they are there, and the body is there and decodes. -/
theorem exists_decodeNatsRequest_of_accepted_iff (sentry : Bool) (j : JsonValue)
    (h : checkRequest sentry j = .accepted j) :
    (∃ data, decodeNatsRequest j = .ok data) ↔ decodable j = true := by
  obtain ⟨-, hvalidate⟩ := validate_of_checkRequest h
  obtain ⟨⟨method, hmethod, -⟩, ⟨path, hpath, -⟩, -⟩ := (validate_standard_iff _).mp hvalidate
  refine exists_decodeNatsRequest_iff ?_ ?_ (isObject_of_find hmethod)
  · rw [isStringAt, hmethod]
  · rw [isStringAt, hpath]

/-- A request with a body that is flagged as binary. -/
def binaryRequest : JsonValue :=
  .object [(kBody, .string (ascii "/w==")), (kBodyIsBinary, .bool true),
    (kMethod, .string (ascii "POST")), (kPath, .string (ascii "/api")),
    (kRequestId, .string (ascii "1"))]

theorem exists_decodeNatsRequest_binaryRequest :
    checkRequest true binaryRequest = .accepted binaryRequest ∧
      ∃ data, decodeNatsRequest binaryRequest = .ok data := by
  have haccepted : checkRequest true binaryRequest = .accepted binaryRequest := rfl
  have hdecodable : decodable binaryRequest = true := by decide +kernel
  exact ⟨haccepted,
    (exists_decodeNatsRequest_of_accepted_iff true binaryRequest haccepted).mpr hdecodable⟩

/-- A request without a body. -/
def bodylessRequest : JsonValue :=
  .object [(kMethod, .string (ascii "GET")), (kPath, .string (ascii "/api")),
    (kRequestId, .string (ascii "1"))]

/-- **A message without a body** is accepted, and the decoder asks the const object for the
missing key. -/
theorem decodeNatsRequest_bodylessRequest :
    checkRequest true bodylessRequest = .accepted bodylessRequest ∧
      decodeNatsRequest bodylessRequest = .error (.missingKey kBody) ∧
      ¬ ∃ data, decodeNatsRequest bodylessRequest = .ok data := by
  have hmissing : decodeNatsRequest bodylessRequest = .error (.missingKey kBody) := rfl
  refine ⟨rfl, hmissing, ?_⟩
  rintro ⟨data, hdata⟩
  rw [hmissing] at hdata
  exact absurd hdata (by simp)

end Worker
end HttpDataDiod
