import HttpDataDiod.Json.RoundTrip
import HttpDataDiod.Proxy.RequestHandler
import HttpDataDiod.Worker.RequestParser

/-!
# The request envelope

A request goes from the proxy to the worker as one JSON object: `prepare_request_data`
builds it, `push_request` adds the trace and writes it out, and the worker parses,
checks and decodes it.  The encoder decides by `json::accept` whether the body travels
verbatim or as base64, the decoder by the flag in the envelope.

* `Carries`: an envelope carries a request; `Carries.decode`: it is decoded to it.
* `carries_prepareRequestData`, `carries_pushedData`: the envelopes of the proxy do.
* `decodeNatsRequest_parse_dump`: the worker decodes what the proxy encoded.
* `validate_prepareRequestData_iff`: which requests fit the limits of the worker.
-/

namespace HttpDataDiod
namespace Transport

open ByteText JsonValue Proxy Worker NatsContract Tracing

/-- The codec of `base64.hpp`. -/
def vendoredBase64 : Base64 := ⟨toBase64, fromBase64⟩

/-- The JSON library with the vendored codec. -/
def vendored (json : JsonLibrary) : Libraries := ⟨json, vendoredBase64⟩

/-! ## Reading a value at the other end -/

section Access

variable {o : JsonObject} {key s : Bytes}

/-- The envelope as the worker gets it. -/
def received (o : JsonObject) : JsonValue := (JsonValue.object o.entries).wire

theorem find_received (o : JsonObject) (key : Bytes) :
    (received o).find key = (o.find key).map wire := find_wire key _

theorem isObject_received (o : JsonObject) : (received o).isObject = true := by
  rw [received, isObject_wire]
  rfl

theorem find_received_string (h : o.find key = some (.string s)) :
    (received o).find key = some (.string s) := by
  rw [find_received, h, Option.map_some, wire_string]

theorem find_received_none (h : o.find key = none) : (received o).find key = none := by
  rw [find_received, h, Option.map_none]

theorem getString_received (h : o.find key = some (.string s)) :
    getString (received o) key = .ok s := by
  rw [getString, if_pos (isObject_received o), find_received_string h]

theorem valueString_received (h : o.find key = some (.string s)) (default : Bytes) :
    valueString (received o) key default = .ok s := by
  rw [valueString, if_pos (isObject_received o), find_received_string h]

theorem valueString_received_none (h : o.find key = none) (default : Bytes) :
    valueString (received o) key default = .ok default := by
  rw [valueString, if_pos (isObject_received o), find_received_none h]

/-- An entry that is a string if it is there. -/
theorem exists_valueString_received (h : o.find key = none ∨ ∃ s, o.find key = some (.string s))
    (default : Bytes) : ∃ s, valueString (received o) key default = .ok s := by
  rcases h with h | ⟨s, h⟩
  · exact ⟨default, valueString_received_none h default⟩
  · exact ⟨s, valueString_received h default⟩

theorem valueBool_received {b : Bool} (h : o.find key = some (.bool b)) (default : Bool) :
    valueBool (received o) key default = .ok b := by
  rw [valueBool, if_pos (isObject_received o), find_received, h, Option.map_some, wire_bool]

theorem valueBool_received_none (h : o.find key = none) (default : Bool) :
    valueBool (received o) key default = .ok default := by
  rw [valueBool, if_pos (isObject_received o), find_received_none h]

end Access

/-! ## The fields of the envelope -/

section Fields

variable {libs : Libraries} {requestId method path body traceparent : Bytes} {req : Request}

theorem find_prepareRequestData {key : Bytes} {v : JsonValue}
    (h : (key, v) ∈ requestPairs libs requestId method path body req traceparent) :
    (prepareRequestData libs requestId method path body req traceparent).find key = some v := by
  rw [prepareRequestData_eq]
  exact JsonObject.find_of_of_mem
    (nodup_requestPairs libs requestId method path body req traceparent) h

theorem find_prepareRequestData_none {key : Bytes}
    (h : key ∉ (requestPairs libs requestId method path body req traceparent).map Prod.fst) :
    (prepareRequestData libs requestId method path body req traceparent).find key = none := by
  rw [prepareRequestData_eq]
  exact JsonObject.find_of_of_not_mem h

/-- The fields that are always there. -/
theorem mem_requestPairs {p : Bytes × JsonValue}
    (h : p ∈ [(kRequestId, .string requestId), (kMethod, .string method), (kPath, .string path),
      (kQuery, .string (extractQueryString req)), (kTraceparent, .string traceparent),
      (kClientIp, .string (extractClientIp req)),
      (kProxyIp, JsonValue.string req.localAddr.bytes)]) :
    p ∈ requestPairs libs requestId method path body req traceparent := by
  rw [requestPairs]
  exact List.mem_append_left _ (List.mem_append_left _ h)

/-- **The body of the envelope**: base64 with the flag, or verbatim without it. -/
theorem find_body_prepareRequestData :
    ((!body.isEmpty && !libs.json.accept body) = true ∧
      (prepareRequestData libs requestId method path body req traceparent).find kBody =
        some (.string (libs.base64.encode body)) ∧
      (prepareRequestData libs requestId method path body req traceparent).find kBodyIsBinary =
        some (.bool true)) ∨
    ((!body.isEmpty && !libs.json.accept body) = false ∧
      (prepareRequestData libs requestId method path body req traceparent).find kBody =
        some (.string body) ∧
      (prepareRequestData libs requestId method path body req traceparent).find kBodyIsBinary =
        none) := by
  cases hbinary : !body.isEmpty && !libs.json.accept body with
  | true =>
    refine Or.inl ⟨rfl, find_prepareRequestData ?_, find_prepareRequestData ?_⟩
    · rw [requestPairs, if_pos hbinary]
      exact List.mem_append_left _ (List.mem_append_right _ List.mem_cons_self)
    · rw [requestPairs, if_pos hbinary]
      exact List.mem_append_left _ (List.mem_append_right _
        (List.mem_cons_of_mem _ List.mem_cons_self))
  | false =>
    have hverbatim : ¬ (!body.isEmpty && !libs.json.accept body) = true := by
      rw [hbinary]
      decide
    refine Or.inr ⟨rfl, find_prepareRequestData ?_, find_prepareRequestData_none ?_⟩
    · rw [requestPairs, if_neg hverbatim]
      exact List.mem_append_left _ (List.mem_append_right _ List.mem_cons_self)
    · rw [keys_requestPairs, if_neg hverbatim]
      split <;> decide

end Fields

/-! ## The round trip -/

/-- What the worker has to find in an envelope to decode the request: the fields of
`prepare_request_data`, and trace fields that are strings where they are there. -/
structure Carries (o : JsonObject) (requestId method path query body clientIp proxyIp : Bytes) :
    Prop where
  requestId : o.find kRequestId = some (.string requestId)
  method : o.find kMethod = some (.string method)
  path : o.find kPath = some (.string path)
  query : o.find kQuery = some (.string query)
  body : (o.find kBody = some (.string (toBase64 body)) ∧
      o.find kBodyIsBinary = some (.bool true)) ∨
    (o.find kBody = some (.string body) ∧ o.find kBodyIsBinary = none)
  clientIp : o.find kClientIp = some (.string clientIp)
  proxyIp : o.find kProxyIp = some (.string proxyIp)
  trace : ∀ key ∈ [kProxyTraceparent, kProxySpanId, kTraceparent],
    o.find key = none ∨ ∃ s, o.find key = some (.string s)

/-- **Decoding.**  Whatever carries a request is decoded to it. -/
theorem Carries.decode {o : JsonObject} {requestId method path query body clientIp proxyIp : Bytes}
    (h : Carries o requestId method path query body clientIp proxyIp) :
    ∃ data, decodeNatsRequest (received o) = .ok data ∧ data.requestId = requestId ∧
      data.method = method ∧ data.path = path ∧ data.query = query ∧ data.body = body ∧
      data.clientIp = clientIp ∧ data.proxyIp = proxyIp := by
  have htrace := h.trace
  simp only [List.forall_mem_cons] at htrace
  obtain ⟨hproxyTraceparent, hproxySpanId, htraceparent, -⟩ := htrace
  obtain ⟨proxyTraceparent, hproxyTraceparent⟩ := exists_valueString_received hproxyTraceparent []
  obtain ⟨proxySpanId, hproxySpanId⟩ := exists_valueString_received hproxySpanId []
  obtain ⟨traceparent, htraceparent⟩ := exists_valueString_received htraceparent []
  have hbody : ∃ encoded isBinary, getString (received o) kBody = .ok encoded ∧
      valueBool (received o) kBodyIsBinary false = .ok isBinary ∧
      decodeBody encoded isBinary = .ok body := by
    rcases h.body with ⟨hfind, hflag⟩ | ⟨hfind, hflag⟩
    · refine ⟨_, true, getString_received hfind, valueBool_received hflag false, ?_⟩
      rw [decodeBody, if_pos rfl, fromBase64_toBase64]
    · exact ⟨_, false, getString_received hfind, valueBool_received_none hflag false, rfl⟩
  obtain ⟨encoded, isBinary, hencoded, hisBinary, hbody⟩ := hbody
  refine ⟨_, decodeNatsRequest_eq_ok (getString_received h.requestId) (getString_received h.path)
    (valueString_received h.query []) (getString_received h.method) hencoded hisBinary hbody
    (valueString_received h.clientIp _) (valueString_received h.proxyIp _) hproxyTraceparent
    hproxySpanId htraceparent, ?_⟩
  exact ⟨rfl, rfl, rfl, rfl, rfl, rfl, rfl⟩

section RoundTrip

variable (json : JsonLibrary) (requestId method path body traceparentForBackend : Bytes)
  (req : Request)

theorem carries_prepareRequestData :
    Carries
      (prepareRequestData (vendored json) requestId method path body req traceparentForBackend)
      requestId method path (extractQueryString req) body (extractClientIp req)
      req.localAddr.bytes where
  requestId := find_prepareRequestData (mem_requestPairs (by simp))
  method := find_prepareRequestData (mem_requestPairs (by simp))
  path := find_prepareRequestData (mem_requestPairs (by simp))
  query := find_prepareRequestData (mem_requestPairs (by simp))
  body := find_body_prepareRequestData.imp (fun h => h.2) (fun h => h.2)
  clientIp := find_prepareRequestData (mem_requestPairs (by simp))
  proxyIp := find_prepareRequestData (mem_requestPairs (by simp))
  trace := by
    have habsent : ∀ key ∈ [kProxyTraceparent, kProxySpanId],
        (prepareRequestData (vendored json) requestId method path body req
          traceparentForBackend).find key = none := by
      intro key hkey
      refine find_prepareRequestData_none ?_
      rw [keys_requestPairs]
      revert key
      split
      · split <;> decide
      · split <;> decide
    simp only [List.forall_mem_cons] at habsent ⊢
    exact ⟨Or.inl habsent.1, Or.inl habsent.2.1,
      Or.inr ⟨traceparentForBackend, find_prepareRequestData (mem_requestPairs (by simp))⟩,
      List.forall_mem_nil _⟩

/-- **The round trip of a request.**  If the envelope is written out, the worker decodes the
request the proxy encoded: the body byte for byte, whichever way it went. -/
theorem decodeNatsRequest_parse_dump (text : Bytes)
    (hdump : json.dump (.object (prepareRequestData (vendored json) requestId method path body req
      traceparentForBackend).entries) = some text)
    (hround : json.RoundTrips (.object (prepareRequestData (vendored json) requestId method path
      body req traceparentForBackend).entries)) :
    ∃ j data, json.parse text = .value j ∧ decodeNatsRequest j = .ok data ∧
      data.requestId = requestId ∧ data.method = method ∧ data.path = path ∧
      data.query = extractQueryString req ∧ data.body = body ∧
      data.clientIp = extractClientIp req ∧ data.proxyIp = req.localAddr.bytes := by
  obtain ⟨data, hdecode, hfields⟩ :=
    (carries_prepareRequestData json requestId method path body traceparentForBackend req).decode
  exact ⟨_, data, hround.parse hdump, hdecode, hfields⟩

/-- The trace fields that are added before the envelope is pushed do not touch the request. -/
theorem Carries.assign {o : JsonObject} {requestId method path query body clientIp proxyIp : Bytes}
    (h : Carries o requestId method path query body clientIp proxyIp)
    {pairs : List (Bytes × JsonValue)}
    (hkeys : ∀ key ∈ [kRequestId, kMethod, kPath, kQuery, kBody, kBodyIsBinary, kClientIp,
      kProxyIp, kTraceparent], key ∉ pairs.map Prod.fst)
    (hnodup : (pairs.map Prod.fst).Nodup)
    (htrace : ∀ key ∈ [kProxyTraceparent, kProxySpanId], ∀ v, (key, v) ∈ pairs →
      ∃ s, v = .string s) :
    Carries (o.assign pairs) requestId method path query body clientIp proxyIp := by
  simp only [List.forall_mem_cons] at hkeys
  obtain ⟨k₁, k₂, k₃, k₄, k₅, k₆, k₇, k₈, k₉, -⟩ := hkeys
  refine ⟨?_, ?_, ?_, ?_, ?_, ?_, ?_, ?_⟩
  · rw [JsonObject.find_assign_of_not_mem k₁]
    exact h.requestId
  · rw [JsonObject.find_assign_of_not_mem k₂]
    exact h.method
  · rw [JsonObject.find_assign_of_not_mem k₃]
    exact h.path
  · rw [JsonObject.find_assign_of_not_mem k₄]
    exact h.query
  · rw [JsonObject.find_assign_of_not_mem k₅, JsonObject.find_assign_of_not_mem k₆]
    exact h.body
  · rw [JsonObject.find_assign_of_not_mem k₇]
    exact h.clientIp
  · rw [JsonObject.find_assign_of_not_mem k₈]
    exact h.proxyIp
  · have hkept : ∀ key ∈ [kProxyTraceparent, kProxySpanId, kTraceparent],
        key ∉ pairs.map Prod.fst → (o.assign pairs).find key = none ∨
          ∃ s, (o.assign pairs).find key = some (.string s) := by
      intro key hkey hnot
      rw [JsonObject.find_assign_of_not_mem hnot]
      exact h.trace key hkey
    have hnew : ∀ key ∈ [kProxyTraceparent, kProxySpanId], key ∈ pairs.map Prod.fst →
        ∃ s, (o.assign pairs).find key = some (.string s) := by
      intro key hkey hmem
      obtain ⟨⟨key', v⟩, hp, rfl⟩ := List.mem_map.mp hmem
      obtain ⟨s, rfl⟩ := htrace _ hkey v hp
      exact ⟨s, JsonObject.find_assign_of_mem hnodup hp⟩
    intro key hkey
    by_cases hmem : key ∈ pairs.map Prod.fst
    · have hkey' : key ∈ [kProxyTraceparent, kProxySpanId] := by
        rcases List.mem_cons.mp hkey with rfl | hkey
        · exact List.mem_cons_self
        · rcases List.mem_cons.mp hkey with rfl | hkey
          · exact List.mem_cons_of_mem _ List.mem_cons_self
          · rw [List.mem_singleton] at hkey
            exact absurd (hkey ▸ hmem) k₉
      exact Or.inr (hnew key hkey' hmem)
    · exact hkept key hkey hmem

/-- **What is pushed carries the request.** -/
theorem carries_pushedData (env : HandlerChoices) (method : Method) (ctx : TraceContext) :
    Carries (pushedData (vendored json) env method body req ctx) env.requestId.bytes method.text
      req.path (extractQueryString req) body (extractClientIp req) req.localAddr.bytes := by
  unfold pushedData
  refine ((carries_prepareRequestData json _ _ _ _ _ req).assign ?_ ?_ ?_).assign ?_ ?_ ?_
  · show ∀ key ∈ _, key ∉ [kProxyTraceId, kProxySpanId, kProxyInletSpanId, kProxyTraceparent]
    decide
  · show List.Nodup [kProxyTraceId, kProxySpanId, kProxyInletSpanId, kProxyTraceparent]
    decide
  · intro key _ v hv
    simp only [proxyTraceFields, List.mem_cons, Prod.mk.injEq, List.not_mem_nil, or_false] at hv
    rcases hv with ⟨-, rfl⟩ | ⟨-, rfl⟩ | ⟨-, rfl⟩ | ⟨-, rfl⟩ <;> exact ⟨_, rfl⟩
  · split
    · show ∀ key ∈ _, key ∉ [kTimestamp, kProxySpanId, kProxyTraceId]
      decide
    · show ∀ key ∈ _, key ∉ [kTimestamp, kProxySpanId, kProxyTraceId, kProxyTraceparent]
      decide
  · split
    · show List.Nodup [kTimestamp, kProxySpanId, kProxyTraceId]
      decide
    · show List.Nodup [kTimestamp, kProxySpanId, kProxyTraceId, kProxyTraceparent]
      decide
  · intro key hkey v hv
    have hnot : key ≠ kTimestamp := by
      rintro rfl
      exact absurd hkey (by decide)
    simp only [List.cons_append, List.nil_append, List.mem_cons, Prod.mk.injEq, hnot, false_and,
      false_or] at hv
    rcases hv with ⟨-, rfl⟩ | ⟨-, rfl⟩ | hv
    · exact ⟨_, rfl⟩
    · exact ⟨_, rfl⟩
    · split at hv
      · exact absurd hv List.not_mem_nil
      · rw [List.mem_singleton, Prod.mk.injEq] at hv
        exact ⟨_, hv.2⟩

end RoundTrip

theorem isValidUtf8_clientAddr : isValidUtf8 (ascii "10.0.0.1") = true := by decide

theorem isValidUtf8_proxyAddr : isValidUtf8 (ascii "10.0.0.2") = true := by decide

theorem isValidUtf8_proxyMode : isValidUtf8 (ascii "proxy") = true := by decide

/-- A request with a body of one byte that is no text. -/
def sampleRequest : Request where
  path := ascii "/api"
  target := ascii "/api?x=1"
  headers := []
  body := [0xFF]
  remoteAddr := ⟨ascii "10.0.0.1", isValidUtf8_clientAddr⟩
  localAddr := ⟨ascii "10.0.0.2", isValidUtf8_proxyAddr⟩

/-- Its envelope. -/
def sampleEnvelope : JsonValue :=
  .object [(kBody, .string (ascii "/w==")), (kBodyIsBinary, .bool true),
    (kClientIp, .string (ascii "10.0.0.1")), (kMethod, .string (ascii "POST")),
    (kPath, .string (ascii "/api")), (kProxyIp, .string (ascii "10.0.0.2")),
    (kQuery, .string (ascii "x=1")), (kRequestId, .string (ascii "7")),
    (kTraceparent, .string [])]

/-- The text of the envelope. -/
def sampleText : Text where
  bytes := ascii "\x7b\"body\":\"/w==\"," ++ ascii "\"body_is_binary\":true," ++
    ascii "\"client_ip\":\"10.0.0.1\"," ++ ascii "\"method\":\"POST\"," ++
    ascii "\"path\":\"/api\"," ++ ascii "\"proxy_ip\":\"10.0.0.2\"," ++
    ascii "\"query\":\"x=1\"," ++ ascii "\"request_id\":\"7\"," ++
    ascii "\"traceparent\":\"\"\x7d"
  valid := by decide +kernel

/-- A library that knows this text. -/
def sampleJson : JsonLibrary := JsonLibrary.single sampleEnvelope sampleText

set_option maxRecDepth 4000 in
theorem object_prepareRequestData_sample :
    JsonValue.object (prepareRequestData (vendored sampleJson) (ascii "7") (ascii "POST")
      (ascii "/api") [0xFF] sampleRequest []).entries = sampleEnvelope := by
  rfl

theorem decodeNatsRequest_parse_dump_sample :
    ∃ j data, sampleJson.parse sampleText.bytes = .value j ∧ decodeNatsRequest j = .ok data ∧
      data.requestId = ascii "7" ∧ data.body = [0xFF] := by
  have hdump : sampleJson.dump (.object (prepareRequestData (vendored sampleJson) (ascii "7")
      (ascii "POST") (ascii "/api") [0xFF] sampleRequest []).entries) = some sampleText.bytes := by
    rw [object_prepareRequestData_sample]
    have hutf8 : sampleEnvelope.allUtf8 = true := by decide +kernel
    exact sampleJson.dump_of_allUtf8 hutf8
  have hround : sampleJson.RoundTrips (.object (prepareRequestData (vendored sampleJson)
      (ascii "7") (ascii "POST") (ascii "/api") [0xFF] sampleRequest []).entries) := by
    rw [object_prepareRequestData_sample]
    exact JsonLibrary.roundTrips_single sampleEnvelope sampleText
  obtain ⟨j, data, hparse, hdecode, hrequestId, -, -, -, hbody, -⟩ :=
    decodeNatsRequest_parse_dump sampleJson (ascii "7") (ascii "POST") (ascii "/api") [0xFF] []
      sampleRequest sampleText.bytes hdump hround
  exact ⟨j, data, hparse, hdecode, hrequestId, hbody⟩

/-! ## The limits of the worker -/

/-- `kMaxRequestPayloadBytes`: the largest body the proxy's HTTP server takes. -/
def kMaxRequestPayloadBytes : ℕ := 10 * 1024 * 1024

/-- The largest body whose base64 form is within the limit of the validator. -/
def maxBinaryBodyBytes : ℕ := 3 * (validatorDefaultMaxBodyBytes / 4)

theorem length_toBase64_le_iff (body : Bytes) :
    (toBase64 body).length ≤ validatorDefaultMaxBodyBytes ↔ body.length ≤ maxBinaryBodyBytes := by
  rw [length_toBase64, maxBinaryBodyBytes, validatorDefaultMaxBodyBytes]
  omega

/-- The validator looks at the text of the body that travels. -/
theorem validate_received_iff {o : JsonObject} {requestId path text : Bytes} {method : Method}
    (hrequestId : o.find kRequestId = some (.string requestId))
    (hmethod : o.find kMethod = some (.string method.text))
    (hpath : o.find kPath = some (.string path))
    (hlength : path.length ≤ validatorDefaultMaxPathLength)
    (hbody : o.find kBody = some (.string text)) :
    createStandardRequestValidator.validate (received o) = .ok () ↔
      text.length ≤ validatorDefaultMaxBodyBytes := by
  rw [validate_standard_iff]
  constructor
  · rintro ⟨-, -, -, h⟩
    obtain ⟨body, heq, hle⟩ := h _ (find_received_string hbody)
    obtain rfl : text = body := JsonValue.string.inj heq
    exact hle
  · intro hle
    refine ⟨⟨method.text, find_received_string hmethod, ?_⟩,
      ⟨path, find_received_string hpath, hlength⟩, ?_, ?_⟩
    · cases method with
      | get => exact Or.inl rfl
      | post => exact Or.inr rfl
    · rw [contains, find_received_string hrequestId]
      rfl
    · intro v hv
      rw [find_received_string hbody] at hv
      exact ⟨text, (Option.some.inj hv).symm, hle⟩

/-- The check of an envelope, by the form of its body. -/
theorem validate_prepareRequestData (json : JsonLibrary) (requestId body traceparent : Bytes)
    (method : Method) (req : Request)
    (hpath : req.path.length ≤ validatorDefaultMaxPathLength) :
    createStandardRequestValidator.validate (received (prepareRequestData (vendored json)
        requestId method.text req.path body req traceparent)) = .ok () ↔
      (if !body.isEmpty && !json.accept body then body.length ≤ maxBinaryBodyBytes
       else body.length ≤ validatorDefaultMaxBodyBytes) := by
  have hcarries :=
    carries_prepareRequestData json requestId method.text req.path body traceparent req
  have hbody := @find_body_prepareRequestData (vendored json) requestId method.text req.path body
    traceparent req
  rcases hbody with ⟨hbinary, hfind, -⟩ | ⟨hverbatim, hfind, -⟩
  · have hbinary' : (!body.isEmpty && !json.accept body) = true := hbinary
    rw [validate_received_iff hcarries.requestId hcarries.method hcarries.path hpath hfind,
      if_pos hbinary']
    exact length_toBase64_le_iff body
  · have hverbatim' : (!body.isEmpty && !json.accept body) = false := hverbatim
    rw [validate_received_iff hcarries.requestId hcarries.method hcarries.path hpath hfind,
      if_neg (by rw [hverbatim']; decide)]

/-- **The limits of the two sides.**  Of the requests the proxy admits, the worker accepts
those whose body travels verbatim or has at most three quarters of the limit. -/
theorem validate_prepareRequestData_iff (json : JsonLibrary) (requestId body traceparent : Bytes)
    (method : Method) (req : Request)
    (hpath : req.path.length ≤ validatorDefaultMaxPathLength)
    (hbody : body.length ≤ kMaxRequestPayloadBytes) :
    createStandardRequestValidator.validate (received (prepareRequestData (vendored json)
        requestId method.text req.path body req traceparent)) = .ok () ↔
      body = [] ∨ json.accept body = true ∨ body.length ≤ maxBinaryBodyBytes := by
  rw [validate_prepareRequestData json requestId body traceparent method req hpath]
  split
  · rename_i hbinary
    rw [Bool.and_eq_true, Bool.not_eq_true', Bool.not_eq_true'] at hbinary
    have hne : ¬ body = [] := by
      intro h
      rw [h] at hbinary
      exact absurd hbinary.1 (by decide)
    simp [hne, hbinary.2]
  · rename_i hverbatim
    refine ⟨fun _ => ?_, fun _ => hbody⟩
    by_cases hempty : body = []
    · exact Or.inl hempty
    · refine Or.inr (Or.inl ?_)
      by_contra haccept
      exact hverbatim (by simp [hempty, haccept])

theorem accept_sampleJson {text : Bytes} (h : text.length ≠ sampleText.bytes.length) :
    sampleJson.accept text = false := by
  have hne : ¬ text = sampleText.bytes := fun heq => h (by rw [heq])
  unfold JsonLibrary.accept sampleJson
  rw [JsonLibrary.parse_single_of_ne _ _ hne]

theorem validate_prepareRequestData_sample :
    createStandardRequestValidator.validate (received (prepareRequestData (vendored sampleJson)
      (ascii "7") Method.post.text sampleRequest.path sampleRequest.body sampleRequest [])) =
      .ok () := by
  have hpath : sampleRequest.path.length ≤ validatorDefaultMaxPathLength := by decide
  have hbody : sampleRequest.body.length ≤ kMaxRequestPayloadBytes := by decide
  have hbinary : sampleRequest.body.length ≤ maxBinaryBodyBytes := by decide
  exact (validate_prepareRequestData_iff sampleJson (ascii "7") sampleRequest.body [] .post
    sampleRequest hpath hbody).mpr (Or.inr (Or.inr hbinary))

/-- A body of 8 MiB that is no JSON text. -/
def largeBinaryBody : Bytes := List.replicate (8 * 1024 * 1024) 0xFF

theorem length_largeBinaryBody : largeBinaryBody.length = 8388608 := List.length_replicate

/-- **A body of 8 MiB is refused**: base64 makes it longer than the limit. -/
theorem validate_largeBinaryBody :
    largeBinaryBody.length ≤ kMaxRequestPayloadBytes ∧
      createStandardRequestValidator.validate (received (prepareRequestData (vendored sampleJson)
        (ascii "7") Method.post.text sampleRequest.path largeBinaryBody sampleRequest [])) ≠
        .ok () := by
  have hpath : sampleRequest.path.length ≤ validatorDefaultMaxPathLength := by decide
  have hsample : 8388608 ≠ sampleText.bytes.length := by decide +kernel
  have haccept : sampleJson.accept largeBinaryBody = false := by
    refine accept_sampleJson ?_
    rw [length_largeBinaryBody]
    exact hsample
  have hempty : largeBinaryBody.isEmpty = false := rfl
  refine ⟨by rw [length_largeBinaryBody]; decide, ?_⟩
  rw [Ne, validate_prepareRequestData sampleJson (ascii "7") largeBinaryBody [] .post
    sampleRequest hpath, hempty, haccept, if_pos (by decide), length_largeBinaryBody]
  decide

end Transport
end HttpDataDiod
