import HttpDataDiod.Json.Utf8

/-!
# The trace context of a request

Model of the `traceparent` helpers of `trace_logger.cpp` and of
`handle_trace_context`.  The validation looks at the length, the separators and
the first and last digit of each field; it does not look at the digits between.

* `validateTraceparent`, `parseTraceparent`, `generateTraceparent`.
* `handleTraceContext`: the context of a request, with the ids of the header when
  it is accepted and with generated ones otherwise.
* `TraceparentOk`: the ids taken over from the header are well-formed UTF-8;
  `TraceContext.valid_handleTraceContext_iff` says that nothing else is needed.
-/

namespace HttpDataDiod
namespace Tracing

open ByteText

/-! ## The header -/

/-- The byte at a position. -/
def byteAt (s : Bytes) (i : ℕ) : UInt8 := s.getD i 0

/-- The digits that `validate_traceparent` accepts. -/
def isHex (c : UInt8) : Bool := (48 ≤ c && c ≤ 57) || (97 ≤ c && c ≤ 102)

def traceparentLength : ℕ := 55
def traceparentTraceIdPos : ℕ := 3
def traceparentTraceIdEndPos : ℕ := 34
def traceparentSepAfterTraceIdPos : ℕ := 35
def traceparentSpanIdPos : ℕ := 36
def traceparentSpanIdEndPos : ℕ := 51
def traceparentSepAfterSpanIdPos : ℕ := 52
def traceparentFlagsPos : ℕ := 53
def traceparentFlagsEndPos : ℕ := 54
def traceIdHexLen : ℕ := 32
def spanIdHexLen : ℕ := 16

/-- `validate_traceparent`: only the key positions are looked at. -/
def validateTraceparent (traceparent : Bytes) : Bool :=
  traceparent.length = traceparentLength &&
  -- version
  (byteAt traceparent 0 = 48 && byteAt traceparent 1 = 48 && byteAt traceparent 2 = 45) &&
  -- separators
  (byteAt traceparent traceparentSepAfterTraceIdPos = 45 &&
    byteAt traceparent traceparentSepAfterSpanIdPos = 45) &&
  -- the first and the last digit of each field
  (isHex (byteAt traceparent traceparentTraceIdPos) &&
    isHex (byteAt traceparent traceparentTraceIdEndPos)) &&
  (isHex (byteAt traceparent traceparentSpanIdPos) &&
    isHex (byteAt traceparent traceparentSpanIdEndPos)) &&
  (isHex (byteAt traceparent traceparentFlagsPos) &&
    isHex (byteAt traceparent traceparentFlagsEndPos)) &&
  -- the flags are 00 or 01
  byteAt traceparent traceparentFlagsPos = 48 &&
  (byteAt traceparent traceparentFlagsEndPos = 48 ||
    byteAt traceparent traceparentFlagsEndPos = 49)

/-- `std::string_view::substr`. -/
def substr (s : Bytes) (pos count : ℕ) : Bytes := (s.drop pos).take count

/-- The fields of an accepted header. -/
structure ParsedTraceparent where
  traceId : Bytes
  parentSpanId : Bytes
  sampled : Bool

/-- `parse_traceparent`. -/
def parseTraceparent (traceparent : Bytes) : Option ParsedTraceparent :=
  if validateTraceparent traceparent then
    some
      { traceId := substr traceparent traceparentTraceIdPos traceIdHexLen
        parentSpanId := substr traceparent traceparentSpanIdPos spanIdHexLen
        sampled :=
          substr traceparent traceparentFlagsPos
            (traceparentFlagsEndPos - traceparentFlagsPos + 1) = ascii "01" }
  else none

/-- `generate_traceparent`. -/
def generateTraceparent (traceId spanId : Bytes) (sampled : Bool) : Bytes :=
  ascii "00-" ++ traceId ++ ascii "-" ++ spanId ++ ascii "-" ++
    (if sampled then ascii "01" else ascii "00")

/-! ## Generated ids -/

/-- A random id: so many lowercase hexadecimal digits. -/
structure HexId (n : ℕ) where
  bytes : Bytes
  length_eq : bytes.length = n
  all_isHex : bytes.all isHex = true

theorem lt_of_isHex {c : UInt8} (h : isHex c = true) : c < 0x80 := by
  simp only [isHex, Bool.or_eq_true, Bool.and_eq_true, decide_eq_true_eq,
    UInt8.le_iff_toNat_le] at h
  rw [UInt8.lt_iff_toNat_lt]
  rcases h with h | h
  · exact lt_of_le_of_lt h.2 (by decide)
  · exact lt_of_le_of_lt h.2 (by decide)

theorem HexId.valid {n : ℕ} (id : HexId n) : isValidUtf8 id.bytes = true :=
  isValidUtf8_of_forall_lt fun c hc => lt_of_isHex (List.all_eq_true.mp id.all_isHex c hc)

/-- The id all of whose digits are 0. -/
def HexId.zero (n : ℕ) : HexId n where
  bytes := List.replicate n 48
  length_eq := List.length_replicate
  all_isHex := by simp [isHex]

abbrev TraceId := HexId traceIdHexLen
abbrev SpanId := HexId spanIdHexLen

/-! ## The context -/

/-- `TraceContext`. -/
structure TraceContext where
  traceId : Bytes
  spanId : Bytes
  parentId : Bytes
  traceparentHeader : Bytes
  sampled : Bool

/-- The ids that `handle_trace_context` may generate. -/
structure FreshContext where
  traceId : TraceId
  spanId : SpanId

/-- `handle_trace_context`, with a tracer. -/
def handleTraceContext (fresh : FreshContext) (traceparentRaw : Bytes) : TraceContext :=
  let parsed := if traceparentRaw.isEmpty then none else parseTraceparent traceparentRaw
  match parsed with
  | some p =>
    { traceId := p.traceId
      spanId := fresh.spanId.bytes
      parentId := p.parentSpanId
      traceparentHeader := generateTraceparent p.traceId fresh.spanId.bytes p.sampled
      sampled := p.sampled }
  | none =>
    { traceId := fresh.traceId.bytes
      spanId := fresh.spanId.bytes
      parentId := []
      traceparentHeader := generateTraceparent fresh.traceId.bytes fresh.spanId.bytes true
      sampled := true }

/-- The ids of the context can be written out. -/
structure TraceContext.Valid (ctx : TraceContext) : Prop where
  traceId : isValidUtf8 ctx.traceId = true
  spanId : isValidUtf8 ctx.spanId = true
  parentId : isValidUtf8 ctx.parentId = true

/-- **The condition on the header.**  If the header is accepted, the two ids taken
over from it are well formed. -/
def traceparentOk (traceparentRaw : Bytes) : Bool :=
  match parseTraceparent traceparentRaw with
  | some p => isValidUtf8 p.traceId && isValidUtf8 p.parentSpanId
  | none => true

theorem TraceContext.valid_handleTraceContext_iff {fresh : FreshContext} {raw : Bytes} :
    (handleTraceContext fresh raw).Valid ↔ traceparentOk raw = true := by
  have hempty : (if raw.isEmpty then none else parseTraceparent raw) = parseTraceparent raw := by
    cases raw with
    | nil => rfl
    | cons c s => rfl
  unfold handleTraceContext traceparentOk
  rw [hempty]
  cases parseTraceparent raw with
  | none => exact ⟨fun _ => rfl, fun _ => ⟨fresh.traceId.valid, fresh.spanId.valid, rfl⟩⟩
  | some p =>
    rw [Bool.and_eq_true]
    exact ⟨fun h => ⟨h.traceId, h.parentId⟩, fun h => ⟨h.1, fresh.spanId.valid, h.2⟩⟩

/-- The span id of the context is always a generated one. -/
theorem isValidUtf8_spanId_handleTraceContext (fresh : FreshContext) (raw : Bytes) :
    isValidUtf8 (handleTraceContext fresh raw).spanId = true := by
  unfold handleTraceContext
  dsimp only
  split
  · exact fresh.spanId.valid
  · exact fresh.spanId.valid

end Tracing
end HttpDataDiod
