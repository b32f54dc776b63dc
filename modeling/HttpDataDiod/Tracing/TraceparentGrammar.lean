import Mathlib.Data.List.GetD
import HttpDataDiod.Tracing.Traceparent

/-!
# The headers that are accepted

`validate_traceparent` looks at the ends of each field and not at the digits between, as
its comments say.  The headers it accepts are therefore those that are put together from
two ids of the right lengths with digits at their ends; the ids themselves come back from
the header unchanged, in both directions.

* `EndsHex`: the ids that get through.
* `parseTraceparent_generateTraceparent`, `generateTraceparent_of_parseTraceparent`: the
  two directions.
* `parseTraceparent_isSome_iff`: the accepted headers.
* `parseTraceparent_traceparentHeader`: the header that goes to the backend.
-/

namespace HttpDataDiod
namespace Tracing

open ByteText

/-! ## The shape of a header -/

/-- An id of so many bytes that starts and ends with a hexadecimal digit. -/
structure EndsHex (n : ℕ) (id : Bytes) : Prop where
  length_eq : id.length = n
  first : isHex (byteAt id 0) = true
  last : isHex (byteAt id (n - 1)) = true

theorem isHex_byteAt {s : Bytes} (h : s.all isHex = true) {i : ℕ} (hi : i < s.length) :
    isHex (byteAt s i) = true := by
  rw [byteAt, List.getD_eq_getElem _ _ hi]
  exact List.all_eq_true.mp h _ (List.getElem_mem hi)

/-- A generated id has digits at its ends, as everywhere. -/
theorem HexId.endsHex {n : ℕ} (id : HexId (n + 1)) : EndsHex (n + 1) id.bytes where
  length_eq := id.length_eq
  first := isHex_byteAt id.all_isHex (by rw [id.length_eq]; omega)
  last := isHex_byteAt id.all_isHex (by rw [id.length_eq]; omega)

theorem byteAt_append (s t : Bytes) (i : ℕ) :
    byteAt (s ++ t) i = if i < s.length then byteAt s i else byteAt t (i - s.length) := by
  unfold byteAt
  split
  · rename_i h
    exact List.getD_append s t 0 i h
  · rename_i h
    exact List.getD_append_right s t 0 i (by omega)

theorem drop_eq_byteAt_cons {s : Bytes} {i : ℕ} (h : i < s.length) :
    s.drop i = byteAt s i :: s.drop (i + 1) := by
  rw [byteAt, List.getD_eq_getElem _ _ h]
  exact List.drop_eq_getElem_cons h

theorem drop_eq_substr_append (s : Bytes) (pos count : ℕ) :
    s.drop pos = substr s pos count ++ s.drop (pos + count) := by
  rw [substr, ← List.drop_drop, List.take_append_drop]

theorem byteAt_substr {s : Bytes} {pos count i : ℕ} (h : i < count) :
    byteAt (substr s pos count) i = byteAt s (pos + i) := by
  simp [byteAt, substr, List.getD_eq_getElem?_getD, h]

theorem byteAt_cons (c : UInt8) (s : Bytes) (i : ℕ) :
    byteAt (c :: s) i = if i = 0 then c else byteAt s (i - 1) := by
  cases i with
  | zero => rfl
  | succ i => rfl

/-- The last byte of a header. -/
def flagByte (sampled : Bool) : UInt8 := if sampled then 49 else 48

theorem generateTraceparent_eq (traceId spanId : Bytes) (sampled : Bool) :
    generateTraceparent traceId spanId sampled =
      48 :: 48 :: 45 :: (traceId ++ 45 :: (spanId ++ [45, 48, flagByte sampled])) := by
  cases sampled <;> simp [generateTraceparent, ascii, flagByte]

/-- The ends of the ids are where `validate_traceparent` looks for them. -/
theorem validateTraceparent_generateTraceparent {traceId spanId : Bytes}
    (htrace : EndsHex traceIdHexLen traceId) (hspan : EndsHex spanIdHexLen spanId)
    (sampled : Bool) : validateTraceparent (generateTraceparent traceId spanId sampled) = true := by
  obtain ⟨htlen, htfirst, htlast⟩ := htrace
  obtain ⟨hslen, hsfirst, hslast⟩ := hspan
  simp only [traceIdHexLen, spanIdHexLen, Nat.reduceSub] at htlen htlast hslen hslast
  have hflag : isHex (flagByte sampled) = true ∧
      (flagByte sampled = 48 ∨ flagByte sampled = 49) := by
    cases sampled <;> decide
  rw [generateTraceparent_eq]
  simp [validateTraceparent, byteAt_cons, byteAt_append, htlen, hslen, htfirst, htlast, hsfirst,
    hslast, hflag, traceparentLength, traceparentTraceIdPos, traceparentTraceIdEndPos,
    traceparentSepAfterTraceIdPos, traceparentSpanIdPos, traceparentSpanIdEndPos,
    traceparentSepAfterSpanIdPos, traceparentFlagsPos, traceparentFlagsEndPos,
    show isHex 48 = true by decide]

/-- **A header is read back as it was put together.** -/
theorem parseTraceparent_generateTraceparent {traceId spanId : Bytes}
    (htrace : EndsHex traceIdHexLen traceId) (hspan : EndsHex spanIdHexLen spanId)
    (sampled : Bool) :
    parseTraceparent (generateTraceparent traceId spanId sampled) =
      some { traceId := traceId, parentSpanId := spanId, sampled := sampled } := by
  have hvalid := validateTraceparent_generateTraceparent htrace hspan sampled
  have htlen : traceId.length = 32 := htrace.length_eq
  have hslen : spanId.length = 16 := hspan.length_eq
  have hflag : decide ([48, flagByte sampled] = ascii "01") = sampled := by
    cases sampled <;> decide
  rw [generateTraceparent_eq] at hvalid ⊢
  have htraceId : substr (48 :: 48 :: 45 :: (traceId ++ 45 :: (spanId ++
      [45, 48, flagByte sampled]))) traceparentTraceIdPos traceIdHexLen = traceId := by
    simp [substr, traceparentTraceIdPos, traceIdHexLen, ← htlen]
  have hspanId : substr (48 :: 48 :: 45 :: (traceId ++ 45 :: (spanId ++
      [45, 48, flagByte sampled]))) traceparentSpanIdPos spanIdHexLen = spanId := by
    simp [substr, traceparentSpanIdPos, spanIdHexLen, List.drop_append, htlen, ← hslen,
      List.drop_eq_nil_of_le (show traceId.length ≤ 33 by omega)]
  have hflags : substr (48 :: 48 :: 45 :: (traceId ++ 45 :: (spanId ++
      [45, 48, flagByte sampled]))) traceparentFlagsPos
      (traceparentFlagsEndPos - traceparentFlagsPos + 1) = [48, flagByte sampled] := by
    simp [substr, traceparentFlagsPos, traceparentFlagsEndPos, List.drop_append, htlen, hslen,
      List.drop_eq_nil_of_le (show traceId.length ≤ 50 by omega),
      List.drop_eq_nil_of_le (show spanId.length ≤ 17 by omega)]
  rw [parseTraceparent, if_pos hvalid, htraceId, hspanId, hflags, hflag]

/-- What an accepted header has at the positions that are looked at. -/
structure KeyPositions (h : Bytes) : Prop where
  length_eq : h.length = 55
  version : byteAt h 0 = 48 ∧ byteAt h 1 = 48 ∧ byteAt h 2 = 45
  separators : byteAt h 35 = 45 ∧ byteAt h 52 = 45
  traceId : isHex (byteAt h 3) = true ∧ isHex (byteAt h 34) = true
  spanId : isHex (byteAt h 36) = true ∧ isHex (byteAt h 51) = true
  flags : byteAt h 53 = 48 ∧ (byteAt h 54 = 48 ∨ byteAt h 54 = 49)

theorem keyPositions_of_validateTraceparent {h : Bytes} (hv : validateTraceparent h = true) :
    KeyPositions h := by
  simp only [validateTraceparent, Bool.and_eq_true, Bool.or_eq_true, decide_eq_true_eq] at hv
  obtain ⟨⟨⟨⟨⟨⟨⟨hlen, ⟨hv0, hv1⟩, hv2⟩, hsep⟩, htrace⟩, hspan⟩, -⟩, hflag⟩, hflag'⟩ := hv
  exact ⟨hlen, ⟨hv0, hv1, hv2⟩, hsep, htrace, hspan, hflag, hflag'⟩

/-- An accepted header is put together from its two ids and its flag. -/
theorem KeyPositions.eq_append {h : Bytes} (hk : KeyPositions h) :
    h = 48 :: 48 :: 45 :: (substr h 3 32 ++ 45 :: (substr h 36 16 ++ [45, 48, byteAt h 54])) := by
  have hlen := hk.length_eq
  obtain ⟨hv0, hv1, hv2⟩ := hk.version
  obtain ⟨hsep, hsep'⟩ := hk.separators
  have hend : h.drop 52 = [45, 48, byteAt h 54] := by
    rw [drop_eq_byteAt_cons (by omega), drop_eq_byteAt_cons (i := 53) (by omega),
      drop_eq_byteAt_cons (i := 54) (by omega), hsep', hk.flags.1,
      List.drop_eq_nil_of_le (i := 55) (by omega)]
  have hspan : h.drop 36 = substr h 36 16 ++ h.drop 52 := drop_eq_substr_append h 36 16
  have htrace : h.drop 3 = substr h 3 32 ++ h.drop 35 := drop_eq_substr_append h 3 32
  calc h = h.drop 0 := List.drop_zero.symm
    _ = 48 :: 48 :: 45 :: h.drop 3 := by
      rw [drop_eq_byteAt_cons (by omega), drop_eq_byteAt_cons (i := 1) (by omega),
        drop_eq_byteAt_cons (i := 2) (by omega), hv0, hv1, hv2]
    _ = 48 :: 48 :: 45 :: (substr h 3 32 ++ 45 :: h.drop 36) := by
      rw [htrace, drop_eq_byteAt_cons (i := 35) (by omega), hsep]
    _ = _ := by rw [hspan, hend]

/-- **The fields of an accepted header.**  The two ids have digits at their ends, and
putting them together again gives the header. -/
theorem endsHex_of_parseTraceparent {h : Bytes} {p : ParsedTraceparent}
    (hp : parseTraceparent h = some p) :
    EndsHex traceIdHexLen p.traceId ∧ EndsHex spanIdHexLen p.parentSpanId ∧
      generateTraceparent p.traceId p.parentSpanId p.sampled = h := by
  unfold parseTraceparent at hp
  split at hp
  case isFalse => cases hp
  case isTrue hvalid =>
    have hk := keyPositions_of_validateTraceparent hvalid
    have hlen := hk.length_eq
    have hflags : substr h traceparentFlagsPos
        (traceparentFlagsEndPos - traceparentFlagsPos + 1) = [48, byteAt h 54] := by
      show (h.drop 53).take 2 = _
      rw [drop_eq_byteAt_cons (by omega), drop_eq_byteAt_cons (i := 54) (by omega), hk.flags.1]
      rfl
    have hflagByte : flagByte (decide ([48, byteAt h 54] = ascii "01")) = byteAt h 54 := by
      rcases hk.flags.2 with hzero | hone
      · rw [hzero]
        rfl
      · rw [hone]
        rfl
    obtain rfl := Option.some.inj hp
    refine ⟨⟨?_, ?_, ?_⟩, ⟨?_, ?_, ?_⟩, ?_⟩
    · simp [substr, hlen, traceparentTraceIdPos, traceIdHexLen]
    · rw [byteAt_substr (by decide)]
      exact hk.traceId.1
    · rw [byteAt_substr (by decide)]
      exact hk.traceId.2
    · simp [substr, hlen, traceparentSpanIdPos, spanIdHexLen]
    · rw [byteAt_substr (by decide)]
      exact hk.spanId.1
    · rw [byteAt_substr (by decide)]
      exact hk.spanId.2
    · rw [generateTraceparent_eq, hflags, hflagByte]
      exact hk.eq_append.symm

/-! ## The accepted headers -/

/-- The accepted headers: the version, an id of 32 bytes and one of 16 with digits at
their ends, and a flag. -/
theorem parseTraceparent_isSome_iff (h : Bytes) :
    (parseTraceparent h).isSome = true ↔
      ∃ (traceId parentId : Bytes) (sampled : Bool), EndsHex traceIdHexLen traceId ∧
        EndsHex spanIdHexLen parentId ∧ h = generateTraceparent traceId parentId sampled := by
  constructor
  · intro hsome
    obtain ⟨p, hp⟩ := Option.isSome_iff_exists.mp hsome
    obtain ⟨htrace, hspan, heq⟩ := endsHex_of_parseTraceparent hp
    exact ⟨_, _, _, htrace, hspan, heq.symm⟩
  · rintro ⟨traceId, parentId, sampled, htrace, hspan, rfl⟩
    rw [parseTraceparent_generateTraceparent htrace hspan sampled]
    rfl

/-- The ids of a context have digits at their ends, whatever the client sent. -/
theorem handleTraceContext_endsHex (fresh : FreshContext) (raw : Bytes) :
    EndsHex traceIdHexLen (handleTraceContext fresh raw).traceId ∧
      EndsHex spanIdHexLen (handleTraceContext fresh raw).spanId ∧
      (handleTraceContext fresh raw).traceparentHeader =
        generateTraceparent (handleTraceContext fresh raw).traceId
          (handleTraceContext fresh raw).spanId (handleTraceContext fresh raw).sampled := by
  unfold handleTraceContext
  dsimp only
  split
  · rename_i p hp
    split at hp
    · cases hp
    · exact ⟨(endsHex_of_parseTraceparent hp).1, fresh.spanId.endsHex, rfl⟩
  · exact ⟨fresh.traceId.endsHex, fresh.spanId.endsHex, rfl⟩

/-- The header that goes to the backend is accepted there, with the ids and the flag of
the context. -/
theorem parseTraceparent_traceparentHeader (fresh : FreshContext) (raw : Bytes) :
    parseTraceparent (handleTraceContext fresh raw).traceparentHeader =
      some { traceId := (handleTraceContext fresh raw).traceId
             parentSpanId := (handleTraceContext fresh raw).spanId
             sampled := (handleTraceContext fresh raw).sampled } := by
  obtain ⟨htrace, hspan, heq⟩ := handleTraceContext_endsHex fresh raw
  rw [heq]
  exact parseTraceparent_generateTraceparent htrace hspan _

theorem handleTraceContext_of_parse {fresh : FreshContext} {raw : Bytes} {p : ParsedTraceparent}
    (hp : parseTraceparent raw = some p) :
    (handleTraceContext fresh raw).traceId = p.traceId ∧
      (handleTraceContext fresh raw).parentId = p.parentSpanId ∧
      (handleTraceContext fresh raw).sampled = p.sampled := by
  cases raw with
  | nil => cases hp
  | cons c s =>
    have hparsed : (if (c :: s).isEmpty then none else parseTraceparent (c :: s)) = some p := hp
    unfold handleTraceContext
    rw [hparsed]
    exact ⟨rfl, rfl, rfl⟩

/-- **The traceparent headers of the program.**  Those that are accepted have digits at
the ends of their ids; an accepted header is put together from what was read out of it,
ids of hexadecimal digits are read back as they were written, and the header for the
backend is accepted and carries on the trace id and the flag of the client. -/
theorem traceparent_accepted_and_kept :
    (∀ h : Bytes, (parseTraceparent h).isSome = true ↔
      ∃ (traceId parentId : Bytes) (sampled : Bool), EndsHex traceIdHexLen traceId ∧
        EndsHex spanIdHexLen parentId ∧ h = generateTraceparent traceId parentId sampled) ∧
    (∀ (h : Bytes) (p : ParsedTraceparent), parseTraceparent h = some p →
      generateTraceparent p.traceId p.parentSpanId p.sampled = h) ∧
    (∀ (traceId : TraceId) (spanId : SpanId) (sampled : Bool),
      parseTraceparent (generateTraceparent traceId.bytes spanId.bytes sampled) =
        some { traceId := traceId.bytes, parentSpanId := spanId.bytes, sampled := sampled }) ∧
    ∀ (fresh : FreshContext) (raw : Bytes), ∃ q : ParsedTraceparent,
      parseTraceparent (handleTraceContext fresh raw).traceparentHeader = some q ∧
        ∀ p, parseTraceparent raw = some p → q.traceId = p.traceId ∧ q.sampled = p.sampled := by
  refine ⟨parseTraceparent_isSome_iff, ?_, ?_, ?_⟩
  · intro h p hp
    exact (endsHex_of_parseTraceparent hp).2.2
  · intro traceId spanId sampled
    exact parseTraceparent_generateTraceparent traceId.endsHex spanId.endsHex sampled
  · intro fresh raw
    refine ⟨_, parseTraceparent_traceparentHeader fresh raw, fun p hp => ?_⟩
    obtain ⟨htrace, -, hsampled⟩ := @handleTraceContext_of_parse fresh raw p hp
    exact ⟨htrace, hsampled⟩

/-- A sampled client keeps its trace id. -/
theorem traceparent_kept_for_sampled_client :
    ∃ q : ParsedTraceparent,
      parseTraceparent (handleTraceContext ⟨HexId.zero _, HexId.zero _⟩
        (ascii "00-0123456789abcdef0123456789abcdef-0123456789abcdef-01")).traceparentHeader =
          some q ∧
      q.traceId = ascii "0123456789abcdef0123456789abcdef" ∧ q.sampled = true := by
  obtain ⟨q, hq, hkept⟩ := traceparent_accepted_and_kept.2.2.2 ⟨HexId.zero _, HexId.zero _⟩
    (ascii "00-0123456789abcdef0123456789abcdef-0123456789abcdef-01")
  obtain ⟨htrace, hsampled⟩ := hkept
    { traceId := ascii "0123456789abcdef0123456789abcdef"
      parentSpanId := ascii "0123456789abcdef"
      sampled := true } (by rfl)
  exact ⟨q, hq, htrace, hsampled⟩

/-- A header all of whose digits are hexadecimal. -/
def MatchesHexGrammar (h : Bytes) : Prop :=
  ∃ (traceId : TraceId) (parentId : SpanId) (sampled : Bool),
    h = generateTraceparent traceId.bytes parentId.bytes sampled

/-- A header with blanks between the ends of its trace id is accepted. -/
theorem traceparent_blank_accepted :
    ¬ ∀ h : Bytes, (parseTraceparent h).isSome = true ↔ MatchesHexGrammar h := by
  intro hall
  obtain ⟨traceId, parentId, sampled, heq⟩ :=
    (hall (ascii "00-0                              0-0123456789abcdef-01")).mp (by rfl)
  have hread := parseTraceparent_generateTraceparent traceId.endsHex parentId.endsHex sampled
  rw [← heq] at hread
  have hbytes : ascii "0                              0" = traceId.bytes :=
    congrArg ParsedTraceparent.traceId (Option.some.inj hread)
  have hhex := traceId.all_isHex
  rw [← hbytes] at hhex
  exact absurd hhex (by decide)

end Tracing
end HttpDataDiod
