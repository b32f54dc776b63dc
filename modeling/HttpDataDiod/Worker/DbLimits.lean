import HttpDataDiod.Worker.DbQuery

/-!
# The limits of a query

A request may carry a timeout and a limit on the rows, in the ranges that the interface
description gives.  `safe_get_int` keeps the low 32 bits of an integer before the range is
looked at, it answers `-1` for a value that is no integer, which is also what stands for
an absent field, and only the lower end of the range is checked.

* `ExecutorCall`, `DbQueryHandler.executorCall`: the call of the executor that a request
  leads to; `DbQueryHandler.handleRequest_eq` says that it gives the answer.
* `FieldHonoured`, `LimitsHonoured`: what the interface promises about the two fields.
* `WellFormedRequest`, `LimitRefused`, `LimitProper`: conditions on the request.
* `limitsHonoured_iff`: the promise is kept for the requests that are refused and for those
  whose limits are absent or in range, and for no others.
-/

namespace HttpDataDiod
namespace Worker

open ByteText JsonValue Sql Sql.DbQueryContract

/-! ## The call of the executor -/

/-- What `handle_request` calls of the executor, with the arguments. -/
inductive ExecutorCall where
  | executeQuery (sql : Bytes) (params : List (Bytes × JsonValue)) (timeoutMs maxRows : ℤ)
  | ping (timeoutMs : ℤ)

/-- The call for a request that has been parsed. -/
def DbQueryExecutor.callFor (e : DbQueryExecutor) (req : DbQueryRequest) : ExecutorCall :=
  if req.type = kTypePing then .ping req.timeoutMs
  else
    .executeQuery req.sql req.params
      (resolvePositiveOr req.timeoutMs e.config.queryTimeoutMs)
      (resolvePositiveOr req.maxRows e.config.maxRows)

/-- The executor that a request reaches, with its call. -/
def DbQueryHandler.executorCall (h : DbQueryHandler) (request : JsonValue) :
    Option (DbQueryExecutor × ExecutorCall) :=
  match parseDbQueryRequest request with
  | .error _ => none
  | .ok req => (h.select req.db).map fun e => (e, e.callFor req)

section Calls

variable (stod : Bytes → Option UInt64)

/-- The status and the body that a call gives. -/
def DbQueryExecutor.perform (e : DbQueryExecutor) : ExecutorCall → ℤ × JsonValue
  | .executeQuery sql params timeoutMs maxRows =>
    e.executeQuery stod sql params timeoutMs maxRows
  | .ping timeoutMs =>
    if e.ping timeoutMs then (200, makeDbPingResponse e.config.name e.latencyMs)
    else (503, makeDbErrorBody (ascii "DB_UNAVAILABLE") (ascii "Database ping failed"))

theorem DbQueryExecutor.perform_callFor (e : DbQueryExecutor) (req : DbQueryRequest) :
    e.perform stod (e.callFor req) = e.answer stod req := by
  unfold DbQueryExecutor.callFor DbQueryExecutor.answer
  split
  · rfl
  · rfl

/-- **A request that reaches an executor is answered by its call.** -/
theorem DbQueryHandler.handleRequest_of_executorCall {h : DbQueryHandler} {request : JsonValue}
    {e : DbQueryExecutor} {call : ExecutorCall} (hcall : h.executorCall request = some (e, call)) :
    h.handleRequest stod request = e.perform stod call := by
  unfold DbQueryHandler.executorCall at hcall
  unfold DbQueryHandler.handleRequest
  cases hparse : parseDbQueryRequest request with
  | error message =>
    rw [hparse] at hcall
    cases hcall
  | ok req =>
    rw [hparse] at hcall
    obtain ⟨e', hselect, heq⟩ := Option.map_eq_some_iff.mp hcall
    cases heq
    simp only [hselect, DbQueryExecutor.perform_callFor]

end Calls

/-! ## The fields -/

/-- The integer that a field holds. -/
def integerOf : Option JsonValue → Option ℤ
  | some (.int n) => some n
  | some (.uint n) => some n
  | _ => none

/-- The field is absent or null. -/
def IsUnset (field : Option JsonValue) : Prop := field = none ∨ field = some .null

/-- The field is absent or null, or an integer of the documented range. -/
def LimitProper (upper : ℤ) (field : Option JsonValue) : Prop :=
  IsUnset field ∨ ∃ n, integerOf field = some n ∧ 1 ≤ n ∧ n ≤ upper

/-- The field is an integer whose low 32 bits, read with a sign, are refused. -/
def LimitRefused (field : Option JsonValue) : Prop :=
  ∃ n, integerOf field = some n ∧ (n.bmod (2 ^ 32) < -1 ∨ n.bmod (2 ^ 32) = 0)

def kMaxTimeoutMs : ℤ := 300000
def kMaxMaxRows : ℤ := 100000

/-- The request passes every check but those of the limits. -/
def WellFormedRequest (request : JsonValue) : Prop :=
  request.isObject = true ∧
  (request.safeGetString kType [] = kTypeQuery ∧
      isReadOnlySql (request.safeGetString kSql []) = true ∨
    request.safeGetString kType [] = kTypePing) ∧
  (IsUnset (request.find kParams) ∨
    ∃ items, request.find kParams = some (.object items) ∧ ∀ item ∈ items, item.2.isScalar = true)

theorem safeGetInt_eq_integerOf (request : JsonValue) (key : Bytes) :
    request.safeGetInt key (-1) =
      ((integerOf (request.find key)).map fun n => n.bmod (2 ^ 32)).getD (-1) := by
  rw [safeGetInt]
  cases request.find key with
  | none => rfl
  | some value =>
    cases value with
    | int n => rw [integerOf, Option.map_some, Option.getD_some]
    | uint n => rw [integerOf, Option.map_some, Option.getD_some]
    | _ => rw [integerOf, Option.map_none, Option.getD_none] <;> simp

/-- **A limit is refused by its low 32 bits.** -/
theorem parseLimit_eq_error_iff (request : JsonValue) (key : Bytes) (message : String) :
    (∃ m, parseLimit request key message = .error m) ↔ LimitRefused (request.find key) := by
  unfold parseLimit LimitRefused
  rw [safeGetInt_eq_integerOf]
  cases integerOf (request.find key) with
  | none => simp
  | some n =>
    simp only [Option.map_some, Option.getD_some, Option.some.injEq, exists_eq_left']
    split
    · rename_i h
      simpa using h
    · rename_i h
      simpa using h

/-- A limit that is read: the low 32 bits of an integer, and `-1` for everything else. -/
theorem parseLimit_eq_ok_iff (request : JsonValue) (key : Bytes) (message : String) (n : ℤ) :
    parseLimit request key message = .ok n ↔
      ¬ LimitRefused (request.find key) ∧ n = request.safeGetInt key (-1) := by
  rw [← parseLimit_eq_error_iff request key message]
  unfold parseLimit
  simp only
  split
  · simp
  · simp [eq_comm]

theorem checkSql_eq_ok_iff (type sql : Bytes) :
    checkSql type sql = .ok () ↔ (type = kTypeQuery → isReadOnlySql sql = true) := by
  have hempty : isReadOnlySql [] = false := by decide
  unfold checkSql
  split
  · rename_i htype
    split
    · rename_i hnil
      simp [htype, hnil, hempty]
    · split
      · rename_i hgate
        simp [hgate]
      · rename_i hgate
        simp [htype, hgate]
  · rename_i htype
    simp [htype]

theorem parseParamItems_isOk_iff (acc items : List (Bytes × JsonValue)) :
    (∃ params, parseParamItems acc items = .ok params) ↔
      ∀ item ∈ items, item.2.isScalar = true := by
  induction items generalizing acc with
  | nil => simp [parseParamItems]
  | cons item items ih =>
    obtain ⟨name, value⟩ := item
    rw [parseParamItems]
    split
    · rename_i hscalar
      rw [ih]
      simp [hscalar]
    · rename_i hscalar
      simp [hscalar]

theorem parseParams_isOk_iff (request : JsonValue) :
    (∃ params, parseParams request = .ok params) ↔
      IsUnset (request.find kParams) ∨ ∃ items, request.find kParams = some (.object items) ∧
        ∀ item ∈ items, item.2.isScalar = true := by
  unfold parseParams IsUnset
  cases request.find kParams with
  | none => simp
  | some value =>
    cases value with
    | object items => simpa using parseParamItems_isOk_iff [] items
    | _ => simp

/-- **The requests that are accepted**, by conditions on the request. -/
theorem parseDbQueryRequest_isOk_iff (request : JsonValue) :
    (∃ req, parseDbQueryRequest request = .ok req) ↔
      WellFormedRequest request ∧ ¬ LimitRefused (request.find kTimeoutMs) ∧
        ¬ LimitRefused (request.find kMaxRows) := by
  have hquery : kTypePing ≠ kTypeQuery := by decide
  simp only [parseDbQueryRequest_eq_ok_iff, WellFormedRequest, checkSql_eq_ok_iff,
    parseLimit_eq_ok_iff, ← parseParams_isOk_iff]
  constructor
  · rintro ⟨req, hobject, htype, hsql, hparams, ⟨htimeout, -⟩, ⟨hrows, -⟩, -⟩
    refine ⟨⟨hobject, ?_, _, hparams⟩, htimeout, hrows⟩
    rcases htype with hq | hp
    · exact .inl ⟨hq, hsql hq⟩
    · exact .inr hp
  · rintro ⟨⟨hobject, htype, params, hparams⟩, htimeout, hrows⟩
    refine ⟨⟨_, _, _, _, params, _, _⟩, hobject, ?_, ?_, hparams, ⟨htimeout, rfl⟩, ⟨hrows, rfl⟩,
      rfl, rfl, rfl, rfl⟩
    · rcases htype with ⟨hq, -⟩ | hp
      · exact .inl hq
      · exact .inr hp
    · intro hq
      rcases htype with ⟨-, hgate⟩ | hp
      · exact hgate
      · exact absurd (hp.symm.trans hq) hquery

/-! ## The promise -/

section Promise

variable (stod : Bytes → Option UInt64) (h : DbQueryHandler) (request : JsonValue)

/-- The request is answered as a bad one and reaches no executor. -/
def AnsweredBadRequest : Prop :=
  (∃ message, h.handleRequest stod request =
    (400, makeDbErrorBody (ascii "BAD_REQUEST") message)) ∧ h.executorCall request = none

/-- **The promise about one field**: a query runs with the configured default when the
field is absent or null and with the integer of the field when this is in range, and
every other request is answered as a bad one.  `received` is the argument of
`execute_query` that the field is for. -/
def FieldHonoured (key : Bytes) (upper : ℤ) (default : DbConfig → ℤ) (received : ℤ → ℤ → ℤ) :
    Prop :=
  (IsUnset (request.find key) ∧ ∀ e sql params timeoutMs maxRows,
    h.executorCall request = some (e, .executeQuery sql params timeoutMs maxRows) →
      received timeoutMs maxRows = default e.config) ∨
  (∃ n, integerOf (request.find key) = some n ∧ 1 ≤ n ∧ n ≤ upper ∧
    ∀ e sql params timeoutMs maxRows,
      h.executorCall request = some (e, .executeQuery sql params timeoutMs maxRows) →
        received timeoutMs maxRows = n) ∨
  AnsweredBadRequest stod h request

/-- **The limits of a request are honoured.** -/
def LimitsHonoured : Prop :=
  FieldHonoured stod h request kTimeoutMs kMaxTimeoutMs DbConfig.queryTimeoutMs
    (fun timeoutMs _ => timeoutMs) ∧
  FieldHonoured stod h request kMaxRows kMaxMaxRows DbConfig.maxRows (fun _ maxRows => maxRows)

/-- What the field of an accepted request comes to: the integer of the range, or the
default. -/
theorem resolvePositiveOr_of_limitProper {request : JsonValue} {key : Bytes} {upper n fallback : ℤ}
    (hupper : upper < 2 ^ 31) (hn : n = request.safeGetInt key (-1)) :
    (IsUnset (request.find key) → resolvePositiveOr n fallback = fallback) ∧
    ∀ m, integerOf (request.find key) = some m → 1 ≤ m → m ≤ upper →
      resolvePositiveOr n fallback = m := by
  rw [safeGetInt_eq_integerOf] at hn
  constructor
  · rintro (hnone | hnull)
    · rw [hn, hnone]
      rfl
    · rw [hn, hnull]
      rfl
  · intro m hm hlow hhigh
    have hbmod : m.bmod (2 ^ 32) = m := Int.bmod_eq_of_le (by omega) (by omega)
    rw [hn, hm, Option.map_some, Option.getD_some, hbmod, resolvePositiveOr, if_pos (by omega)]

/-- The argument of `execute_query` is the field of the request that was parsed. -/
theorem executorCall_eq_executeQuery {h : DbQueryHandler} {request : JsonValue}
    {e : DbQueryExecutor} {sql : Bytes} {params : List (Bytes × JsonValue)} {timeoutMs maxRows : ℤ}
    (hcall : h.executorCall request = some (e, .executeQuery sql params timeoutMs maxRows)) :
    timeoutMs = resolvePositiveOr (request.safeGetInt kTimeoutMs (-1)) e.config.queryTimeoutMs ∧
    maxRows = resolvePositiveOr (request.safeGetInt kMaxRows (-1)) e.config.maxRows := by
  unfold DbQueryHandler.executorCall at hcall
  cases hparse : parseDbQueryRequest request with
  | error message =>
    rw [hparse] at hcall
    cases hcall
  | ok req =>
    rw [hparse] at hcall
    obtain ⟨-, -, -, -, htimeout, hrows, -⟩ := parseDbQueryRequest_eq_ok_iff.mp hparse
    rw [((parseLimit_eq_ok_iff _ _ _ _).mp htimeout).2.symm,
      ((parseLimit_eq_ok_iff _ _ _ _).mp hrows).2.symm]
    obtain ⟨e', -, heq⟩ := Option.map_eq_some_iff.mp hcall
    obtain ⟨rfl, hcallFor⟩ := Prod.mk.inj heq
    unfold DbQueryExecutor.callFor at hcallFor
    split at hcallFor
    · cases hcallFor
    · cases hcallFor
      exact ⟨rfl, rfl⟩

theorem answeredBadRequest_iff :
    AnsweredBadRequest stod h request ↔
      ∃ message, parseDbQueryRequest request = .error message := by
  unfold AnsweredBadRequest DbQueryHandler.executorCall DbQueryHandler.handleRequest
  cases parseDbQueryRequest request with
  | error message => exact ⟨fun _ => ⟨message, rfl⟩, fun _ => ⟨⟨_, rfl⟩, rfl⟩⟩
  | ok req =>
    refine ⟨fun hbad => ?_, fun hbad => ?_⟩
    · -- without an executor the answer is 404
      obtain ⟨⟨message, hanswer⟩, hcall⟩ := hbad
      have hselect := Option.map_eq_none_iff.mp hcall
      simp only [hselect] at hanswer
      exact absurd (Prod.mk.inj hanswer).1 (by decide)
    · obtain ⟨message, hmessage⟩ := hbad
      cases hmessage

/-- An accepted request keeps the promise about a field only when the field is proper. -/
theorem limitProper_of_fieldHonoured {key : Bytes} {upper : ℤ} {default : DbConfig → ℤ}
    {received : ℤ → ℤ → ℤ} (haccepted : ¬ AnsweredBadRequest stod h request)
    (hfield : FieldHonoured stod h request key upper default received) :
    LimitProper upper (request.find key) := by
  rcases hfield with ⟨hunset, -⟩ | ⟨n, hn, hlow, hhigh, -⟩ | hbad
  · exact .inl hunset
  · exact .inr ⟨n, hn, hlow, hhigh⟩
  · exact absurd hbad haccepted

/-- A query gets the limit of a proper field. -/
theorem fieldHonoured_of_limitProper {key : Bytes} {upper : ℤ} {default : DbConfig → ℤ}
    {received : ℤ → ℤ → ℤ} (hupper : upper < 2 ^ 31)
    (hreceived : ∀ e sql params timeoutMs maxRows,
      h.executorCall request = some (e, .executeQuery sql params timeoutMs maxRows) →
        received timeoutMs maxRows =
          resolvePositiveOr (request.safeGetInt key (-1)) (default e.config))
    (hproper : LimitProper upper (request.find key)) :
    FieldHonoured stod h request key upper default received := by
  rcases hproper with hunset | ⟨n, hn, hlow, hhigh⟩
  · refine .inl ⟨hunset, fun e sql params timeoutMs maxRows hcall => ?_⟩
    rw [hreceived e sql params timeoutMs maxRows hcall]
    exact (resolvePositiveOr_of_limitProper hupper rfl).1 hunset
  · refine .inr (.inl ⟨n, hn, hlow, hhigh, fun e sql params timeoutMs maxRows hcall => ?_⟩)
    rw [hreceived e sql params timeoutMs maxRows hcall]
    exact (resolvePositiveOr_of_limitProper hupper rfl).2 n hn hlow hhigh

/-- A request is refused for a reason other than its limits, or by a limit. -/
theorem answeredBadRequest_iff_refused :
    AnsweredBadRequest stod h request ↔
      ¬ WellFormedRequest request ∨ LimitRefused (request.find kTimeoutMs) ∨
        LimitRefused (request.find kMaxRows) := by
  have haccepted := parseDbQueryRequest_isOk_iff request
  rw [answeredBadRequest_iff]
  cases hparse : parseDbQueryRequest request with
  | error message =>
    rw [hparse] at haccepted
    have := mt haccepted.mpr (by simp)
    simp only [Except.error.injEq, exists_eq', true_iff]
    tauto
  | ok req =>
    rw [hparse] at haccepted
    have := haccepted.mp ⟨req, rfl⟩
    simp only [reduceCtorEq, exists_false, false_iff]
    tauto

/-- **The limits of a request are honoured exactly when** it is refused --- for a reason
other than its limits, or by the low 32 bits of a limit --- or both limits are absent,
null or in range. -/
theorem limitsHonoured_iff :
    LimitsHonoured stod h request ↔
      ¬ WellFormedRequest request ∨ LimitRefused (request.find kTimeoutMs) ∨
      LimitRefused (request.find kMaxRows) ∨
      (LimitProper kMaxTimeoutMs (request.find kTimeoutMs) ∧
        LimitProper kMaxMaxRows (request.find kMaxRows)) := by
  have hrefused := answeredBadRequest_iff_refused stod h request
  by_cases hbad : AnsweredBadRequest stod h request
  · refine iff_of_true ⟨.inr (.inr hbad), .inr (.inr hbad)⟩ ?_
    rcases hrefused.mp hbad with hform | hlimit | hlimit
    · exact .inl hform
    · exact .inr (.inl hlimit)
    · exact .inr (.inr (.inl hlimit))
  · have hnot := mt hrefused.mpr hbad
    constructor
    · rintro ⟨htimeout, hrows⟩
      exact .inr (.inr (.inr ⟨limitProper_of_fieldHonoured stod h request hbad htimeout,
        limitProper_of_fieldHonoured stod h request hbad hrows⟩))
    · intro hcondition
      obtain ⟨htimeout, hrows⟩ : LimitProper kMaxTimeoutMs (request.find kTimeoutMs) ∧
          LimitProper kMaxMaxRows (request.find kMaxRows) := by tauto
      constructor
      · refine fieldHonoured_of_limitProper stod h request (by decide) ?_ htimeout
        intro e sql params timeoutMs maxRows hcall
        exact (executorCall_eq_executeQuery hcall).1
      · refine fieldHonoured_of_limitProper stod h request (by decide) ?_ hrows
        intro e sql params timeoutMs maxRows hcall
        exact (executorCall_eq_executeQuery hcall).2

end Promise

/-- A query with a timeout of `2 ^ 32 + 1` milliseconds. -/
def wideTimeoutRequest : JsonValue :=
  .object [(kDb, .string (ascii "main")), (kSql, .string (ascii "select v from t")),
    (kTimeoutMs, .uint 4294967297), (kType, .string kTypeQuery)]

/-- The query runs with a timeout of one millisecond. -/
theorem wideTimeoutRequest_not_honoured :
    (∃ params, DbQueryHandler.executorCall ⟨[rawExecutor], List.nodup_singleton _⟩
        wideTimeoutRequest =
      some (rawExecutor, .executeQuery (ascii "select v from t") params 1 1000)) ∧
    ¬ LimitsHonoured (fun _ => none) ⟨[rawExecutor], List.nodup_singleton _⟩
      wideTimeoutRequest := by
  have hcall : DbQueryHandler.executorCall ⟨[rawExecutor], List.nodup_singleton _⟩
      wideTimeoutRequest =
        some (rawExecutor, .executeQuery (ascii "select v from t") [] 1 1000) := by rfl
  have hfield : integerOf (wideTimeoutRequest.find kTimeoutMs) = some 4294967297 := by rfl
  refine ⟨⟨[], hcall⟩, fun hhonoured => ?_⟩
  rcases hhonoured.1 with ⟨hnone | hnull, -⟩ | ⟨n, hn, -, hhigh, -⟩ | ⟨-, hnone⟩
  · exact absurd (congrArg integerOf hnone) (by rw [hfield]; decide)
  · exact absurd (congrArg integerOf hnull) (by rw [hfield]; decide)
  · rw [hfield] at hn
    obtain rfl := Option.some.inj hn
    exact absurd hhigh (by decide)
  · rw [hcall] at hnone
    cases hnone

end Worker
end HttpDataDiod
