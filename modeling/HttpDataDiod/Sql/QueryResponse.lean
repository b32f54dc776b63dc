import HttpDataDiod.Json.Dump
import HttpDataDiod.Lib.Decimal
import HttpDataDiod.Sql.DbQueryRequest

/-!
# The bodies of the database gateway

Model of the response builders of `db_query_utils.hpp`, which the executors, the handler and
the worker share.  A body is written out with `dump`, so what counts about it are the texts
that are put into it.

* `makeDbErrorBody`, `makeDbQueryResponse`, `makeDbPingResponse`, `makeDbResponseEnvelope`:
  the bodies.
* `collectRows`: `DbRowCollector` over the rows as they are fetched.
* `allUtf8_makeDbErrorBody_iff`, `allUtf8_makeDbQueryResponse_iff`: which texts decide
  whether a body can be written out.
-/

namespace HttpDataDiod
namespace Sql

open ByteText JsonValue

namespace DbResponseContract

def kStatus : Bytes := ascii "status"
def kStatusOk : Bytes := ascii "ok"
def kStatusError : Bytes := ascii "error"
def kDb : Bytes := ascii "db"
def kLatencyMs : Bytes := ascii "latency_ms"
def kColumns : Bytes := ascii "columns"
def kName : Bytes := ascii "name"
def kType : Bytes := ascii "type"
def kRows : Bytes := ascii "rows"
def kRowCount : Bytes := ascii "row_count"
def kTruncated : Bytes := ascii "truncated"
def kDurationMs : Bytes := ascii "duration_ms"
def kError : Bytes := ascii "error"
def kCode : Bytes := ascii "code"
def kMessage : Bytes := ascii "message"
def kBody : Bytes := ascii "body"

end DbResponseContract

open DbResponseContract

/-! ## The bodies -/

/-- `make_db_error_body`. -/
def makeDbErrorBody (code message : Bytes) : JsonValue :=
  objectOf [(kStatus, .string kStatusError),
    (kError, objectOf [(kCode, .string code), (kMessage, .string message)])]

/-- `make_db_unavailable`: the status and the body. -/
def makeDbUnavailable (detail : Bytes) : ℤ × JsonValue :=
  (503, makeDbErrorBody (ascii "DB_UNAVAILABLE")
    (if detail.isEmpty then ascii "Failed to acquire a database connection"
     else ascii "Failed to acquire a database connection: " ++ detail))

/-- `make_db_sql_error`. -/
def makeDbSqlError (message : Bytes) : ℤ × JsonValue :=
  (422, makeDbErrorBody (ascii "SQL_ERROR") message)

/-- `make_db_columns_json`. -/
def makeDbColumnsJson (nameType : List (Bytes × Bytes)) : JsonValue :=
  .array (nameType.map fun c =>
    objectOf [(kName, .string c.1), (DbResponseContract.kType, .string c.2)])

/-- `make_db_query_response`. -/
def makeDbQueryResponse (db : Bytes) (columns rows : JsonValue) (rowCount : ℕ) (truncated : Bool)
    (durationMs : ℕ) : JsonValue :=
  objectOf [(kStatus, .string kStatusOk), (DbResponseContract.kDb, .string db),
    (kColumns, columns), (kRows, rows), (kRowCount, .uint rowCount),
    (kTruncated, .bool truncated), (kDurationMs, .uint durationMs)]

/-- `make_db_ping_response`. -/
def makeDbPingResponse (db : Bytes) (latencyMs : ℕ) : JsonValue :=
  objectOf [(kStatus, .string kStatusOk), (DbResponseContract.kDb, .string db),
    (kLatencyMs, .uint latencyMs)]

/-- `make_db_response_envelope`. -/
def makeDbResponseEnvelope (status : ℤ) (body : JsonValue) : JsonValue :=
  objectOf [(kStatus, .int status), (kBody, body)]

/-- `resolve_positive_or`. -/
def resolvePositiveOr (value fallback : ℤ) : ℤ := if 0 < value then value else fallback

/-- `static_cast<size_t>(max_rows)`. -/
def rowLimit (maxRows : ℤ) : ℕ := (maxRows % 2 ^ 64).toNat

/-- The rows that a `DbRowCollector` keeps, and whether it turned one away. -/
def collectRows {α : Type} (maxRows : ℤ) (rows : List α) : List α × Bool :=
  (rows.take (rowLimit maxRows), decide (rowLimit maxRows < rows.length))

/-- `build_query_response`. -/
def buildQueryResponse (db : Bytes) (nameType : List (Bytes × Bytes))
    (rows : List (List JsonValue) × Bool) (durationMs : ℕ) : JsonValue :=
  makeDbQueryResponse db (makeDbColumnsJson nameType) (.array (rows.1.map .array)) rows.1.length
    rows.2 durationMs

/-! ## Which texts decide -/

/-- An object with well-formed keys, all different: its values decide. -/
theorem allUtf8_objectOf_of_keys (keys : List Bytes) {pairs : List (Bytes × JsonValue)}
    (hkeys : pairs.map Prod.fst = keys) (hnodup : keys.Nodup)
    (hvalid : ∀ key ∈ keys, isValidUtf8 key = true) :
    (objectOf pairs).allUtf8 = true ↔ ∀ v ∈ pairs.map Prod.snd, v.allUtf8 = true := by
  rw [allUtf8_objectOf_iff (by rw [hkeys]; exact hnodup), List.forall_mem_map]
  refine forall₂_congr fun p hp => ?_
  have hkey : isValidUtf8 p.1 = true := hvalid p.1 (hkeys ▸ List.mem_map_of_mem hp)
  rw [EntryUtf8, hkey]
  simp

theorem allUtf8_makeDbErrorBody_iff {code message : Bytes} (hcode : isValidUtf8 code = true) :
    (makeDbErrorBody code message).allUtf8 = true ↔ isValidUtf8 message = true := by
  have hstatus : (string kStatusError).allUtf8 = true := by decide
  have herror : (objectOf [(kCode, .string code), (kMessage, .string message)]).allUtf8 = true ↔
      isValidUtf8 message = true := by
    rw [allUtf8_objectOf_of_keys [kCode, kMessage] rfl (by decide) (by decide)]
    simp [hcode]
  rw [makeDbErrorBody, allUtf8_objectOf_of_keys [kStatus, kError] rfl (by decide) (by decide)]
  simp [hstatus, herror]

theorem allUtf8_makeDbUnavailable_iff (detail : Bytes) :
    (makeDbUnavailable detail).2.allUtf8 = true ↔ isValidUtf8 detail = true := by
  rw [makeDbUnavailable, allUtf8_makeDbErrorBody_iff (by decide)]
  cases detail with
  | nil => decide
  | cons c detail => rw [List.isEmpty_cons, if_neg (by decide), isValidUtf8_append _ (by decide)]

theorem allUtf8_makeDbSqlError_iff (message : Bytes) :
    (makeDbSqlError message).2.allUtf8 = true ↔ isValidUtf8 message = true :=
  allUtf8_makeDbErrorBody_iff (by decide)

theorem allUtf8_makeDbColumnsJson_iff {nameType : List (Bytes × Bytes)}
    (htypes : ∀ c ∈ nameType, isValidUtf8 c.2 = true) :
    (makeDbColumnsJson nameType).allUtf8 = true ↔
      ∀ c ∈ nameType, isValidUtf8 c.1 = true := by
  rw [makeDbColumnsJson, allUtf8, allUtf8Elems_iff, List.forall_mem_map]
  refine forall₂_congr fun c hc => ?_
  rw [allUtf8_objectOf_of_keys [kName, DbResponseContract.kType] rfl (by decide) (by decide)]
  simp [htypes c hc]

theorem allUtf8_makeDbPingResponse_iff (db : Bytes) (latencyMs : ℕ) :
    (makeDbPingResponse db latencyMs).allUtf8 = true ↔ isValidUtf8 db = true := by
  have hstatus : (string kStatusOk).allUtf8 = true := by decide
  rw [makeDbPingResponse, allUtf8_objectOf_of_keys
    [kStatus, DbResponseContract.kDb, kLatencyMs] rfl (by decide) (by decide)]
  simp [hstatus]

/-- **A query response** can be written out exactly when the name of the database, the names
of the columns and the values of the rows kept can. -/
theorem allUtf8_buildQueryResponse_iff {db : Bytes} {nameType : List (Bytes × Bytes)}
    (htypes : ∀ c ∈ nameType, isValidUtf8 c.2 = true) (rows : List (List JsonValue) × Bool)
    (durationMs : ℕ) :
    (buildQueryResponse db nameType rows durationMs).allUtf8 = true ↔
      isValidUtf8 db = true ∧ (∀ c ∈ nameType, isValidUtf8 c.1 = true) ∧
        ∀ row ∈ rows.1, ∀ v ∈ row, v.allUtf8 = true := by
  have hstatus : (string kStatusOk).allUtf8 = true := by decide
  have hrows : (JsonValue.array (rows.1.map .array)).allUtf8 = true ↔
      ∀ row ∈ rows.1, ∀ v ∈ row, v.allUtf8 = true := by
    rw [allUtf8, allUtf8Elems_iff, List.forall_mem_map]
    refine forall₂_congr fun row _ => ?_
    rw [allUtf8, allUtf8Elems_iff]
  rw [buildQueryResponse, makeDbQueryResponse, allUtf8_objectOf_of_keys
    [kStatus, DbResponseContract.kDb, kColumns, kRows, kRowCount, kTruncated, kDurationMs] rfl
    (by decide) (by decide), ← allUtf8_makeDbColumnsJson_iff htypes, ← hrows]
  simp [hstatus]

theorem allUtf8_makeDbResponseEnvelope_iff (status : ℤ) (body : JsonValue) :
    (makeDbResponseEnvelope status body).allUtf8 = true ↔ body.allUtf8 = true := by
  rw [makeDbResponseEnvelope, allUtf8_objectOf_of_keys [kStatus, kBody] rfl (by decide) (by decide)]
  simp

end Sql
end HttpDataDiod
