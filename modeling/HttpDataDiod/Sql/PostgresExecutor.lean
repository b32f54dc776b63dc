import HttpDataDiod.Lib.Base64
import HttpDataDiod.Sql.QueryResponse

/-!
# The PostgreSQL executor

Model of `pg_value_utils.hpp` and of `PostgresQueryExecutor::execute_query`.  What libpq
delivers (whether a connection is to be had, its error texts, and the result with the names,
the type numbers and the values of its columns as text) is an argument, and any bytes: it
depends on the encoding of the database, and on what is stored there.

* `pgValue`: the value of a column by its type; `keepsText` tells where the text stays.
* `PgDelivery.body`: the status and the body of a query.
* `PgDelivery.texts`, `allUtf8_body_iff`: the delivered texts that decide whether the body
  can be written out.
-/

namespace HttpDataDiod
namespace Sql

open ByteText JsonValue

namespace PgValueUtils

def kPgBoolOid : ℕ := 16
def kPgByteaOid : ℕ := 17
def kPgCharOid : ℕ := 18
def kPgNameOid : ℕ := 19
def kPgInt8Oid : ℕ := 20
def kPgInt2Oid : ℕ := 21
def kPgInt4Oid : ℕ := 23
def kPgTextOid : ℕ := 25
def kPgOidOid : ℕ := 26
def kPgJsonOid : ℕ := 114
def kPgFloat4Oid : ℕ := 700
def kPgFloat8Oid : ℕ := 701
def kPgBpcharOid : ℕ := 1042
def kPgVarcharOid : ℕ := 1043
def kPgDateOid : ℕ := 1082
def kPgTimeOid : ℕ := 1083
def kPgTimestampOid : ℕ := 1114
def kPgTimestamptzOid : ℕ := 1184
def kPgTimetzOid : ℕ := 1266
def kPgNumericOid : ℕ := 1700
def kPgUuidOid : ℕ := 2950
def kPgJsonbOid : ℕ := 3802

/-- The names of the types that have one. -/
def typeNames : List (ℕ × Bytes) :=
  [(kPgBoolOid, ascii "BOOLEAN"), (kPgByteaOid, ascii "BYTEA"), (kPgCharOid, ascii "CHAR"),
   (kPgNameOid, ascii "NAME"), (kPgInt2Oid, ascii "SMALLINT"), (kPgInt4Oid, ascii "INTEGER"),
   (kPgInt8Oid, ascii "BIGINT"), (kPgTextOid, ascii "TEXT"), (kPgOidOid, ascii "OID"),
   (kPgFloat4Oid, ascii "REAL"), (kPgFloat8Oid, ascii "DOUBLE PRECISION"),
   (kPgBpcharOid, ascii "BPCHAR"), (kPgVarcharOid, ascii "VARCHAR"), (kPgDateOid, ascii "DATE"),
   (kPgTimeOid, ascii "TIME"), (kPgTimestampOid, ascii "TIMESTAMP"),
   (kPgTimestamptzOid, ascii "TIMESTAMPTZ"), (kPgTimetzOid, ascii "TIMETZ"),
   (kPgNumericOid, ascii "NUMERIC"), (kPgJsonOid, ascii "JSON"), (kPgJsonbOid, ascii "JSONB"),
   (kPgUuidOid, ascii "UUID")]

/-- `pg_type_name`. -/
def pgTypeName (oid : ℕ) : Bytes :=
  match typeNames.lookup oid with
  | some name => name
  | none => ascii "UNKNOWN(" ++ decimal oid ++ ascii ")"

/-- `nibble`. -/
def nibble (c : UInt8) : ℕ :=
  if 48 ≤ c && c ≤ 57 then c.toNat - 48
  else if 97 ≤ c && c ≤ 102 then c.toNat - 87
  else if 65 ≤ c && c ≤ 70 then c.toNat - 55
  else 0

/-- The loop of `hex_to_bytes`: two digits at a time, an odd one at the end is left out. -/
def hexPairs : Bytes → Bytes
  | hi :: lo :: rest => UInt8.ofNat (16 * nibble hi + nibble lo) :: hexPairs rest
  | _ => []

/-- `hex_to_bytes`. -/
def hexToBytes : Bytes → Bytes
  | 92 :: 120 :: digits => hexPairs digits
  | digits => hexPairs digits

/-- The range of a 64-bit `long long`. -/
def InInt64 (n : ℤ) : Prop := -2 ^ 63 ≤ n ∧ n < 2 ^ 63

instance (n : ℤ) : Decidable (InInt64 n) :=
  inferInstanceAs (Decidable (-2 ^ 63 ≤ n ∧ n < 2 ^ 63))

/-- `stoll` after the sign. -/
def stollMagnitude (negative : Bool) (s : Bytes) : Option ℤ :=
  let digits := s.takeWhile isDigit
  if digits = [] then none
  else
    let n : ℤ := if negative then -(natOfDigits digits : ℤ) else natOfDigits digits
    if InInt64 n then some n else none

/-- `std::stoll`; `none` stands for the exception. -/
def stoll (s : Bytes) : Option ℤ :=
  match s.dropWhile isSpace with
  | 45 :: t => stollMagnitude true t
  | 43 :: t => stollMagnitude false t
  | t => stollMagnitude false t

/-- The types whose text is read as an integer. -/
def isIntOid (oid : ℕ) : Bool :=
  oid = kPgInt2Oid || oid = kPgInt4Oid || oid = kPgInt8Oid || oid = kPgOidOid

/-- The types whose text is read as a floating-point number. -/
def isFloatOid (oid : ℕ) : Bool :=
  oid = kPgFloat4Oid || oid = kPgFloat8Oid || oid = kPgNumericOid

/-- `pg_value`.  `stod` is `std::stod`, which gives the bits of a double or throws. -/
def pgValue (stod : Bytes → Option UInt64) (oid : ℕ) (text : Bytes) : JsonValue :=
  if oid = kPgBoolOid then .bool (text.head? = some 116)
  else if isIntOid oid then
    match stoll text with
    | some n => .int n
    | none => .string text
  else if isFloatOid oid then
    match stod text with
    | some bits => .float bits
    | none => .string text
  else if oid = kPgByteaOid then .string (toBase64 (hexToBytes text))
  else .string text

/-- The types and texts for which `pg_value` keeps the text as it came: the ones it does not
convert, and the numbers that do not read as one. -/
def keepsText (stod : Bytes → Option UInt64) (oid : ℕ) (text : Bytes) : Bool :=
  if oid = kPgBoolOid then false
  else if isIntOid oid then (stoll text).isNone
  else if isFloatOid oid then (stod text).isNone
  else oid ≠ kPgByteaOid

theorem isValidUtf8_pgTypeName (oid : ℕ) : isValidUtf8 (pgTypeName oid) = true := by
  have hnames : ∀ p ∈ typeNames, isValidUtf8 p.2 = true := by decide +kernel
  unfold pgTypeName
  split
  · rename_i name hlookup
    have hmem : (oid, name) ∈ typeNames := by
      obtain ⟨l₁, l₂, heq, -⟩ := List.lookup_eq_some_iff.mp hlookup
      rw [heq]
      simp
    exact hnames _ hmem
  · exact isValidUtf8_append_of_valid
      (isValidUtf8_append_of_valid (by decide) (isValidUtf8_decimal oid)) (by decide)

/-- **A column value** can be written out unless its text stays and is malformed. -/
theorem allUtf8_pgValue_iff (stod : Bytes → Option UInt64) (oid : ℕ) (text : Bytes) :
    (pgValue stod oid text).allUtf8 = true ↔
      (keepsText stod oid text = true → isValidUtf8 text = true) := by
  unfold pgValue keepsText
  split
  · simp
  split
  · cases stoll text <;> simp
  split
  · cases stod text with
    | none => simp
    | some bits => simp [allUtf8]
  split
  · rename_i hbytea
    simp [hbytea, isValidUtf8_toBase64]
  · rename_i hother
    simp [hother]

end PgValueUtils

open PgValueUtils

/-! ## A query -/

/-- `PQfname` and `PQftype` of the columns, and the values of the tuples, a null being
`none`. -/
structure PgResult where
  columns : List (Bytes × ℕ)
  tuples : List (List (Option Bytes))

/-- What libpq delivers for a query: whether there is a connection, the error text of the
statement that sets the timeout (empty when it succeeds), and the result or its error
text. -/
structure PgDelivery where
  connected : Bool
  timeoutError : Bytes
  result : Except Bytes PgResult
  durationMs : ℕ

/-- `trim_copy`. -/
def trimCopy (text : Bytes) : Bytes :=
  (text.reverse.dropWhile fun c => c = 13 || c = 10 || c = 32).reverse

/-- The values of one tuple. -/
def pgRow (stod : Bytes → Option UInt64) (columns : List (Bytes × ℕ))
    (tuple : List (Option Bytes)) : List JsonValue :=
  List.zipWith (fun column value =>
    match value with
    | none => .null
    | some text => pgValue stod column.2 text) columns tuple

/-- `PostgresQueryExecutor::execute_query`: the status and the body. -/
def PgDelivery.body (stod : Bytes → Option UInt64) (dbName : Bytes) (maxRows : ℤ)
    (d : PgDelivery) : ℤ × JsonValue :=
  if !d.connected then makeDbUnavailable []
  else if !(trimCopy d.timeoutError).isEmpty then
    makeDbSqlError (ascii "Failed to set statement timeout: " ++ trimCopy d.timeoutError)
  else
    match d.result with
    | .error message => makeDbSqlError (trimCopy message)
    | .ok result =>
      if result.columns.isEmpty then makeDbSqlError (ascii "Statement returned no result set")
      else
        (200, buildQueryResponse dbName
          (result.columns.map fun column => (column.1, pgTypeName column.2))
          (collectRows maxRows (result.tuples.map (pgRow stod result.columns))) d.durationMs)

/-- The texts of one tuple that stay. -/
def pgRowTexts (stod : Bytes → Option UInt64) (columns : List (Bytes × ℕ))
    (tuple : List (Option Bytes)) : List Bytes :=
  (columns.zip tuple).filterMap fun p => p.2.filter (keepsText stod p.1.2)

/-- **The delivered texts that go into the body**: an error text; or the names of the columns
and the values that stay texts, of the rows within the limit, with the name of the
database. -/
def PgDelivery.texts (stod : Bytes → Option UInt64) (dbName : Bytes) (maxRows : ℤ)
    (d : PgDelivery) : List Bytes :=
  if !d.connected then []
  else if !(trimCopy d.timeoutError).isEmpty then [trimCopy d.timeoutError]
  else
    match d.result with
    | .error message => [trimCopy message]
    | .ok result =>
      if result.columns.isEmpty then []
      else
        dbName :: (result.columns.map Prod.fst ++
          (collectRows maxRows result.tuples).1.flatMap (pgRowTexts stod result.columns))

theorem allUtf8_pgRow_iff (stod : Bytes → Option UInt64) (columns : List (Bytes × ℕ))
    (tuple : List (Option Bytes)) :
    (∀ v ∈ pgRow stod columns tuple, v.allUtf8 = true) ↔
      ∀ text ∈ pgRowTexts stod columns tuple, isValidUtf8 text = true := by
  unfold pgRow pgRowTexts
  induction columns generalizing tuple with
  | nil => simp
  | cons column columns ih =>
    cases tuple with
    | nil => simp
    | cons value tuple =>
      rw [List.zipWith_cons_cons, List.zip_cons_cons, List.forall_mem_cons, ih,
        List.filterMap_cons]
      cases value with
      | none => simp [allUtf8]
      | some text =>
        simp only [allUtf8_pgValue_iff]
        by_cases hkeeps : keepsText stod column.2 text = true
        · simp [hkeeps, Option.filter]
        · simp [hkeeps, Option.filter]

/-- **The body of a query** can be written out exactly when these texts are well formed. -/
theorem PgDelivery.allUtf8_body_iff (stod : Bytes → Option UInt64) (dbName : Bytes) (maxRows : ℤ)
    (d : PgDelivery) :
    (d.body stod dbName maxRows).2.allUtf8 = true ↔
      ∀ text ∈ d.texts stod dbName maxRows, isValidUtf8 text = true := by
  unfold PgDelivery.body PgDelivery.texts
  split
  · simp [allUtf8_makeDbUnavailable_iff, isValidUtf8_nil]
  split
  · rw [allUtf8_makeDbSqlError_iff, isValidUtf8_append _ (by decide)]
    simp
  cases d.result with
  | error message => simp [allUtf8_makeDbSqlError_iff]
  | ok result =>
    simp only
    split
    · simp only [allUtf8_makeDbSqlError_iff, List.not_mem_nil, false_implies, implies_true,
        iff_true]
      decide
    · rw [allUtf8_buildQueryResponse_iff]
      · simp only [List.forall_mem_cons, List.forall_mem_append, List.forall_mem_map,
          List.forall_mem_flatMap, collectRows, ← List.map_take, allUtf8_pgRow_iff]
      · rw [List.forall_mem_map]
        exact fun column _ => isValidUtf8_pgTypeName column.2

end Sql
end HttpDataDiod
