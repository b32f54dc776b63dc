import HttpDataDiod.Sql.QueryResponse

/-!
# The Oracle executor

Model of `OracleQueryExecutor::execute_query`.  What ODPI-C delivers at each of its calls is
an argument: success or an error with its text, the description of the columns, and the
fetched rows.  A value is read from the member of `dpiData` that the column's native type
names; a type without a case of its own, `RAW` among them, is read as bytes and becomes a
string as it is.

* `nativeType`, `oracleValue`: the conversion of a column.
* `OracleDelivery.query`: the calls in their order, with the first error or the rows kept.
* `OracleDelivery.body`: the status and the body of a query.
* `OracleDelivery.texts`, `allUtf8_body_iff`: the texts that decide whether it can be written
  out.
-/

namespace HttpDataDiod
namespace Sql

open ByteText JsonValue

/-! ## Types and values -/

/-- `dpiOracleTypeNum`. -/
inductive OracleType where
  | varchar | nvarchar | char | nchar | rowid | urowid | raw | number
  | nativeInt | nativeUint | nativeFloat | nativeDouble | boolean
  | date | timestamp | timestampTz | timestampLtz | intervalDs | intervalYm
  | clob | nclob | blob | bfile | longVarchar | longNvarchar | longRaw | xmltype
  | other (num : ℕ)
  deriving DecidableEq

/-- `oracle_type_name`. -/
def oracleTypeName : OracleType → Bytes
  | .varchar => ascii "VARCHAR2"
  | .nvarchar => ascii "NVARCHAR2"
  | .char => ascii "CHAR"
  | .nchar => ascii "NCHAR"
  | .rowid => ascii "ROWID"
  | .urowid => ascii "UROWID"
  | .raw => ascii "RAW"
  | .number => ascii "NUMBER"
  | .nativeInt => ascii "INTEGER"
  | .nativeUint => ascii "UINTEGER"
  | .nativeFloat => ascii "FLOAT"
  | .nativeDouble => ascii "DOUBLE"
  | .boolean => ascii "BOOLEAN"
  | .date => ascii "DATE"
  | .timestamp => ascii "TIMESTAMP"
  | .timestampTz => ascii "TIMESTAMP WITH TIME ZONE"
  | .timestampLtz => ascii "TIMESTAMP WITH LOCAL TIME ZONE"
  | .intervalDs => ascii "INTERVAL DAY TO SECOND"
  | .intervalYm => ascii "INTERVAL YEAR TO MONTH"
  | .clob => ascii "CLOB"
  | .nclob => ascii "NCLOB"
  | .blob => ascii "BLOB"
  | .bfile => ascii "BFILE"
  | .longVarchar => ascii "LONG"
  | .longNvarchar => ascii "LONG"
  | .longRaw => ascii "LONG RAW"
  | .xmltype => ascii "XMLTYPE"
  | .other num => ascii "UNKNOWN(" ++ decimal num ++ ascii ")"

/-- `dpiNativeTypeNum`, as far as columns are defined with it. -/
inductive NativeType where
  | bytes | int64 | uint64 | double | timestamp | intervalDs | intervalYm | lob
  deriving DecidableEq

/-- The native type that a column is defined with. -/
def nativeType : OracleType → NativeType
  | .nativeFloat | .nativeDouble => .double
  | .nativeInt | .boolean => .int64
  | .nativeUint => .uint64
  | .date | .timestamp | .timestampTz | .timestampLtz => .timestamp
  | .intervalDs => .intervalDs
  | .intervalYm => .intervalYm
  | .clob | .nclob | .blob | .bfile => .lob
  | _ => .bytes

/-- `m_is_blob`. -/
def isBlob (type : OracleType) : Bool := type = .blob || type = .bfile

/-- `dpiTimestamp`. -/
structure DpiTimestamp where
  year : ℤ
  month : ℕ
  day : ℕ
  hour : ℕ
  minute : ℕ
  second : ℕ
  fsecond : ℕ
  tzHourOffset : ℤ
  tzMinuteOffset : ℤ

/-- `dpiIntervalDS`. -/
structure DpiIntervalDS where
  days : ℤ
  hours : ℤ
  minutes : ℤ
  seconds : ℤ
  fseconds : ℤ

/-- `dpiIntervalYM`. -/
structure DpiIntervalYM where
  years : ℤ
  months : ℤ

/-- `dpiData`: the null flag and what each member of the union reads as.  Of a LOB it is
what the reads give, which is nothing when one of them fails. -/
structure DpiData where
  isNull : Bool
  asBytes : Bytes
  asInt64 : ℤ
  asUint64 : ℕ
  asDouble : UInt64
  asTimestamp : DpiTimestamp
  asIntervalDS : DpiIntervalDS
  asIntervalYM : DpiIntervalYM
  asLOB : Bytes

/-- `format_timestamp`. -/
def formatTimestamp (t : DpiTimestamp) : Bytes :=
  zeroPadded 4 t.year ++ ascii "-" ++ zeroPadded 2 t.month ++ ascii "-" ++ zeroPadded 2 t.day ++
    ascii " " ++ zeroPadded 2 t.hour ++ ascii ":" ++ zeroPadded 2 t.minute ++ ascii ":" ++
    zeroPadded 2 t.second ++
    (if t.fsecond ≠ 0 then ascii "." ++ zeroPadded 9 t.fsecond else []) ++
    (if t.tzHourOffset ≠ 0 ∨ t.tzMinuteOffset ≠ 0 then
      ascii " " ++ (if t.tzHourOffset < 0 then ascii "-" else ascii "+") ++
        zeroPadded 2 t.tzHourOffset.natAbs ++ ascii ":" ++ zeroPadded 2 t.tzMinuteOffset.natAbs
     else [])

/-- `format_interval_ds`. -/
def formatIntervalDs (i : DpiIntervalDS) : Bytes :=
  decimalInt i.days ++ ascii " " ++ zeroPadded 2 i.hours ++ ascii ":" ++ zeroPadded 2 i.minutes ++
    ascii ":" ++ zeroPadded 2 i.seconds ++
    (if i.fseconds ≠ 0 then ascii "." ++ zeroPadded 9 i.fseconds else [])

/-- `format_interval_ym`. -/
def formatIntervalYm (i : DpiIntervalYM) : Bytes :=
  decimalInt i.years ++ ascii "-" ++ zeroPadded 2 i.months

/-- The value of a column. -/
def oracleValue (type : OracleType) (data : DpiData) : JsonValue :=
  if data.isNull then .null
  else
    match nativeType type with
    | .bytes => .string data.asBytes
    | .int64 => .int data.asInt64
    | .uint64 => .uint data.asUint64
    | .double => .float data.asDouble
    | .timestamp => .string (formatTimestamp data.asTimestamp)
    | .intervalDs => .string (formatIntervalDs data.asIntervalDS)
    | .intervalYm => .string (formatIntervalYm data.asIntervalYM)
    | .lob => if isBlob type then .string (toBase64 data.asLOB) else .string data.asLOB

/-- The text of a value that becomes a string as it came: the types read as bytes, and the
character LOBs. -/
def oracleText (type : OracleType) (data : DpiData) : Option Bytes :=
  if data.isNull then none
  else
    match nativeType type with
    | .bytes => some data.asBytes
    | .lob => if isBlob type then none else some data.asLOB
    | _ => none

/-! ## A query -/

/-- `dpiErrorInfo`. -/
structure DpiError where
  message : Bytes
  code : ℤ
  fnName : Bytes

/-- `describe_error`. -/
def describeError (e : DpiError) : Bytes :=
  e.message ++ ascii " [" ++ decimalInt e.code ++ ascii "] " ++ e.fnName

/-- What `dpiStmt_getQueryInfo` and `dpiStmt_defineValue` give for a column. -/
structure OracleColumn where
  info : Except DpiError (Bytes × OracleType)
  define : Except DpiError Unit

/-- What ODPI-C delivers for a query: whether the pool is there, the connection, the prepared
statement, the binding of a parameter by its name, the columns of the executed statement, and
the fetched rows with the values of their columns, up to the fetch that finds nothing. -/
structure OracleDelivery where
  ready : Bool
  connection : Except DpiError Unit
  prepare : Except DpiError Unit
  bind : Bytes → Except DpiError Unit
  execute : Except DpiError (List OracleColumn)
  fetches : List (Except DpiError (List (Except DpiError DpiData)))
  durationMs : ℕ

/-- A call of the driver; a failure ends the query with the driver's text behind `context`. -/
def orFail {α : Type} (context : Bytes) (result : Except DpiError α) : Except Bytes α :=
  match result with
  | .ok x => .ok x
  | .error e => .error (context ++ describeError e)

/-- The loop over the parameters; a colon in front of a name is left out. -/
def bindParams (d : OracleDelivery) : List (Bytes × JsonValue) → Except Bytes Unit
  | [] => .ok ()
  | (name, _) :: params => do
    let bindName := if name.head? = some 58 then name.drop 1 else name
    orFail (ascii "Failed to bind parameter '" ++ name ++ ascii "': ") (d.bind bindName)
    bindParams d params

/-- The loop that describes and defines the columns. -/
def planColumns : List OracleColumn → Except Bytes (List (Bytes × OracleType))
  | [] => .ok []
  | column :: columns => do
    let info ← orFail [] column.info
    orFail (ascii "Failed to define column '" ++ info.1 ++ ascii "': ") column.define
    let rest ← planColumns columns
    return info :: rest

/-- The values of a row. -/
def fetchRow : List (Except DpiError DpiData) → Except Bytes (List DpiData)
  | [] => .ok []
  | value :: values => do
    let data ← orFail [] value
    let rest ← fetchRow values
    return data :: rest

/-- The loop over the rows: the row that the collector turns away ends it. -/
def fetchRows : ℕ → List (Except DpiError (List (Except DpiError DpiData))) →
    Except Bytes (List (List DpiData) × Bool)
  | _, [] => .ok ([], false)
  | limit, fetched :: fetches => do
    let values ← orFail [] fetched
    let row ← fetchRow values
    match limit with
    | 0 => return ([], true)
    | limit + 1 =>
      let rest ← fetchRows limit fetches
      return (row :: rest.1, rest.2)

/-- The calls of a query behind the connection: the columns and the rows kept, or the text of
the first failure. -/
def OracleDelivery.query (d : OracleDelivery) (params : List (Bytes × JsonValue)) (maxRows : ℤ) :
    Except Bytes (List (Bytes × OracleType) × List (List DpiData) × Bool) := do
  orFail [] d.prepare
  bindParams d params
  let described ← orFail [] d.execute
  if described.isEmpty then .error (ascii "Statement returned no result set")
  else
    let columns ← planColumns described
    let rows ← fetchRows (rowLimit maxRows) d.fetches
    return (columns, rows)

/-- The values of a row by the types of its columns. -/
def oracleRow (columns : List (Bytes × OracleType)) (row : List DpiData) : List JsonValue :=
  List.zipWith (fun column data => oracleValue column.2 data) columns row

/-- `OracleQueryExecutor::execute_query`: the status and the body. -/
def OracleDelivery.body (dbName : Bytes) (params : List (Bytes × JsonValue)) (maxRows : ℤ)
    (d : OracleDelivery) : ℤ × JsonValue :=
  if !d.ready then makeDbUnavailable (ascii "database is still initializing")
  else
    match d.connection with
    | .error e => makeDbUnavailable (describeError e)
    | .ok () =>
      match d.query params maxRows with
      | .error message => makeDbSqlError message
      | .ok (columns, rows) =>
        (200, buildQueryResponse dbName
          (columns.map fun column => (column.1, oracleTypeName column.2))
          (rows.1.map (oracleRow columns), rows.2) d.durationMs)

/-- The texts of one row that stay. -/
def oracleRowTexts (columns : List (Bytes × OracleType)) (row : List DpiData) : List Bytes :=
  (columns.zip row).filterMap fun p => oracleText p.1.2 p.2

/-- **The delivered texts that go into the body**: an error text; or the names of the columns
and the values that become strings as they are, of the rows within the limit, with the name
of the database. -/
def OracleDelivery.texts (dbName : Bytes) (params : List (Bytes × JsonValue)) (maxRows : ℤ)
    (d : OracleDelivery) : List Bytes :=
  if !d.ready then []
  else
    match d.connection with
    | .error e => [describeError e]
    | .ok () =>
      match d.query params maxRows with
      | .error message => [message]
      | .ok (columns, rows) =>
        dbName :: (columns.map Prod.fst ++ rows.1.flatMap (oracleRowTexts columns))

/-! ## Which texts decide -/

theorem isValidUtf8_oracleTypeName (type : OracleType) :
    isValidUtf8 (oracleTypeName type) = true := by
  cases type with
  | other num =>
    exact isValidUtf8_append_of_valid
      (isValidUtf8_append_of_valid (by decide) (isValidUtf8_decimal num)) (by decide)
  | _ => decide

theorem isValidUtf8_zeroPadded (width : ℕ) (n : ℤ) : isValidUtf8 (zeroPadded width n) = true := by
  refine isValidUtf8_append_of_valid (isValidUtf8_append_of_valid ?_ ?_) (isValidUtf8_decimal _)
  · split <;> decide
  · refine isValidUtf8_of_forall_lt fun c hc => ?_
    rw [List.eq_of_mem_replicate hc]
    decide

theorem isValidUtf8_zeroPadded_append (width : ℕ) (n : ℤ) (t : Bytes) :
    isValidUtf8 (zeroPadded width n ++ t) = isValidUtf8 t :=
  isValidUtf8_append t (isValidUtf8_zeroPadded width n)

/-- A field of a date behind its separator. -/
theorem isValidUtf8_field (separator : Bytes) (width : ℕ) (n : ℤ) (t : Bytes)
    (hseparator : isValidUtf8 separator = true) :
    isValidUtf8 (separator ++ (zeroPadded width n ++ t)) = isValidUtf8 t := by
  rw [isValidUtf8_append _ hseparator, isValidUtf8_zeroPadded_append]

theorem isValidUtf8_fraction (n : ℤ) :
    isValidUtf8 (if n ≠ 0 then ascii "." ++ zeroPadded 9 n else []) = true := by
  split
  · exact isValidUtf8_append_of_valid (by decide) (isValidUtf8_zeroPadded _ _)
  · exact isValidUtf8_nil

theorem isValidUtf8_formatTimestamp (t : DpiTimestamp) :
    isValidUtf8 (formatTimestamp t) = true := by
  have hdash : isValidUtf8 (ascii "-") = true := by decide
  have hblank : isValidUtf8 (ascii " ") = true := by decide
  have hcolon : isValidUtf8 (ascii ":") = true := by decide
  have hsign : isValidUtf8 (if t.tzHourOffset < 0 then ascii "-" else ascii "+") = true := by
    split <;> decide
  have hfraction : isValidUtf8
      (if t.fsecond ≠ 0 then ascii "." ++ zeroPadded 9 t.fsecond else []) = true := by
    simpa using isValidUtf8_fraction t.fsecond
  simp only [formatTimestamp, List.append_assoc, isValidUtf8_zeroPadded_append]
  rw [isValidUtf8_field _ _ _ _ hdash, isValidUtf8_field _ _ _ _ hdash,
    isValidUtf8_field _ _ _ _ hblank, isValidUtf8_field _ _ _ _ hcolon,
    isValidUtf8_field _ _ _ _ hcolon, isValidUtf8_append _ hfraction]
  split
  · rw [isValidUtf8_append _ hblank, isValidUtf8_append _ hsign, isValidUtf8_zeroPadded_append,
      isValidUtf8_append _ hcolon, isValidUtf8_zeroPadded]
  · exact isValidUtf8_nil

theorem isValidUtf8_formatIntervalDs (i : DpiIntervalDS) :
    isValidUtf8 (formatIntervalDs i) = true := by
  have hblank : isValidUtf8 (ascii " ") = true := by decide
  have hcolon : isValidUtf8 (ascii ":") = true := by decide
  simp only [formatIntervalDs, List.append_assoc]
  rw [isValidUtf8_append _ (isValidUtf8_decimalInt _), isValidUtf8_field _ _ _ _ hblank,
    isValidUtf8_field _ _ _ _ hcolon, isValidUtf8_field _ _ _ _ hcolon, isValidUtf8_fraction]

theorem isValidUtf8_formatIntervalYm (i : DpiIntervalYM) :
    isValidUtf8 (formatIntervalYm i) = true :=
  isValidUtf8_append_of_valid
    (isValidUtf8_append_of_valid (isValidUtf8_decimalInt _) (by decide))
    (isValidUtf8_zeroPadded _ _)

/-- **A column value** can be written out unless its text stays and is malformed. -/
theorem allUtf8_oracleValue_iff (type : OracleType) (data : DpiData) :
    (oracleValue type data).allUtf8 = true ↔
      ∀ text, oracleText type data = some text → isValidUtf8 text = true := by
  unfold oracleValue oracleText
  split
  · simp [allUtf8]
  cases nativeType type with
  | bytes => simp
  | int64 => simp
  | uint64 => simp
  | double => simp [allUtf8]
  | timestamp => simp [isValidUtf8_formatTimestamp]
  | intervalDs => simp [isValidUtf8_formatIntervalDs]
  | intervalYm => simp [isValidUtf8_formatIntervalYm]
  | lob =>
    cases isBlob type with
    | true => simp [isValidUtf8_toBase64]
    | false => simp

theorem allUtf8_oracleRow_iff (columns : List (Bytes × OracleType)) (row : List DpiData) :
    (∀ v ∈ oracleRow columns row, v.allUtf8 = true) ↔
      ∀ text ∈ oracleRowTexts columns row, isValidUtf8 text = true := by
  unfold oracleRow oracleRowTexts
  induction columns generalizing row with
  | nil => simp
  | cons column columns ih =>
    cases row with
    | nil => simp
    | cons data row =>
      rw [List.zipWith_cons_cons, List.zip_cons_cons, List.forall_mem_cons, ih,
        List.filterMap_cons, allUtf8_oracleValue_iff]
      cases oracleText column.2 data with
      | none => simp
      | some text => simp

/-- **The body of a query** can be written out exactly when these texts are well formed. -/
theorem OracleDelivery.allUtf8_body_iff (dbName : Bytes) (params : List (Bytes × JsonValue))
    (maxRows : ℤ) (d : OracleDelivery) :
    (d.body dbName params maxRows).2.allUtf8 = true ↔
      ∀ text ∈ d.texts dbName params maxRows, isValidUtf8 text = true := by
  unfold OracleDelivery.body OracleDelivery.texts
  split
  · simp only [allUtf8_makeDbUnavailable_iff, List.not_mem_nil, false_implies, implies_true,
      iff_true]
    decide
  cases d.connection with
  | error e => simp [allUtf8_makeDbUnavailable_iff]
  | ok _ =>
    cases d.query params maxRows with
    | error message => simp [allUtf8_makeDbSqlError_iff]
    | ok result =>
      obtain ⟨columns, rows⟩ := result
      simp only
      rw [allUtf8_buildQueryResponse_iff]
      · simp only [List.forall_mem_cons, List.forall_mem_append, List.forall_mem_map,
          List.forall_mem_flatMap, allUtf8_oracleRow_iff]
      · rw [List.forall_mem_map]
        exact fun column _ => isValidUtf8_oracleTypeName column.2

end Sql
end HttpDataDiod
