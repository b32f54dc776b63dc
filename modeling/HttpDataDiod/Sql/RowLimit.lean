import HttpDataDiod.Sql.OracleExecutor
import HttpDataDiod.Sql.PostgresExecutor

/-!
# The row limit

Both executors hand their rows to a `DbRowCollector`, which turns the first row beyond the
limit away and notes that it did.  The PostgreSQL executor walks over the tuples of the
result by their indices, the Oracle executor fetches from a cursor until nothing is found;
each leaves its loop when a row is turned away.  `Sql.PostgresExecutor` and
`Sql.OracleExecutor` say what the loops come to; here they are written out and shown to
come to that.

* `DbRowCollector.tryAdd`, `DbRowCollector.offer`, `offer_new`: the collector.
* `pgLoop`, `PgDelivery.executeQuery`: the loop over the indices.
* `oracleLoop`, `OracleDelivery.executeQuery`: the loop over the cursor.
* `LimitedTo`: the answer with the first rows within the limit.
* `executeQuery_limitedTo`: what both executors answer when every call succeeds.
-/

namespace HttpDataDiod
namespace Sql

open ByteText JsonValue DbResponseContract PgValueUtils

/-! ## The collector -/

/-- `DbRowCollector`. -/
structure DbRowCollector where
  maxRows : ℕ
  rows : List (List JsonValue)
  truncated : Bool

namespace DbRowCollector

/-- The collector before the first row. -/
def new (maxRows : ℕ) : DbRowCollector := ⟨maxRows, [], false⟩

/-- `try_add`: the collector, and whether it took the row. -/
def tryAdd (c : DbRowCollector) (row : List JsonValue) : DbRowCollector × Bool :=
  if c.rows.length ≥ c.maxRows then ({ c with truncated := true }, false)
  else ({ c with rows := c.rows ++ [row] }, true)

/-- The rows offered one after the other, up to the one that is turned away. -/
def offer (c : DbRowCollector) : List (List JsonValue) → DbRowCollector
  | [] => c
  | row :: rows =>
    match c.tryAdd row with
    | (c', true) => c'.offer rows
    | (c', false) => c'

/-- **What a collector keeps**: the rows up to the limit, and the note when there was one
more. -/
theorem offer_eq (c : DbRowCollector) (rows : List (List JsonValue))
    (hc : c.rows.length ≤ c.maxRows) :
    c.offer rows =
      { maxRows := c.maxRows
        rows := c.rows ++ rows.take (c.maxRows - c.rows.length)
        truncated := c.truncated || decide (c.maxRows - c.rows.length < rows.length) } := by
  induction rows generalizing c with
  | nil => simp [offer]
  | cons row rows ih =>
    rw [offer, tryAdd]
    by_cases hfull : c.rows.length ≥ c.maxRows
    · have hzero : c.maxRows - c.rows.length = 0 := by omega
      simp [if_pos hfull, hzero]
    · obtain ⟨left, hleft⟩ : ∃ left, c.maxRows - c.rows.length = left + 1 :=
        ⟨c.maxRows - c.rows.length - 1, by omega⟩
      have hnext : c.maxRows - (c.rows ++ [row]).length = left := by
        rw [List.length_append, List.length_singleton]
        omega
      simp only [if_neg hfull]
      rw [ih _ (by simp only [List.length_append, List.length_singleton]; omega)]
      simp only [hnext, hleft, List.take_succ_cons, List.append_assoc, List.singleton_append,
        List.length_cons, Nat.add_lt_add_iff_right]

theorem offer_new (maxRows : ℕ) (rows : List (List JsonValue)) :
    (new maxRows).offer rows = ⟨maxRows, rows.take maxRows, decide (maxRows < rows.length)⟩ := by
  exact offer_eq _ _ (Nat.zero_le _)

end DbRowCollector

/-- `build_query_response` of a collector. -/
def respond (db : Bytes) (nameType : List (Bytes × Bytes)) (rows : DbRowCollector)
    (durationMs : ℕ) : JsonValue :=
  makeDbQueryResponse db (makeDbColumnsJson nameType) (.array (rows.rows.map .array))
    rows.rows.length rows.truncated durationMs

/-! ## The loop over the tuples -/

section Postgres

variable (stod : Bytes → Option UInt64) (result : PgResult)

/-- The value in a row and a column: `PQgetisnull`, `PQftype` and `PQgetvalue`. -/
def pgCell (r c : ℕ) : JsonValue :=
  match (result.tuples.getD r []).getD c none with
  | none => .null
  | some text => pgValue stod (result.columns.getD c ([], 0)).2 text

/-- The loop over the columns, with so many left, that builds a row. -/
def pgRowLoop (r : ℕ) : ℕ → ℕ → List JsonValue → List JsonValue
  | 0, _, row => row
  | left + 1, c, row => pgRowLoop r left (c + 1) (row ++ [pgCell stod result r c])

/-- The loop over the rows, with so many left. -/
def pgLoop : ℕ → ℕ → DbRowCollector → DbRowCollector
  | 0, _, rows => rows
  | left + 1, r, rows =>
    match rows.tryAdd (pgRowLoop stod result r result.columns.length 0 []) with
    | (rows', true) => pgLoop left (r + 1) rows'
    | (rows', false) => rows'

/-- The values of a row, by their indices. -/
def pgCells (r : ℕ) : List JsonValue :=
  (List.range result.columns.length).map (pgCell stod result r)

theorem pgRowLoop_eq (r left c : ℕ) (row : List JsonValue) :
    pgRowLoop stod result r left c row =
      row ++ (List.range' c left).map (pgCell stod result r) := by
  induction left generalizing c row with
  | zero => simp [pgRowLoop]
  | succ left ih => rw [pgRowLoop, ih, List.range'_succ, List.map_cons, List.append_assoc,
      List.singleton_append]

theorem pgLoop_eq_offer (left r : ℕ) (rows : DbRowCollector) :
    pgLoop stod result left r rows =
      rows.offer ((List.range' r left).map (pgCells stod result)) := by
  induction left generalizing r rows with
  | zero => rfl
  | succ left ih =>
    have hrow : pgRowLoop stod result r result.columns.length 0 [] = pgCells stod result r := by
      rw [pgRowLoop_eq, List.nil_append, pgCells, List.range_eq_range']
    rw [pgLoop, hrow, List.range'_succ, List.map_cons, DbRowCollector.offer]
    cases rows.tryAdd (pgCells stod result r) with
    | mk rows' added =>
      cases added with
      | true => exact ih (r + 1) rows'
      | false => rfl

end Postgres

/-- `PostgresQueryExecutor::execute_query`, with its loops. -/
def PgDelivery.executeQuery (stod : Bytes → Option UInt64) (dbName : Bytes) (maxRows : ℤ)
    (d : PgDelivery) : ℤ × JsonValue :=
  if !d.connected then makeDbUnavailable []
  else if !(trimCopy d.timeoutError).isEmpty then
    makeDbSqlError (ascii "Failed to set statement timeout: " ++ trimCopy d.timeoutError)
  else
    match d.result with
    | .error message => makeDbSqlError (trimCopy message)
    | .ok result =>
      if result.columns.isEmpty then makeDbSqlError (ascii "Statement returned no result set")
      else
        (200, respond dbName (result.columns.map fun column => (column.1, pgTypeName column.2))
          (pgLoop stod result result.tuples.length 0 (.new (rowLimit maxRows))) d.durationMs)

/-! ## The loop over the cursor -/

/-- The loop over the fetches: one that finds nothing ends it, and so does a row that is
turned away. -/
def oracleLoop (columns : List (Bytes × OracleType)) : DbRowCollector →
    List (Except DpiError (List (Except DpiError DpiData))) → Except Bytes DbRowCollector
  | rows, [] => .ok rows
  | rows, fetched :: fetches => do
    let values ← orFail [] fetched
    let row ← fetchRow values
    match rows.tryAdd (oracleRow columns row) with
    | (rows', true) => oracleLoop columns rows' fetches
    | (rows', false) => return rows'

/-- The calls of a query behind the connection, with the loop. -/
def OracleDelivery.collect (d : OracleDelivery) (params : List (Bytes × JsonValue))
    (maxRows : ℤ) : Except Bytes (List (Bytes × OracleType) × DbRowCollector) := do
  orFail [] d.prepare
  bindParams d params
  let described ← orFail [] d.execute
  if described.isEmpty then .error (ascii "Statement returned no result set")
  else
    let columns ← planColumns described
    let rows ← oracleLoop columns (.new (rowLimit maxRows)) d.fetches
    return (columns, rows)

/-- `OracleQueryExecutor::execute_query`, with its loops. -/
def OracleDelivery.executeQuery (dbName : Bytes) (params : List (Bytes × JsonValue)) (maxRows : ℤ)
    (d : OracleDelivery) : ℤ × JsonValue :=
  if !d.ready then makeDbUnavailable (ascii "database is still initializing")
  else
    match d.connection with
    | .error e => makeDbUnavailable (describeError e)
    | .ok () =>
      match d.collect params maxRows with
      | .error message => makeDbSqlError message
      | .ok (columns, rows) =>
        (200, respond dbName (columns.map fun column => (column.1, oracleTypeName column.2)) rows
          d.durationMs)

/-- The loop over the cursor comes to the rows that `fetchRows` keeps. -/
theorem oracleLoop_eq_fetchRows (columns : List (Bytes × OracleType)) (rows : DbRowCollector)
    (fetches : List (Except DpiError (List (Except DpiError DpiData))))
    (hrows : rows.rows.length ≤ rows.maxRows) :
    oracleLoop columns rows fetches =
      (fetchRows (rows.maxRows - rows.rows.length) fetches).map fun kept =>
        { maxRows := rows.maxRows
          rows := rows.rows ++ kept.1.map (oracleRow columns)
          truncated := rows.truncated || kept.2 } := by
  induction fetches generalizing rows with
  | nil => simp [oracleLoop, fetchRows, Except.map]
  | cons fetched fetches ih =>
    rw [oracleLoop, fetchRows]
    cases orFail [] fetched with
    | error message => rfl
    | ok values =>
      cases hrow : fetchRow values with
      | error message => simp only [bind, Except.bind, hrow, Except.map]
      | ok row =>
        by_cases hfull : rows.rows.length ≥ rows.maxRows
        · have hzero : rows.maxRows - rows.rows.length = 0 := by omega
          simp [bind, Except.bind, hrow, DbRowCollector.tryAdd, if_pos hfull, hzero, Except.map,
            pure, Except.pure]
        · obtain ⟨left, hleft⟩ : ∃ left, rows.maxRows - rows.rows.length = left + 1 :=
            ⟨rows.maxRows - rows.rows.length - 1, by omega⟩
          have hnext : rows.maxRows - (rows.rows ++ [oracleRow columns row]).length = left := by
            rw [List.length_append, List.length_singleton]
            omega
          simp only [bind, Except.bind, hrow, DbRowCollector.tryAdd, if_neg hfull, hleft]
          rw [ih _ (by simp only [List.length_append, List.length_singleton]; omega), hnext]
          cases fetchRows left fetches with
          | error message => rfl
          | ok kept =>
            simp only [Except.map, pure, Except.pure, List.map_cons, List.append_assoc,
              List.singleton_append]

/-- **The executor with its loops is the executor.** -/
theorem OracleDelivery.executeQuery_eq_body (dbName : Bytes) (params : List (Bytes × JsonValue))
    (maxRows : ℤ) (d : OracleDelivery) :
    d.executeQuery dbName params maxRows = d.body dbName params maxRows := by
  have hcollect : d.collect params maxRows = (d.query params maxRows).map fun q =>
      (q.1, ⟨rowLimit maxRows, q.2.1.map (oracleRow q.1), q.2.2⟩) := by
    unfold OracleDelivery.collect OracleDelivery.query
    cases orFail [] d.prepare with
    | error message => rfl
    | ok _ =>
      cases bindParams d params with
      | error message => rfl
      | ok _ =>
        cases orFail [] d.execute with
        | error message => rfl
        | ok described =>
          show (if described.isEmpty = true then _ else _) =
            Except.map _ (if described.isEmpty = true then _ else _)
          split
          · rfl
          · cases planColumns described with
            | error message => rfl
            | ok columns =>
              have hloop : oracleLoop columns (.new (rowLimit maxRows)) d.fetches =
                  (fetchRows (rowLimit maxRows) d.fetches).map fun kept =>
                    ⟨rowLimit maxRows, kept.1.map (oracleRow columns), kept.2⟩ :=
                oracleLoop_eq_fetchRows columns _ d.fetches (Nat.zero_le _)
              show Except.bind (oracleLoop columns (.new (rowLimit maxRows)) d.fetches) _ =
                Except.map _ (Except.bind (fetchRows (rowLimit maxRows) d.fetches) _)
              rw [hloop]
              cases fetchRows (rowLimit maxRows) d.fetches with
              | error message => rfl
              | ok kept => rfl
  unfold OracleDelivery.executeQuery OracleDelivery.body
  split
  · rfl
  · cases d.connection with
    | error e => rfl
    | ok _ =>
      simp only [hcollect]
      cases d.query params maxRows with
      | error message => rfl
      | ok q => rfl

/-! ## The answer -/

/-- **The answer within a limit**: the columns; of the `n` rows of the server the first ones
up to the limit, each with one value for each column; their number; and whether there
were more. -/
structure LimitedTo (maxRows : ℤ) (nameType : List (Bytes × Bytes)) (n : ℕ)
    (cell : ℕ → ℕ → JsonValue) (answer : ℤ × JsonValue) : Prop where
  status : answer.1 = 200
  columns : answer.2.find kColumns = some (makeDbColumnsJson nameType)
  rows : answer.2.find kRows = some (.array ((List.range (min n maxRows.toNat)).map fun r =>
    .array ((List.range nameType.length).map (cell r))))
  rowCount : answer.2.find kRowCount = some (.uint (min n maxRows.toNat))
  truncated : answer.2.find kTruncated = some (.bool (decide (maxRows < n)))

theorem rowLimit_of_pos {maxRows : ℤ} (hpos : 0 < maxRows) (hint : InInt32 maxRows) :
    rowLimit maxRows = maxRows.toNat := by
  have hupper := hint.2
  rw [rowLimit, Int.emod_eq_of_lt (by omega) (by omega)]

/-- The response of a collector that was offered the rows of the server. -/
theorem limitedTo_respond {maxRows : ℤ} (hpos : 0 < maxRows) (hint : InInt32 maxRows)
    (db : Bytes) (nameType : List (Bytes × Bytes)) (n : ℕ) (cell : ℕ → ℕ → JsonValue)
    (durationMs : ℕ) :
    LimitedTo maxRows nameType n cell
      (200, respond db nameType ((DbRowCollector.new (rowLimit maxRows)).offer
        ((List.range n).map fun r => (List.range nameType.length).map (cell r))) durationMs) := by
  have hkeys : ([kStatus, DbResponseContract.kDb, kColumns, kRows, kRowCount, kTruncated,
    kDurationMs] : List Bytes).Nodup := by decide
  have hfind {pairs : List (Bytes × JsonValue)} {key : Bytes} {v : JsonValue}
      (hpairs : pairs.map Prod.fst = [kStatus, DbResponseContract.kDb, kColumns, kRows, kRowCount,
        kTruncated, kDurationMs]) (hmem : (key, v) ∈ pairs) :
      (objectOf pairs).find key = some v :=
    JsonObject.find_of_of_mem (by rw [hpairs]; exact hkeys) hmem
  have htake : ((List.range n).map fun r => (List.range nameType.length).map (cell r)).take
      maxRows.toNat = (List.range (min n maxRows.toNat)).map fun r =>
        (List.range nameType.length).map (cell r) := by
    rw [← List.map_take, List.take_range, Nat.min_comm]
  have htruncated : decide (maxRows.toNat < ((List.range n).map fun r =>
      (List.range nameType.length).map (cell r)).length) = decide (maxRows < n) := by
    rw [List.length_map, List.length_range]
    exact decide_eq_decide.mpr (by omega)
  rw [rowLimit_of_pos hpos hint, DbRowCollector.offer_new, htake, htruncated]
  refine ⟨rfl, hfind rfl ?_, hfind rfl ?_, hfind rfl ?_, hfind rfl ?_⟩
  · simp
  · simp [List.map_map, Function.comp_def]
  · simp
  · simp

/-- Every call of the query succeeds, and this is its result: it has a column, and every
tuple has a value for each column. -/
structure PgDelivery.Succeeds (d : PgDelivery) (result : PgResult) : Prop where
  connected : d.connected = true
  timeout : trimCopy d.timeoutError = []
  result_eq : d.result = .ok result
  columns_ne_nil : result.columns ≠ []
  rectangular : ∀ tuple ∈ result.tuples, tuple.length = result.columns.length

/-- The answer of the loop over the tuples. -/
theorem PgDelivery.executeQuery_of_succeeds {d : PgDelivery} {result : PgResult}
    (h : d.Succeeds result) (stod : Bytes → Option UInt64) (dbName : Bytes) (maxRows : ℤ) :
    d.executeQuery stod dbName maxRows =
      (200, respond dbName (result.columns.map fun column => (column.1, pgTypeName column.2))
        ((DbRowCollector.new (rowLimit maxRows)).offer
          ((List.range result.tuples.length).map (pgCells stod result))) d.durationMs) := by
  have hcolumns : ¬ result.columns.isEmpty = true := by simpa using h.columns_ne_nil
  rw [PgDelivery.executeQuery, h.connected, h.timeout, h.result_eq]
  simp only [Bool.not_true, List.isEmpty_nil, if_neg hcolumns, pgLoop_eq_offer,
    List.range_eq_range']
  rfl

theorem pgCells_eq_pgRow (stod : Bytes → Option UInt64) {result : PgResult} {r : ℕ}
    (hr : r < result.tuples.length) (hlength : result.tuples[r].length = result.columns.length) :
    pgCells stod result r = pgRow stod result.columns result.tuples[r] := by
  refine List.ext_getElem ?_ fun c hc hc' => ?_
  · simp [pgCells, pgRow, hlength]
  · have hcolumn : c < result.columns.length := by simpa [pgCells] using hc
    have hvalue : c < result.tuples[r].length := by omega
    have hcell : (result.tuples.getD r []).getD c none = result.tuples[r][c] := by
      simp only [List.getD_eq_getElem?_getD, List.getElem?_eq_getElem hr, Option.getD_some,
        List.getElem?_eq_getElem hvalue]
    have htype : result.columns.getD c ([], 0) = result.columns[c] := by
      rw [List.getD_eq_getElem?_getD, List.getElem?_eq_getElem hcolumn, Option.getD_some]
    simp only [pgCells, pgRow, List.getElem_map, List.getElem_range, List.getElem_zipWith]
    unfold pgCell
    rewrite [hcell, htype]
    cases result.tuples[r][c] with
    | none => rfl
    | some text => rfl

/-- **The executor with its loops is the executor.** -/
theorem PgDelivery.executeQuery_eq_body {d : PgDelivery} {result : PgResult}
    (h : d.Succeeds result) (stod : Bytes → Option UInt64) (dbName : Bytes) (maxRows : ℤ) :
    d.executeQuery stod dbName maxRows = d.body stod dbName maxRows := by
  have hcolumns : ¬ result.columns.isEmpty = true := by simpa using h.columns_ne_nil
  have hrows : (List.range result.tuples.length).map (pgCells stod result) =
      result.tuples.map (pgRow stod result.columns) := by
    refine List.ext_getElem (by simp) fun r hr hr' => ?_
    have hr : r < result.tuples.length := by simpa using hr
    rw [List.getElem_map, List.getElem_map, List.getElem_range,
      pgCells_eq_pgRow stod hr (h.rectangular _ (List.getElem_mem hr))]
  rw [PgDelivery.executeQuery_of_succeeds h, hrows, DbRowCollector.offer_new, PgDelivery.body,
    h.connected, h.timeout, h.result_eq]
  simp only [Bool.not_true, List.isEmpty_nil, if_neg hcolumns]
  rfl

/-- Every call of the query succeeds, and these are the columns, of which there is one at
least, and the fetched rows, each with a value for each column. -/
structure OracleDelivery.Succeeds (d : OracleDelivery) (params : List (Bytes × JsonValue))
    (columns : List (Bytes × OracleType)) (rows : List (List DpiData)) : Prop where
  ready : d.ready = true
  connection : d.connection = .ok ()
  prepare : d.prepare = .ok ()
  bind : bindParams d params = .ok ()
  execute : d.execute = .ok (columns.map fun column => ⟨.ok column, .ok ()⟩)
  columns_ne_nil : columns ≠ []
  fetches : d.fetches = rows.map fun row => .ok (row.map .ok)
  rectangular : ∀ row ∈ rows, row.length = columns.length

/-- The value in a row and a column. -/
def oracleCell (columns : List (Bytes × OracleType)) (rows : List (List DpiData)) (r c : ℕ) :
    JsonValue :=
  match columns[c]?, rows[r]?.bind (·[c]?) with
  | some column, some data => oracleValue column.2 data
  | _, _ => .null

theorem planColumns_of_ok (columns : List (Bytes × OracleType)) :
    planColumns (columns.map fun column => ⟨.ok column, .ok ()⟩) = .ok columns := by
  induction columns with
  | nil => rfl
  | cons column columns ih =>
    rw [List.map_cons, planColumns, ih]
    rfl

theorem fetchRow_of_ok (row : List DpiData) : fetchRow (row.map .ok) = .ok row := by
  induction row with
  | nil => rfl
  | cons data row ih =>
    rw [List.map_cons, fetchRow, ih]
    rfl

/-- A cursor whose fetches succeed offers its rows to the collector. -/
theorem oracleLoop_of_ok (columns : List (Bytes × OracleType)) (collector : DbRowCollector)
    (rows : List (List DpiData)) :
    oracleLoop columns collector (rows.map fun row => .ok (row.map .ok)) =
      .ok (collector.offer (rows.map (oracleRow columns))) := by
  induction rows generalizing collector with
  | nil => rfl
  | cons row rows ih =>
    rw [List.map_cons, List.map_cons, oracleLoop, DbRowCollector.offer]
    simp only [orFail, bind, Except.bind, fetchRow_of_ok]
    cases collector.tryAdd (oracleRow columns row) with
    | mk collector' added =>
      cases added with
      | true => exact ih collector'
      | false => rfl

theorem oracleRow_eq_cells {columns : List (Bytes × OracleType)} {rows : List (List DpiData)}
    (hrectangular : ∀ row ∈ rows, row.length = columns.length) :
    rows.map (oracleRow columns) = (List.range rows.length).map fun r =>
      (List.range columns.length).map (oracleCell columns rows r) := by
  refine List.ext_getElem (by simp) fun r hr hr' => ?_
  have hr : r < rows.length := by simpa using hr
  have hlength := hrectangular _ (List.getElem_mem hr)
  rw [List.getElem_map, List.getElem_map, List.getElem_range]
  refine List.ext_getElem (by simp [oracleRow, hlength]) fun c hc hc' => ?_
  have hcolumn : c < columns.length := by simpa using hc'
  have hvalue : c < rows[r].length := by omega
  simp only [oracleRow, oracleCell, List.getElem_zipWith, List.getElem_map, List.getElem_range,
    List.getElem?_eq_getElem hr, List.getElem?_eq_getElem hcolumn, Option.bind_some,
    List.getElem?_eq_getElem hvalue]

/-- The answer of the loop over the cursor. -/
theorem OracleDelivery.executeQuery_of_succeeds {d : OracleDelivery}
    {params : List (Bytes × JsonValue)} {columns : List (Bytes × OracleType)}
    {rows : List (List DpiData)} (h : d.Succeeds params columns rows) (dbName : Bytes)
    (maxRows : ℤ) :
    d.executeQuery dbName params maxRows =
      (200, respond dbName (columns.map fun column => (column.1, oracleTypeName column.2))
        ((DbRowCollector.new (rowLimit maxRows)).offer
          ((List.range rows.length).map fun r =>
            (List.range columns.length).map (oracleCell columns rows r))) d.durationMs) := by
  have hcollect : d.collect params maxRows =
      .ok (columns,
        (DbRowCollector.new (rowLimit maxRows)).offer (rows.map (oracleRow columns))) := by
    have hdescribed : ¬ (columns.map fun column =>
        (⟨.ok column, .ok ()⟩ : OracleColumn)).isEmpty = true := by
      simpa using h.columns_ne_nil
    rw [OracleDelivery.collect, h.prepare, h.bind, h.execute, h.fetches]
    show (if (columns.map fun column => (⟨.ok column, .ok ()⟩ : OracleColumn)).isEmpty = true
      then _ else _) = _
    rw [if_neg hdescribed, planColumns_of_ok]
    show Except.bind (oracleLoop columns _ _) _ = _
    rw [oracleLoop_of_ok]
    rfl
  rw [OracleDelivery.executeQuery, h.ready, h.connection, hcollect,
    oracleRow_eq_cells h.rectangular]
  rfl

/-- **Both executors keep to the limit.**  When every call succeeds, the answer has the
first rows of the server up to the limit, and says whether there were more. -/
theorem executeQuery_limitedTo (dbName : Bytes) {maxRows : ℤ} (hpos : 0 < maxRows)
    (hint : InInt32 maxRows) :
    (∀ (stod : Bytes → Option UInt64) (d : PgDelivery) (result : PgResult), d.Succeeds result →
      LimitedTo maxRows (result.columns.map fun column => (column.1, pgTypeName column.2))
        result.tuples.length (pgCell stod result) (d.executeQuery stod dbName maxRows)) ∧
    ∀ (d : OracleDelivery) (params : List (Bytes × JsonValue)) (columns : List (Bytes × OracleType))
      (rows : List (List DpiData)), d.Succeeds params columns rows →
        LimitedTo maxRows (columns.map fun column => (column.1, oracleTypeName column.2))
          rows.length (oracleCell columns rows) (d.executeQuery dbName params maxRows) := by
  constructor
  · intro stod d result h
    have hanswer := limitedTo_respond hpos hint dbName
      (result.columns.map fun column => (column.1, pgTypeName column.2)) result.tuples.length
      (pgCell stod result) d.durationMs
    rw [List.length_map] at hanswer
    rw [PgDelivery.executeQuery_of_succeeds h]
    exact hanswer
  · intro d params columns rows h
    have hanswer := limitedTo_respond hpos hint dbName
      (columns.map fun column => (column.1, oracleTypeName column.2)) rows.length
      (oracleCell columns rows) d.durationMs
    rw [List.length_map] at hanswer
    rw [OracleDelivery.executeQuery_of_succeeds h]
    exact hanswer

/-- A result of three rows with a column of integers. -/
def threeRows : PgResult where
  columns := [(ascii "id", kPgInt4Oid)]
  tuples := [[some (ascii "1")], [none], [some (ascii "3")]]

/-- Of three rows two are returned, and the answer is marked as cut. -/
theorem executeQuery_limitedTo_threeRows :
    (0 : ℤ) < 2 ∧ InInt32 2 ∧
    LimitedTo 2 [(ascii "id", ascii "INTEGER")] 3 (pgCell (fun _ => none) threeRows)
      (PgDelivery.executeQuery (fun _ => none) (ascii "main") 2 ⟨true, [], .ok threeRows, 5⟩) := by
  have hint : InInt32 2 := by decide
  refine ⟨by decide, hint, ?_⟩
  exact (executeQuery_limitedTo (ascii "main") (by decide) hint).1 (fun _ => none)
    ⟨true, [], .ok threeRows, 5⟩ threeRows
    ⟨rfl, rfl, rfl, List.cons_ne_nil _ _, by decide⟩

end Sql
end HttpDataDiod
