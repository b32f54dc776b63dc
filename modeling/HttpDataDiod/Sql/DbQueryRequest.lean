import HttpDataDiod.Json.Value
import HttpDataDiod.Sql.GateSoundness

/-!
# The database gateway's request

Model of `parse_db_query_request` and of the contract keys it reads.  The
checks are made in the order of the source, and the first one violated gives
the message.

* `parseDbQueryRequest`: the parser.
* `isReadOnlySql_of_parseDbQueryRequest`: an accepted query carries a statement that has
  passed the gate.
* `isReadOnlySql_sound_of_commentsAgree`: what the gate lets through, and
  where the comments can be used to smuggle another statement past it.
-/

namespace HttpDataDiod
namespace Sql

open ByteText

namespace DbQueryContract

def kType : Bytes := ascii "type"
def kTypeQuery : Bytes := ascii "query"
def kTypePing : Bytes := ascii "ping"
def kRequestId : Bytes := ascii "request_id"
def kDb : Bytes := ascii "db"
def kSql : Bytes := ascii "sql"
def kParams : Bytes := ascii "params"
def kTimeoutMs : Bytes := ascii "timeout_ms"
def kMaxRows : Bytes := ascii "max_rows"

end DbQueryContract

open DbQueryContract

/-- `DbQueryRequest`; `-1` stands for the configured default. -/
structure DbQueryRequest where
  type : Bytes
  requestId : Bytes
  db : Bytes
  sql : Bytes
  params : List (Bytes × JsonValue)
  timeoutMs : ℤ
  maxRows : ℤ

/-- The statement check of a request of type `query`. -/
def checkSql (type sql : Bytes) : Except String Unit :=
  if type = kTypeQuery then
    if sql = [] then .error "sql must be a non-empty string"
    else if isReadOnlySql sql then .ok ()
    else .error "only read-only queries are allowed (must start with SELECT or WITH)"
  else .ok ()

/-- The loop over the items of `params`. -/
def parseParamItems : List (Bytes × JsonValue) → List (Bytes × JsonValue) →
    Except String (List (Bytes × JsonValue))
  | acc, [] => .ok acc
  | acc, (name, value) :: items =>
    if value.isScalar then parseParamItems (JsonValue.setEntry name value acc) items
    else .error "params must contain only scalar values (null/bool/number/string)"

/-- The bind parameters; an absent or null `params` is the empty object. -/
def parseParams (j : JsonValue) : Except String (List (Bytes × JsonValue)) :=
  match j.find kParams with
  | none => .ok []
  | some .null => .ok []
  | some (.object items) => parseParamItems [] items
  | some _ => .error "params must be an object"

/-- A limit of the request: `-1`, or a positive number. -/
def parseLimit (j : JsonValue) (key : Bytes) (message : String) : Except String ℤ :=
  let n := j.safeGetInt key (-1)
  if n < -1 ∨ n = 0 then .error message else .ok n

/-- `parse_db_query_request`. -/
def parseDbQueryRequest (j : JsonValue) : Except String DbQueryRequest :=
  if j.isObject = false then .error "request must be a JSON object"
  else
    let type := j.safeGetString kType []
    if type ≠ kTypeQuery ∧ type ≠ kTypePing then .error "type must be \"query\" or \"ping\""
    else do
      let requestId := j.safeGetString kRequestId []
      let db := j.safeGetString kDb []
      let sql := j.safeGetString kSql []
      checkSql type sql
      let params ← parseParams j
      let timeoutMs ← parseLimit j kTimeoutMs "timeout_ms must be a positive number"
      let maxRows ← parseLimit j kMaxRows "max_rows must be a positive number"
      return { type, requestId, db, sql, params, timeoutMs, maxRows }

/-! ## What an accepted request has passed -/

theorem exists_of_bind_eq_ok {ε α β : Type} {x : Except ε α} {f : α → Except ε β} {b : β}
    (h : x >>= f = .ok b) : ∃ a, x = .ok a ∧ f a = .ok b := by
  cases x with
  | error e => exact absurd h (by simp [bind, Except.bind])
  | ok a => exact ⟨a, rfl, h⟩

theorem isReadOnlySql_of_checkSql {sql : Bytes} (h : checkSql kTypeQuery sql = .ok ()) :
    isReadOnlySql sql = true := by
  unfold checkSql at h
  split at h
  · split at h
    · exact absurd h (by simp)
    · split at h
      · assumption
      · exact absurd h (by simp)
  · contradiction

/-- **An accepted request, field by field.** -/
theorem parseDbQueryRequest_eq_ok_iff {j : JsonValue} {r : DbQueryRequest} :
    parseDbQueryRequest j = .ok r ↔
      j.isObject = true ∧
      (j.safeGetString kType [] = kTypeQuery ∨ j.safeGetString kType [] = kTypePing) ∧
      checkSql (j.safeGetString kType []) (j.safeGetString kSql []) = .ok () ∧
      parseParams j = .ok r.params ∧
      parseLimit j kTimeoutMs "timeout_ms must be a positive number" = .ok r.timeoutMs ∧
      parseLimit j kMaxRows "max_rows must be a positive number" = .ok r.maxRows ∧
      r.type = j.safeGetString kType [] ∧ r.requestId = j.safeGetString kRequestId [] ∧
      r.db = j.safeGetString kDb [] ∧ r.sql = j.safeGetString kSql [] := by
  constructor
  · intro h
    unfold parseDbQueryRequest at h
    split at h
    · exact absurd h (by simp)
    · rename_i hobject
      simp only at h
      split at h
      · exact absurd h (by simp)
      · rename_i htype
        obtain ⟨_, hsql, h⟩ := exists_of_bind_eq_ok h
        obtain ⟨params, hparams, h⟩ := exists_of_bind_eq_ok h
        obtain ⟨timeoutMs, htimeout, h⟩ := exists_of_bind_eq_ok h
        obtain ⟨maxRows, hrows, h⟩ := exists_of_bind_eq_ok h
        obtain rfl := Except.ok.inj h
        refine ⟨by simpa using hobject, ?_, hsql, hparams, htimeout, hrows, rfl, rfl, rfl, rfl⟩
        by_contra hneither
        exact htype (not_or.mp hneither)
  · rintro ⟨hobject, htype, hsql, hparams, htimeout, hrows, h1, h2, h3, h4⟩
    have htype' : ¬ (j.safeGetString kType [] ≠ kTypeQuery ∧
        j.safeGetString kType [] ≠ kTypePing) :=
      fun h => htype.elim h.1 h.2
    simp only [parseDbQueryRequest, hobject, Bool.true_eq_false, if_false, if_neg htype', hsql,
      hparams, htimeout, hrows]
    obtain ⟨type, requestId, db, sql, params, timeoutMs, maxRows⟩ := r
    simp only at h1 h2 h3 h4
    rw [h1, h2, h3, h4]
    rfl

/-- **An accepted query has passed the gate.** -/
theorem isReadOnlySql_of_parseDbQueryRequest {j : JsonValue} {r : DbQueryRequest}
    (h : parseDbQueryRequest j = .ok r) (htype : r.type = kTypeQuery) :
    isReadOnlySql r.sql = true := by
  obtain ⟨-, -, hsql, -, -, -, h1, -, -, h4⟩ := parseDbQueryRequest_eq_ok_iff.mp h
  rw [← h1, ← h4, htype] at hsql
  exact isReadOnlySql_of_checkSql hsql

/-! ## What a refused request is told -/

theorem eq_error_or_exists_of_bind_eq_error {ε α β : Type} {x : Except ε α} {f : α → Except ε β}
    {e : ε} (h : x >>= f = .error e) : x = .error e ∨ ∃ a, x = .ok a ∧ f a = .error e := by
  cases x with
  | error e' => exact .inl (congrArg _ (Except.error.inj h))
  | ok a => exact .inr ⟨a, rfl, h⟩

/-- The messages of the checks. -/
def requestErrors : List String :=
  ["request must be a JSON object", "type must be \"query\" or \"ping\"",
    "sql must be a non-empty string",
    "only read-only queries are allowed (must start with SELECT or WITH)",
    "params must contain only scalar values (null/bool/number/string)",
    "params must be an object", "timeout_ms must be a positive number",
    "max_rows must be a positive number"]

theorem mem_requestErrors_of_checkSql {type sql : Bytes} {m : String}
    (h : checkSql type sql = .error m) : m ∈ requestErrors := by
  unfold checkSql at h
  split at h
  · split at h
    · cases h; simp [requestErrors]
    · split at h
      · cases h
      · cases h; simp [requestErrors]
  · cases h

theorem mem_requestErrors_of_parseParamItems {acc items : List (Bytes × JsonValue)} {m : String}
    (h : parseParamItems acc items = .error m) : m ∈ requestErrors := by
  induction items generalizing acc with
  | nil => cases h
  | cons item items ih =>
    rw [parseParamItems] at h
    split at h
    · exact ih h
    · cases h; simp [requestErrors]

theorem mem_requestErrors_of_parseParams {j : JsonValue} {m : String}
    (h : parseParams j = .error m) : m ∈ requestErrors := by
  unfold parseParams at h
  split at h
  · cases h
  · cases h
  · exact mem_requestErrors_of_parseParamItems h
  · cases h; simp [requestErrors]

theorem eq_of_parseLimit_eq_error {j : JsonValue} {key : Bytes} {message m : String}
    (h : parseLimit j key message = .error m) : m = message := by
  unfold parseLimit at h
  simp only at h
  split at h
  · exact (Except.error.inj h).symm
  · cases h

/-- **A refusal is one of these messages.** -/
theorem mem_requestErrors_of_parseDbQueryRequest {j : JsonValue} {m : String}
    (h : parseDbQueryRequest j = .error m) : m ∈ requestErrors := by
  unfold parseDbQueryRequest at h
  split at h
  · cases h; simp [requestErrors]
  · simp only at h
    split at h
    · cases h; simp [requestErrors]
    · obtain h | ⟨_, -, h⟩ := eq_error_or_exists_of_bind_eq_error h
      · exact mem_requestErrors_of_checkSql h
      obtain h | ⟨_, -, h⟩ := eq_error_or_exists_of_bind_eq_error h
      · exact mem_requestErrors_of_parseParams h
      obtain h | ⟨_, -, h⟩ := eq_error_or_exists_of_bind_eq_error h
      · rw [eq_of_parseLimit_eq_error h]; simp [requestErrors]
      obtain h | ⟨_, -, h⟩ := eq_error_or_exists_of_bind_eq_error h
      · rw [eq_of_parseLimit_eq_error h]; simp [requestErrors]
      · cases h

/-! ## The gate against the server -/

/-- **Soundness of the gate, and its limit.**  If both readers read the leading
comments of a statement alike and the gate accepts it, it starts with SELECT or
WITH for the server, and so does the statement of every accepted query request.
Any other text has a beginning, up to and including the comment in question, that
some continuation turns into a statement the gate accepts and the server reads as
another one. -/
theorem isReadOnlySql_sound_of_commentsAgree (sql : Bytes) :
    (commentsAgree sql = true →
      (isReadOnlySql sql = true → IsQueryKeyword (serverKeyword sql)) ∧
      ∀ j r, parseDbQueryRequest j = .ok r → r.type = kTypeQuery → r.sql = sql →
        IsQueryKeyword (serverKeyword sql)) ∧
    (commentsAgree sql = false → ∃ p t, p ≠ [] ∧ p <+: sql ∧
      isReadOnlySql (p ++ t) = true ∧ ¬ IsQueryKeyword (serverKeyword (p ++ t))) := by
  constructor
  · intro hagree
    have hsound : isReadOnlySql sql = true → IsQueryKeyword (serverKeyword sql) := by
      intro hgate
      rw [isReadOnlySql_iff] at hgate
      exact isQueryKeyword_of_commentsAgreeFrom (.lead false) sql hagree hgate
    refine ⟨hsound, ?_⟩
    rintro j r hparse htype rfl
    exact hsound (isReadOnlySql_of_parseDbQueryRequest hparse htype)
  · intro hagree
    obtain ⟨p, t, hp, hbegins, hgate, hserver⟩ :=
      smuggled_of_commentsAgreeFrom (.lead false) sql hagree
    exact ⟨p, t, hp, hbegins, (isReadOnlySql_iff _).mpr hgate, hserver⟩

/-- A query request whose statement hides a DELETE behind a nested comment. -/
def smuggledRequest : JsonValue :=
  .object [(kDb, .string (ascii "main")),
    (kSql, .string (ascii "/* /* */ SELECT 1 */ DELETE FROM t")),
    (kType, .string kTypeQuery)]

/-- The request is accepted, and the server reads a DELETE. -/
theorem smuggledRequest_accepted :
    ∃ r, parseDbQueryRequest smuggledRequest = .ok r ∧ r.type = kTypeQuery ∧
      isReadOnlySql r.sql = true ∧ serverKeyword r.sql = ascii "delete" ∧
      ¬ IsQueryKeyword (serverKeyword r.sql) := by
  refine ⟨_, rfl, rfl, ?_, ?_, ?_⟩
  · decide
  · decide
  · decide

/-- The two parts at a commented query and at a nested comment. -/
theorem isReadOnlySql_sound_at_query :
    commentsAgree (ascii "(-- rows\r\n/* all */ select 1)") = true ∧
    isReadOnlySql (ascii "(-- rows\r\n/* all */ select 1)") = true ∧
    IsQueryKeyword (serverKeyword (ascii "(-- rows\r\n/* all */ select 1)")) ∧
    commentsAgree (ascii "/* /* */") = false := by
  have hagree : commentsAgree (ascii "(-- rows\r\n/* all */ select 1)") = true := by decide
  have hgate : isReadOnlySql (ascii "(-- rows\r\n/* all */ select 1)") = true := by decide
  exact ⟨hagree, hgate, (isReadOnlySql_sound_of_commentsAgree _).1 hagree |>.1 hgate, by decide⟩

end Sql
end HttpDataDiod
