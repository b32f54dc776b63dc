import HttpDataDiod.Lib.ByteText
import HttpDataDiod.Lib.Interleaving
import HttpDataDiod.Lib.LinkedMap

/-!
# The connection pool of the PostgreSQL executor

Model of the pool of `db_query_executor_postgres.cpp` and of the functions that use it.  A
slot of the pool is reserved under the mutex; the connect, the health check and the
statements run outside of it, and any of them may fail.  The programs are those of `init`,
`execute_query` and `ping`, with one action for each critical section and for each call of
libpq, and any number of threads run them.

The state holds besides the two fields of the pool what only the proofs look at: who has a
slot and what for (`leases`), the connections libpq has allocated, and for each thread how
often its call has acquired and released a connection.

* `PostgresPool`, `performPg`: the state and the actions on it.
* `tryAcquireConn`, `releaseConn`, `init`, `executeQuery`, `ping`: the programs.
* `poolSystem`: the threads that run them.
-/

namespace HttpDataDiod
namespace Sql

open ByteText Interleaving Transition LinkedMap

/-! ## The shared state -/

/-- A `PGconn *` that is not null. -/
abbrev PGconn := ℕ

/-- What a slot is taken for: a connect that has not been made, one that was made and is not
checked, one that has failed; a connection that is checked out, and one that was checked out
and is finished. -/
inductive Lease where
  | connecting
  | connected (conn : PGconn)
  | failed
  | checkedOut (conn : PGconn)
  | finished

namespace Lease

/-- The connection of the slot. -/
def conn : Lease → Option PGconn
  | connected c => some c
  | checkedOut c => some c
  | _ => none

/-- The slot is reserved for a connect in progress. -/
def reserved : Lease → Bool
  | connecting => true
  | connected _ => true
  | failed => true
  | _ => false

/-- The slot is that of a connection that is checked out and not yet released. -/
def out (l : Lease) : Bool := !l.reserved

/-- The slot after `PQfinish`. -/
def finish : Lease → Lease
  | connected _ => failed
  | checkedOut _ => finished
  | l => l

end Lease

/-- `Impl`, with the leases, the connections of libpq, whether a guarded decrement has found
the count at zero, and the acquires and releases of each thread's call. -/
structure PostgresPool (T : Type) where
  idle : List PGconn
  total : ℕ
  leases : List (T × Lease)
  live : List PGconn
  saturated : Bool
  acquired : T → ℕ
  released : T → ℕ

/-! ## Actions -/

/-- What the critical section of `try_acquire_conn` finds. -/
inductive Acquired where
  | idle (conn : PGconn)
  | exhausted
  | reserved

/-- The result of `PQexecParams`: whether its status is `PGRES_TUPLES_OK`, and the number of
its fields. -/
structure PgQueryResult where
  tuplesOk : Bool
  nfields : ℕ

/-- The critical sections, the calls of libpq, and the return of a connection to the caller
of `try_acquire_conn`. -/
inductive PgAction where
  | takeIdleOrReserve
  | createConn
  | status (conn : PGconn)
  | checkOut (conn : PGconn)
  | finish (conn : PGconn)
  | cancelSlot
  | discardConn
  | pushIdle (conn : PGconn)
  | setStatementTimeout (conn : PGconn)
  | execParams (conn : PGconn)
  | selectOne (conn : PGconn)

/-- What an action answers with. -/
@[reducible] def PgAction.Result : PgAction → Type
  | takeIdleOrReserve => Acquired
  | createConn => Option PGconn
  | status _ => Bool
  | setStatementTimeout _ => Bytes
  | execParams _ => PgQueryResult
  | selectOne _ => Bool
  | _ => Unit

/-- How libpq answers: a new connection, if there is one, a status, an error text, and the
result of a query. -/
structure PgChoice where
  conn : Option PGconn
  ok : Bool
  error : Bytes
  result : PgQueryResult

variable {T : Type} [DecidableEq T]

namespace PostgresPool

/-- The guarded decrement of `m_total`. -/
def giveSlotBack (s : PostgresPool T) (t : T) : PostgresPool T :=
  { s with
    total := if 0 < s.total then s.total - 1 else s.total
    saturated := s.saturated || decide (s.total = 0)
    leases := eraseKey s.leases t }

/-- The thread has a connection now. -/
def countAcquired (s : PostgresPool T) (t : T) : PostgresPool T :=
  { s with acquired := Function.update s.acquired t (s.acquired t + 1) }

/-- The thread has given it back. -/
def countReleased (s : PostgresPool T) (t : T) : PostgresPool T :=
  { s with released := Function.update s.released t (s.released t + 1) }

/-- Another lease of the thread's slot. -/
def setLease (s : PostgresPool T) (t : T) (l : Lease) : PostgresPool T :=
  { s with leases := modify s.leases t fun _ => l }

/-- The critical section of `try_acquire_conn`. -/
def takeIdleOrReserve (poolMax : ℕ) (s : PostgresPool T) (t : T) : Acquired × PostgresPool T :=
  match s.idle.getLast? with
  | some conn =>
    (.idle conn,
      { s with
        idle := s.idle.dropLast
        leases := (t, .checkedOut conn) :: s.leases
        acquired := Function.update s.acquired t (s.acquired t + 1) })
  | none =>
    if poolMax ≤ s.total then (.exhausted, s)
    else (.reserved, { s with total := s.total + 1, leases := (t, .connecting) :: s.leases })

end PostgresPool

open PostgresPool

/-- The effect of an action.  `PQconnectdbParams` returns no pointer that is in use. -/
def performPg (poolMax : ℕ) (t : T) : (a : PgAction) → PgChoice → PostgresPool T →
    Option (a.Result × PostgresPool T)
  | .takeIdleOrReserve, _, s => some (s.takeIdleOrReserve poolMax t)
  | .createConn, choice, s =>
    match choice.conn with
    | none => some (none, s.setLease t .failed)
    | some conn =>
      if conn ∈ s.live then none
      else some (some conn, { s.setLease t (.connected conn) with live := conn :: s.live })
  | .status _, choice, s => some (choice.ok, s)
  | .checkOut conn, _, s => some ((), (s.setLease t (.checkedOut conn)).countAcquired t)
  | .finish conn, _, s =>
    some ((), { s with
      leases := modify s.leases t Lease.finish
      live := s.live.filter (· ≠ conn) })
  | .cancelSlot, _, s => some ((), s.giveSlotBack t)
  | .discardConn, _, s => some ((), (s.giveSlotBack t).countReleased t)
  | .pushIdle conn, _, s =>
    some ((), { s.countReleased t with
      idle := s.idle ++ [conn]
      leases := eraseKey s.leases t })
  | .setStatementTimeout _, choice, s => some (choice.error, s)
  | .execParams _, choice, s => some (choice.result, s)
  | .selectOne _, choice, s => some (choice.ok, s)

/-! ## Programs -/

/-- A program of the executor. -/
abbrev PgProg (α : Type) := Program PgAction PgAction.Result α

/-- An action as a program. -/
def perform (a : PgAction) : PgProg a.Result := Program.perform a

/-- `try_acquire_conn`. -/
def tryAcquireConn : PgProg (Option PGconn) := do
  match ← perform .takeIdleOrReserve with
  | .idle conn => return some conn
  | .exhausted => return none
  | .reserved =>
    match ← perform .createConn with
    | none =>
      perform .cancelSlot
      return none
    | some conn =>
      if ← perform (.status conn) then
        perform (.checkOut conn)
        return some conn
      else
        perform (.finish conn)
        perform .cancelSlot
        return none

/-- `release_conn`. -/
def releaseConn (conn : PGconn) : PgProg Unit := do
  if ← perform (.status conn) then perform (.pushIdle conn)
  else
    perform (.finish conn)
    perform .discardConn

/-- `init`. -/
def init : PgProg Bool := do
  match ← tryAcquireConn with
  | none => return false
  | some conn =>
    releaseConn conn
    return true

/-- What `execute_query` returns. -/
inductive QueryReturn where
  | unavailable
  | timeoutError (message : Bytes)
  | sqlError
  | noResultSet
  | rows

/-- `execute_query`. -/
def executeQuery : PgProg QueryReturn := do
  match ← tryAcquireConn with
  | none => return .unavailable
  | some conn =>
    let timeoutError ← perform (.setStatementTimeout conn)
    if timeoutError ≠ [] then
      releaseConn conn
      return .timeoutError timeoutError
    else
      let res ← perform (.execParams conn)
      if res.tuplesOk = false then
        releaseConn conn
        return .sqlError
      else if res.nfields = 0 then
        releaseConn conn
        return .noResultSet
      else
        releaseConn conn
        return .rows

/-- `ping`. -/
def ping : PgProg Bool := do
  match ← tryAcquireConn with
  | none => return false
  | some conn =>
    let timeoutError ← perform (.setStatementTimeout conn)
    if timeoutError ≠ [] then
      releaseConn conn
      return false
    else
      let ok ← perform (.selectOne conn)
      releaseConn conn
      return ok

/-- The calls of the threads. -/
inductive PgCall where
  | init
  | executeQuery
  | ping

/-- The program of a call. -/
def PgCall.body : PgCall → PgProg Unit
  | .init => do
    let _ ← Sql.init
    return ()
  | .executeQuery => do
    let _ ← Sql.executeQuery
    return ()
  | .ping => do
    let _ ← Sql.ping
    return ()

/-- The pool and its threads.  A call begins with its counts at zero. -/
def poolSystem (T : Type) [DecidableEq T] (poolMax : ℕ) :
    System T PgAction PgAction.Result PgChoice (PostgresPool T) PgCall Empty where
  perform := performPg poolMax
  start t call s :=
    some (call.body,
      { s with
        acquired := Function.update s.acquired t 0
        released := Function.update s.released t 0 })
  env e := e.elim

end Sql
end HttpDataDiod
