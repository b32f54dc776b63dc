import HttpDataDiod.Nats.Protocol

/-!
# The worker's NATS loop

Model of `L2Worker::run_with_nats` of `l2_worker_nats.cpp`: one thread runs the
loop, which keeps the worker's subscriptions alive, while the threads of the pool
answer requests through the same `NatsClient`.  The locals of the loop are kept
in the client's `vars`, which no other thread touches.

Left out are the sleeps and the backoff, which only decide how long a pass takes,
and the later calls of `DbQueryHandler::init`, which only add databases to a
gateway that is already subscribed.

* `LoopVars`: the locals of the loop.
* `refresh`, `reconnect`, `subscribeWorker`, `subscribeDb`, `checkLost`: the parts
  of one pass, in the order of the source.
* `pass`: one pass of the loop.
* `workerSystem`: the loop, the threads of the pool, the callbacks and the library.
-/

namespace HttpDataDiod
namespace Worker

open Interleaving ByteText Nats

/-- What the loop reads from the configuration. -/
structure LoopConfig where
  /-- `m_nats.m_subject`. -/
  subject : Bytes
  /-- `m_db_query.m_enabled`. -/
  dbEnabled : Bool
  /-- `m_db_query.m_subject`. -/
  dbSubject : Bytes

/-- The locals of `run_with_nats`. -/
structure LoopVars where
  subscriptionActive : Bool
  dbSubscriptionActive : Bool
  wasConnected : Bool
  /-- `m_db_query_handler->is_enabled()`: some database is ready. -/
  dbReady : Bool
  /-- The loop is inside `subscribe_worker_subject()`. -/
  subscribing : Bool
  deriving DecidableEq

/-- A program of the worker. -/
abbrev LoopProg := Prog (Option LoopVars)

/-- Assigning the locals. -/
def assign (v : LoopVars) : LoopProg Unit := act (.modifyVars fun _ => some v)

/-! ## One pass -/

/-- A restored connection: the flags are cleared and all subscriptions dropped.
Then `was_connected = is_connected`. -/
def refresh (v : LoopVars) : LoopProg LoopVars := do
  let sampled ← isConnected
  if sampled && !v.wasConnected then
    assign { v with subscriptionActive := false, dbSubscriptionActive := false }
    unsubscribe
    assign { v with
      subscriptionActive := false, dbSubscriptionActive := false, wasConnected := sampled }
    return { v with
      subscriptionActive := false, dbSubscriptionActive := false, wasConnected := sampled }
  else
    assign { v with wasConnected := sampled }
    return { v with wasConnected := sampled }

/-- The attempt to reconnect. -/
def reconnect : LoopProg Unit := do
  if ← isConnected then return ()
  else
    let _ ← connect defaultConnectAttempts

/-- `subscribe_worker_subject`, if the connection is up and the flag is not. -/
def subscribeWorker (cfg : LoopConfig) (v : LoopVars) : LoopProg LoopVars := do
  if ← isConnected then
    if v.subscriptionActive then return v
    else
      assign { v with subscribing := true }
      if ← subscribe cfg.subject then
        assign { v with subscriptionActive := true, subscribing := false }
        return { v with subscriptionActive := true, subscribing := false }
      else
        assign { v with subscribing := false }
        return { v with subscribing := false }
  else return v

/-- `subscribe_db_query_subject`. -/
def subscribeDbQuerySubject (cfg : LoopConfig) (v : LoopVars) : LoopProg Bool := do
  if !cfg.dbEnabled || !v.dbReady then return true
  else subscribe cfg.dbSubject

/-- `is_enabled()`, after an `init()` where it was false: whether `init()` finds a
database is up to the environment, and a database that is ready stays so. -/
def initDatabases (v : LoopVars) : LoopProg Bool :=
  if v.dbReady then return true else act .ask

/-- `ensure_db_query_subscription`. -/
def ensureDbQuerySubscription (cfg : LoopConfig) (v : LoopVars) :
    LoopProg (Bool × LoopVars) := do
  if !cfg.dbEnabled then return (true, v)
  else
    let ready ← initDatabases v
    assign { v with dbReady := ready }
    if ready then
      let ok ← subscribeDbQuerySubject cfg { v with dbReady := ready }
      return (ok, { v with dbReady := ready })
    else return (false, { v with dbReady := ready })

/-- The DB gateway's part of a pass. -/
def subscribeDb (cfg : LoopConfig) (v : LoopVars) : LoopProg LoopVars := do
  if ← isConnected then
    if v.subscriptionActive && !v.dbSubscriptionActive then
      let (ok, v) ← ensureDbQuerySubscription cfg v
      assign { v with dbSubscriptionActive := ok }
      return { v with dbSubscriptionActive := ok }
    else return v
  else return v

/-- A connection found lost at the end of a pass clears the flags. -/
def checkLost (v : LoopVars) : LoopProg LoopVars := do
  if ← isConnected then return v
  else
    assign { v with subscriptionActive := false, dbSubscriptionActive := false }
    return { v with subscriptionActive := false, dbSubscriptionActive := false }

/-- The look at the connection that the backoff takes after the sleep. -/
def recordPass (v : LoopVars) : LoopProg Unit := do
  if v.subscriptionActive then
    let _ ← isConnected

/-- The end of the loop: its locals are gone, and the client is drained. -/
def leaveLoop : LoopProg Unit := do
  act (.modifyVars fun _ => none)
  drain

/-- One pass of the loop; `g_shutdown_flag` is read at its head and in its middle,
and `ask` answers whether it is still clear. -/
def pass (cfg : LoopConfig) : LoopProg Unit := do
  match ← act .getVars with
  | none => return ()
  | some v =>
    if ← act .ask then
      let v ← refresh v
      reconnect
      if ← act .ask then
        let v ← subscribeWorker cfg v
        let v ← subscribeDb cfg v
        let v ← checkLost v
        recordPass v
      else leaveLoop
    else leaveLoop

/-- What `run_with_nats` does before its loop. -/
def enterLoop : LoopProg Unit := do
  match ← act .getVars with
  | some _ => return ()
  | none =>
    let connected ← isConnected
    assign { subscriptionActive := false, dbSubscriptionActive := false,
             wasConnected := connected, dbReady := false, subscribing := false }

section Outlines

variable {K : Type} {t : ThreadId} {pl : Places (Option LoopVars)}
  {sys : System ThreadId (Action (Option LoopVars)) Action.Result NatsStatus
    (Client (Option LoopVars)) K LibraryEvent}
  {D : Contract ThreadId (Action (Option LoopVars)) (Client (Option LoopVars)) LibraryEvent}
  (h : CallRules sys D t pl)
include h

theorem outline_reconnect : Outline sys D t pl.idle reconnect fun _ => pl.idle := by
  refine .bind (outline_isConnected h) fun r => ?_
  cases r with
  | true => exact .pure fun _ hs => hs
  | false => exact .bind (outline_connect h _) fun _ => .pure fun _ hs => hs

theorem outline_initDatabases (v : LoopVars) :
    Outline sys D t pl.idle (initDatabases v) fun _ => pl.idle := by
  rw [initDatabases]
  by_cases hready : v.dbReady = true
  · rw [if_pos hready]
    exact .pure fun _ hs => hs
  · rw [if_neg hready]
    exact .perform (h.idle_quiet .ask trivial)

theorem outline_recordPass (v : LoopVars) :
    Outline sys D t pl.idle (recordPass v) fun _ => pl.idle := by
  rw [recordPass]
  by_cases hactive : v.subscriptionActive = true
  · rw [if_pos hactive]
    exact .bind (outline_isConnected h) fun _ => .pure fun _ hs => hs
  · rw [if_neg hactive]
    exact .pure fun _ hs => hs

end Outlines

/-! ## The system -/

/-- The thread that runs the loop. -/
def loopThread : ThreadId := .caller 0

/-- What the threads of the worker start. -/
inductive WorkerCall where
  | enterLoop
  | pass
  | client (call : Call)

/-- The loop's thread enters the loop and runs its passes; the threads of the pool
use the client, and never tear it down on purpose. -/
def workerBody (cfg : LoopConfig) : ℕ → WorkerCall → Option (LoopProg Unit)
  | 0, .enterLoop => some enterLoop
  | 0, .pass => some (pass cfg)
  | _ + 1, .client call => if call.isTeardown then none else some call.body
  | _, _ => none

/-- **The worker**: the loop, the threads of the pool, the callbacks and the
library, interleaved. -/
def workerSystem (cfg : LoopConfig) :
    System ThreadId (Action (Option LoopVars)) Action.Result NatsStatus
      (Client (Option LoopVars)) (WorkerCall ⊕ ℕ) LibraryEvent :=
  clientSystem (startWithCallbacks (workerBody cfg))

/-- A new worker: the loop is not entered yet. -/
def newWorker : Config ThreadId (Action (Option LoopVars)) Action.Result
    (Client (Option LoopVars)) :=
  idleConfig (Client.initial none)

end Worker
end HttpDataDiod
