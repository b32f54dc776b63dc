import HttpDataDiod.Lib.Interleaving
import HttpDataDiod.Lib.ByteText

/-!
# The shared NATS client

Model of `NatsClient` of `nats_client.cpp` as a program for many threads.  Each
access to the shared members (`m_connected`, `m_shutdown`, `m_conn` and
`m_subscriptions`, the latter two behind `m_mutex`) and each call of the NATS
library is one atomic action, so that other threads, the library's own connection
handling and its callback thread may come between any two of them.

The library is what its documentation says of it: a connection has a status, loses
its server and finds it again on its own, and posts a callback for each of these
changes; one thread of the library delivers the posted callbacks, in any order and
at any time.  What a library call answers is the environment's choice.

* `Client`, `Action`, `performAction`: the shared state and the accesses to it.
* `connect`, `requestImpl`, `publish`, `subscribe`, ...: the client's functions,
  under the source's names.
* `onDisconnected`, `onReconnected`, `onClosed`: the callbacks.
* `clientSystem`: callers, callbacks and the library, interleaved.
-/

namespace HttpDataDiod
namespace Nats

open Interleaving ByteText

/-! ## The shared state -/

/-- The library's callback thread and the threads that call the client. -/
inductive ThreadId where
  | async
  | caller (n : ℕ)
  deriving DecidableEq

/-- `natsConnStatus`. -/
inductive ConnStatus where
  | disconnected
  | connecting
  | connected
  | closed
  | reconnecting
  | drainingSubs
  | drainingPubs
  deriving DecidableEq

/-- `natsStatus`, as far as the client tells its values apart. -/
inductive NatsStatus where
  | ok
  | timeout
  | noResponders
  | other
  deriving DecidableEq

/-- The connection callbacks that `setup_options` registers. -/
inductive CallbackKind where
  | disconnected
  | reconnected
  | closed
  deriving DecidableEq

/-- A callback and the connection it is about. -/
structure Callback where
  kind : CallbackKind
  conn : ℕ
  deriving DecidableEq

/-- `NatsSubscription`: its subject and the connection it was made on. -/
structure Subscription where
  subject : Bytes
  conn : ℕ
  deriving DecidableEq

/-- The members of `NatsClient`, the library's connections (numbered as they are
created) and callbacks, and the variables `vars` of the caller that owns the
client. -/
structure Client (V : Type) where
  /-- `m_state.m_shutdown`. -/
  shutdown : Bool
  /-- `m_state.m_connected`. -/
  connected : Bool
  /-- The holder of `m_connection.m_mutex`. -/
  mutex : Option ThreadId
  /-- `m_connection.m_conn`. -/
  conn : Option ℕ
  /-- `m_subscriptions`. -/
  subscriptions : List Subscription
  /-- The status of every connection created so far. -/
  statuses : List ConnStatus
  /-- The callbacks that the library has posted and not delivered yet. -/
  posted : List Callback
  /-- The callback being delivered. -/
  delivering : Option Callback
  vars : V

namespace Client

variable {V : Type}

/-- A new client. -/
def initial (vars : V) : Client V :=
  { shutdown := false, connected := false, mutex := none, conn := none, subscriptions := [],
    statuses := [], posted := [], delivering := none, vars := vars }

/-- `natsConnection_Status`. -/
def statusOf (s : Client V) (c : ℕ) : ConnStatus := s.statuses.getD c .closed

/-- The status of the current connection, if there is one, is not `CONNECTED`. -/
def NotConnected (s : Client V) : Prop := ∀ c, s.conn = some c → s.statusOf c ≠ .connected

/-- What `is_connected()` answers if nothing happens while it runs. -/
def isConnectedNow (s : Client V) : Bool :=
  s.connected && s.conn.any fun c => s.statusOf c == .connected

/-- The connection gets a status, and the library posts callbacks. -/
def setStatus (s : Client V) (c : ℕ) (status : ConnStatus) (kinds : List CallbackKind) :
    Client V :=
  { s with
    statuses := s.statuses.set c status
    posted := s.posted ++ kinds.map fun kind => ⟨kind, c⟩ }

/-- The callbacks of a connection that is closed in the given status: a
`Disconnected` if it had its server, and a `Closed`. -/
def closeCallbacks : ConnStatus → List CallbackKind
  | .closed => []
  | .connected | .drainingSubs | .drainingPubs => [.disconnected, .closed]
  | .disconnected | .connecting | .reconnecting => [.closed]

/-- A connection that was never created counts as closed. -/
theorem statusOf_setStatus_self (s : Client V) (c : ℕ) (status : ConnStatus)
    (kinds : List CallbackKind) :
    (s.setStatus c status kinds).statusOf c = status ∨
      (s.setStatus c status kinds).statusOf c = .closed := by
  have hset : (s.setStatus c status kinds).statusOf c =
      (Function.const _ status <$> s.statuses[c]?).getD .closed := by
    rw [← List.getElem?_set_self', ← List.getD_eq_getElem?_getD]
    rfl
  rw [hset]
  cases s.statuses[c]? with
  | none => exact .inr rfl
  | some old => exact .inl rfl

theorem statusOf_setStatus_of_ne (s : Client V) {c c' : ℕ} (h : c' ≠ c) (status : ConnStatus)
    (kinds : List CallbackKind) : (s.setStatus c status kinds).statusOf c' = s.statusOf c' := by
  change (s.statuses.set c status).getD c' .closed = s.statuses.getD c' .closed
  rw [List.getD_eq_getElem?_getD, List.getElem?_set_ne h.symm, List.getD_eq_getElem?_getD]

/-- The current connection stays down unless it is the one that comes up. -/
theorem NotConnected.setStatus {s : Client V} (h : s.NotConnected) {c : ℕ} {status : ConnStatus}
    {kinds : List CallbackKind} (hup : status = .connected → s.conn ≠ some c) :
    (s.setStatus c status kinds).NotConnected := by
  intro d hd
  by_cases hdc : d = c
  · subst hdc
    rcases statusOf_setStatus_self s d status kinds with hstatus | hstatus
    · rw [hstatus]
      exact fun hconnected => hup hconnected hd
    · rw [hstatus]
      exact nofun
  · rw [statusOf_setStatus_of_ne s hdc]
    exact h d hd

/-- A connection is closed. -/
def closeConn (s : Client V) (c : ℕ) : Client V :=
  s.setStatus c .closed (closeCallbacks (s.statusOf c))

/-- A new connection is created and becomes `m_conn`. -/
def openConn (s : Client V) : Client V :=
  { s with
    conn := some s.statuses.length
    statuses := s.statuses ++ [.connected] }

end Client

/-! ## Actions -/

/-- The accesses to the shared state and the calls of the library. -/
inductive Action (V : Type) where
  | loadShutdown
  | storeShutdown
  | loadConnected
  | storeConnected (value : Bool)
  | lock
  | unlock
  /-- Reading `m_conn`. -/
  | loadConn
  /-- `m_conn = nullptr`. -/
  | clearConn
  /-- `natsConnection_Status`. -/
  | connStatus (c : ℕ)
  /-- `natsConnection_Close` and `natsConnection_Destroy`. -/
  | closeConn (c : ℕ)
  /-- `natsConnection_DrainTimeout`. -/
  | drainConn (c : ℕ)
  /-- `setup_options`. -/
  | setupOptions
  /-- `natsConnection_Connect(&m_conn, m_opts)`. -/
  | connectConn
  /-- Draining and destroying all subscriptions; `m_subscriptions.clear()`. -/
  | destroySubscriptions
  /-- `natsConnection_Subscribe` and `natsConnection_QueueSubscribe`. -/
  | subscribeConn (subject : Bytes) (c : ℕ)
  /-- `m_subscriptions.push_back`. -/
  | pushSubscription (subscription : Subscription)
  /-- `natsMsg_Create` and `set_msg_headers`. -/
  | createMsg
  /-- `natsConnection_RequestMsg`: the call is in flight until this action is done. -/
  | requestMsg (c : ℕ)
  /-- `natsConnection_PublishString` and `natsConnection_PublishMsg`. -/
  | publishMsg (c : ℕ)
  /-- Reading the owner's variables. -/
  | getVars
  /-- Assigning the owner's variables. -/
  | modifyVars (f : V → V)
  /-- A test of something outside the model, answered by the environment. -/
  | ask

/-- What an action answers. -/
@[reducible] def Action.Result {V : Type} : Action V → Type
  | .loadShutdown | .loadConnected | .ask => Bool
  | .loadConn => Option ℕ
  | .connStatus _ => ConnStatus
  | .drainConn _ | .setupOptions | .connectConn | .subscribeConn _ _ | .createMsg
  | .requestMsg _ | .publishMsg _ => NatsStatus
  | .getVars => V
  | .storeShutdown | .storeConnected _ | .lock | .unlock | .clearConn | .closeConn _
  | .destroySubscriptions | .pushSubscription _ | .modifyVars _ => Unit

/-- A program of the client. -/
abbrev Prog (V : Type) := Program (Action V) Action.Result

section Perform

variable {V : Type}

/-- The effect of an action of thread `t`; `choice` is what the library answers.
Taking the mutex has to wait while a thread holds it. -/
def performAction (t : ThreadId) :
    (a : Action V) → NatsStatus → Client V → Option (a.Result × Client V)
  | .loadShutdown, _, s => some (s.shutdown, s)
  | .storeShutdown, _, s => some ((), { s with shutdown := true })
  | .loadConnected, _, s => some (s.connected, s)
  | .storeConnected value, _, s => some ((), { s with connected := value })
  | .lock, _, s => if s.mutex = none then some ((), { s with mutex := some t }) else none
  | .unlock, _, s => some ((), { s with mutex := none })
  | .loadConn, _, s => some (s.conn, s)
  | .clearConn, _, s => some ((), { s with conn := none })
  | .connStatus c, _, s => some (s.statusOf c, s)
  | .closeConn c, _, s => some ((), s.closeConn c)
  | .drainConn c, choice, s =>
    some (choice, if choice = .ok then s.setStatus c .drainingSubs [] else s)
  | .setupOptions, choice, s => some (choice, s)
  | .connectConn, choice, s => some (choice, if choice = .ok then s.openConn else s)
  | .destroySubscriptions, _, s => some ((), { s with subscriptions := [] })
  | .subscribeConn _ _, choice, s => some (choice, s)
  | .pushSubscription subscription, _, s =>
    some ((), { s with subscriptions := s.subscriptions ++ [subscription] })
  | .createMsg, choice, s => some (choice, s)
  | .requestMsg _, choice, s => some (choice, s)
  | .publishMsg _, choice, s => some (choice, s)
  | .getVars, _, s => some (s.vars, s)
  | .modifyVars f, _, s => some ((), { s with vars := f s.vars })
  | .ask, choice, s => some (choice == .ok, s)

/-- The actions that read without changing anything. -/
def Action.Quiet : Action V → Prop
  | .loadShutdown | .loadConnected | .loadConn | .connStatus _ | .setupOptions
  | .subscribeConn _ _ | .createMsg | .requestMsg _ | .publishMsg _ | .getVars | .ask => True
  | _ => False

theorem performAction_quiet {t : ThreadId} {a : Action V} (ha : a.Quiet) {choice : NatsStatus}
    {s s' : Client V} {r : a.Result} (h : performAction t a choice s = some (r, s')) : s' = s := by
  cases a <;> simp only [Action.Quiet] at ha <;>
    exact (congrArg Prod.snd (Option.some.inj h)).symm

end Perform

/-! ## The functions of the client -/

section Functions

variable {V : Type}

/-- One action as a program. -/
def act (a : Action V) : Prog V a.Result := Program.perform a

/-- `mark_disconnected`. -/
def markDisconnected : Prog V Unit := act (.storeConnected false)

/-- `acquire_connection`. -/
def acquireConnection : Prog V (Option ℕ) := do
  act .lock
  match ← act .loadConn with
  | none =>
    markDisconnected
    act .unlock
    return none
  | some c =>
    act .unlock
    return some c

/-- `is_connected`. -/
def isConnected : Prog V Bool := do
  if ← act .loadConnected then
    act .lock
    match ← act .loadConn with
    | none =>
      act .unlock
      return false
    | some c =>
      let status ← act (.connStatus c)
      act .unlock
      return status == .connected
  else return false

/-- `destroy_connection_locked`. -/
def destroyConnectionLocked : Prog V Unit := do
  match ← act .loadConn with
  | none => return ()
  | some c =>
    act (.closeConn c)
    act .clearConn

/-- `cleanup`, that is `disconnect_locked`; the options object it also destroys is
read by nothing here. -/
def cleanup : Prog V Unit := do
  act .destroySubscriptions
  destroyConnectionLocked
  act (.storeConnected false)

/-- `m_state.m_connected && m_connection.m_conn != nullptr`. -/
def connectedAndConn : Prog V Bool := do
  if ← act .loadConnected then
    return (← act .loadConn).isSome
  else return false

/-- The attempts of `connect`. -/
def connectAttempts : ℕ → Prog V Bool
  | 0 => return false
  | attempts + 1 => do
    if ← act .loadShutdown then return false
    else
      act .lock
      if ← connectedAndConn then
        act .unlock
        return true
      else
        cleanup
        if (← act .setupOptions) = .ok then
          if (← act .connectConn) = .ok then
            act (.storeConnected true)
            act .unlock
            return true
          else
            act (.storeConnected false)
            cleanup
            act .unlock
            connectAttempts attempts
        else
          act .unlock
          return false

/-- `connect`. -/
def connect (maxAttempts : ℤ) : Prog V Bool := do
  if ← connectedAndConn then return true
  else connectAttempts (max 1 maxAttempts).toNat

/-- `kDefaultConnectAttempts`. -/
def defaultConnectAttempts : ℤ := 3

/-- `ensure_connected`. -/
def ensureConnected : Prog V Bool := do
  if ← act .loadShutdown then return false
  else if ← isConnected then return true
  else connect 1

/-- `prepare_message_with_headers`: the connection to send the message on. -/
def prepareMessageWithHeaders : Prog V (Option ℕ) := do
  if ← ensureConnected then
    match ← acquireConnection with
    | none => return none
    | some c =>
      if (← act .createMsg) = .ok then return some c
      else return none
  else return none

/-- `request_impl`: whether a reply came. -/
def requestImpl : Prog V Bool := do
  match ← prepareMessageWithHeaders with
  | none => return false
  | some c =>
    match ← act (.requestMsg c) with
    | .ok => return true
    | .noResponders => return false
    | .timeout | .other =>
      markDisconnected
      return false

/-- Sending on a connection, the common end of the two publish functions. -/
def publishOn (c : ℕ) : Prog V Bool := do
  if (← act (.publishMsg c)) = .ok then return true
  else
    markDisconnected
    return false

/-- `publish`. -/
def publish : Prog V Bool := do
  if ← ensureConnected then
    match ← acquireConnection with
    | none => return false
    | some c => publishOn c
  else return false

/-- `publish_with_headers`. -/
def publishWithHeaders : Prog V Bool := do
  match ← prepareMessageWithHeaders with
  | none => return false
  | some c => publishOn c

/-- `subscribe`. -/
def subscribe (subject : Bytes) : Prog V Bool := do
  if ← ensureConnected then
    act .lock
    match ← act .loadConn with
    | none =>
      markDisconnected
      act .unlock
      return false
    | some c =>
      if (← act (.subscribeConn subject c)) = .ok then
        act (.pushSubscription ⟨subject, c⟩)
        act .unlock
        return true
      else
        act .unlock
        return false
  else return false

/-- `unsubscribe`; without subscriptions there is nothing to destroy. -/
def unsubscribe : Prog V Unit := do
  act .lock
  act .destroySubscriptions
  act .unlock

/-- `disconnect`. -/
def disconnect : Prog V Unit := do
  act .lock
  cleanup
  act .unlock

/-- `drain`. -/
def drain : Prog V Unit := do
  act .lock
  match ← act .loadConn with
  | none => cleanup
  | some c =>
    let _ ← act (.drainConn c)
    cleanup
  act .unlock

/-- `check_connection`. -/
def checkConnection : Prog V Bool := do
  if ← ensureConnected then
    act .lock
    match ← act .loadConn with
    | none =>
      markDisconnected
      act .unlock
      return false
    | some c =>
      let status ← act (.connStatus c)
      if status = .closed ∨ status = .disconnected ∨ status = .reconnecting then
        act (.storeConnected false)
        act .unlock
        return false
      else
        act .unlock
        return true
  else return false

/-- The destructor. -/
def destroy : Prog V Unit := do
  act .storeShutdown
  disconnect

/-! ## Callbacks -/

/-- `on_disconnected`; the connection it is called for is not looked at. -/
def onDisconnected : Prog V Unit := do
  if ← act .loadShutdown then return ()
  else markDisconnected

/-- `on_reconnected`; the connection is only read for its URL, which is logged. -/
def onReconnected : Prog V Unit := do
  if ← act .loadShutdown then return ()
  else act (.storeConnected true)

/-- `on_closed`. -/
def onClosed : Prog V Unit := act (.storeConnected false)

/-- The callback of each kind. -/
def callback : CallbackKind → Prog V Unit
  | .disconnected => onDisconnected
  | .reconnected => onReconnected
  | .closed => onClosed

end Functions

/-! ## The system -/

/-- The public functions of the client. -/
inductive Call where
  | connect (maxAttempts : ℤ)
  | ensureConnected
  | request
  | publish
  | publishWithHeaders
  | subscribe (subject : Bytes)
  | checkConnection
  | unsubscribe
  | disconnect
  | drain
  | destroy

/-- The program of a call; its result goes to the caller. -/
def Call.body {V : Type} : Call → Prog V Unit
  | .connect maxAttempts => do let _ ← Nats.connect maxAttempts
  | .ensureConnected => do let _ ← Nats.ensureConnected
  | .request => do let _ ← requestImpl
  | .publish => do let _ ← Nats.publish
  | .publishWithHeaders => do let _ ← Nats.publishWithHeaders
  | .subscribe subject => do let _ ← Nats.subscribe subject
  | .checkConnection => do let _ ← Nats.checkConnection
  | .unsubscribe => Nats.unsubscribe
  | .disconnect => Nats.disconnect
  | .drain => Nats.drain
  | .destroy => Nats.destroy

/-- What the library does to a connection on its own. -/
inductive LibraryEvent where
  /-- The server is lost; the library starts to reconnect. -/
  | dropped (c : ℕ)
  /-- The server is found again. -/
  | reconnected (c : ℕ)
  /-- The connection closes, after a drain or an error that cannot be recovered. -/
  | closed (c : ℕ)

/-- The effect of what the library does. -/
def libraryStep {V : Type} : LibraryEvent → Client V → Option (Client V)
  | .dropped c, s =>
    if s.statusOf c = .connected then some (s.setStatus c .reconnecting [.disconnected]) else none
  | .reconnected c, s =>
    if s.statusOf c = .reconnecting then some (s.setStatus c .connected [.reconnected]) else none
  | .closed c, s => if s.statusOf c = .closed then none else some (s.closeConn c)

/-- What the library does: one connection gets a status, and the status is
`CONNECTED` only after a reconnect. -/
theorem libraryStep_cases {V : Type} {e : LibraryEvent} {s s' : Client V}
    (h : libraryStep e s = some s') :
    ∃ c status kinds, s' = s.setStatus c status kinds ∧
      (status = .connected → e = .reconnected c) := by
  cases e with
  | dropped c =>
    obtain ⟨-, h⟩ := Option.ite_none_right_eq_some.mp h
    exact ⟨c, .reconnecting, _, (Option.some.inj h).symm, nofun⟩
  | reconnected c =>
    obtain ⟨-, h⟩ := Option.ite_none_right_eq_some.mp h
    exact ⟨c, .connected, _, (Option.some.inj h).symm, fun _ => rfl⟩
  | closed c =>
    obtain ⟨-, h⟩ := Option.ite_none_left_eq_some.mp h
    exact ⟨c, .closed, _, (Option.some.inj h).symm, nofun⟩

/-- The callback thread takes up the posted callback at an index. -/
def takeCallback {V : Type} (index : ℕ) (s : Client V) : Option (Prog V Unit × Client V) :=
  s.posted[index]?.map fun cb =>
    (callback cb.kind, { s with posted := s.posted.eraseIdx index, delivering := some cb })

/-- Callers start their calls and the callback thread delivers nothing. -/
def startCalls {V K : Type} (body : ℕ → K → Option (Prog V Unit)) :
    ThreadId → K → Client V → Option (Prog V Unit × Client V)
  | .caller n, call, s => (body n call).map fun p => (p, s)
  | .async, _, _ => none

/-- Callers start their calls, the callback thread the delivery of a posted
callback. -/
def startWithCallbacks {V K : Type} (body : ℕ → K → Option (Prog V Unit)) :
    ThreadId → K ⊕ ℕ → Client V → Option (Prog V Unit × Client V)
  | .caller n, .inl call, s => (body n call).map fun p => (p, s)
  | .async, .inr index, s => takeCallback index s
  | .caller _, .inr _, _ => none
  | .async, .inl _, _ => none

/-- **The client in use**: the threads start calls, the library handles the
connections. -/
def clientSystem {V K : Type} (start : ThreadId → K → Client V → Option (Prog V Unit × Client V)) :
    System ThreadId (Action V) Action.Result NatsStatus (Client V) K LibraryEvent where
  perform := performAction
  start := start
  env := libraryStep

/-- All threads idle around a client. -/
def idleConfig {V : Type} (s : Client V) : Config ThreadId (Action V) Action.Result (Client V) :=
  ⟨s, fun _ => .done ()⟩

/-- A thread goes on for a number of actions, all answered with `NATS_OK`. -/
def steps {K : Type} (t : ThreadId) (count : ℕ) : List (Event ThreadId NatsStatus K LibraryEvent) :=
  List.replicate count (.act t .ok)

end Nats
end HttpDataDiod
