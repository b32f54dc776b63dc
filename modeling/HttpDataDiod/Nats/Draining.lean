import HttpDataDiod.Lib.Interleaving

/-!
# Subscriptions that are torn down

Model of how `NatsClient` tears its subscriptions down, with the queues of the
library.  A message that the library has received waits in the queue of its
subscription until the subscription's own thread takes it and runs the callback.
`natsSubscription_Drain` and `natsConnection_DrainTimeout` start a drain and return;
a thread of the library completes it later.  `natsSubscription_Destroy` closes the
subscription, whose thread then takes no further message.

The model follows the subscriptions only.  Whether the client finds itself connected
is the environment's choice, and so is what the library's calls answer.  The entry and
the return of the functions that tear down are marked, so that what had been received
before and what had been handled after them can be compared.

* `LibrarySub`, `SubEvent`: a subscription and what the library's threads do with it.
* `unsubscribe`, `drain`, `disconnectLocked`: the client's functions, under the
  source's names.
* `drainingSystem`: callers and library, interleaved.
-/

namespace HttpDataDiod
namespace Nats
namespace Draining

open Interleaving

/-! ## Subscriptions of the library -/

/-- Where the thread of a subscription stands with the message it has taken. -/
inductive Phase where
  | idle
  /-- The message is out of the queue, `nats_message_callback` has not begun. -/
  | taken (id : ℕ)
  /-- Inside `nats_message_callback`. -/
  | running (id : ℕ)
  deriving DecidableEq

/-- The message in the hands of the thread. -/
def Phase.message : Phase → List ℕ
  | .idle => []
  | .taken id | .running id => [id]

/-- A `natsSubscription` and the callback holder that the client keeps for it.
Messages are numbered as they are received. -/
structure LibrarySub where
  queue : List ℕ
  phase : Phase
  /-- `SUB_DRAIN_STARTED`: a thread of the library is going to drain it. -/
  drainStarted : Bool
  draining : Bool
  closed : Bool
  /-- `m_callback` has not been reset. -/
  holder : Bool
  deriving DecidableEq

namespace LibrarySub

/-- A new subscription. -/
def new : LibrarySub :=
  { queue := [], phase := .idle, drainStarted := false, draining := false, closed := false,
    holder := true }

/-- The messages received and not handled yet. -/
def pending (sub : LibrarySub) : List ℕ := sub.queue ++ sub.phase.message

/-- The subscription is closed, and there is nothing left to handle. -/
def Done (sub : LibrarySub) : Prop := sub.closed = true ∧ sub.pending = []

end LibrarySub

/-- What the threads of the library do with one subscription. -/
inductive SubEvent where
  /-- A message arrives. -/
  | receive
  /-- `natsSub_drain`: no more messages are expected. -/
  | flushed
  /-- The thread of the subscription takes the first message of the queue. -/
  | take
  /-- It enters the callback. -/
  | enter
  /-- The callback returns. -/
  | finish
  /-- It finds a drained queue empty and closes the subscription. -/
  | drained
  /-- The drain has taken too long, and the subscription is closed by force. -/
  | expired
  deriving DecidableEq

/-- The effect on the subscription; `next` is the number of a message that arrives. -/
def SubEvent.apply (next : ℕ) : SubEvent → LibrarySub → Option LibrarySub
  | .receive, sub =>
    if sub.closed then none else some { sub with queue := sub.queue ++ [next] }
  | .flushed, sub =>
    if sub.closed || !sub.drainStarted then none else some { sub with draining := true }
  | .take, sub =>
    match sub.closed, sub.phase, sub.queue with
    | false, .idle, id :: rest => some { sub with queue := rest, phase := .taken id }
    | _, _, _ => none
  | .enter, sub =>
    match sub.phase with
    | .taken id => some { sub with phase := .running id }
    | _ => none
  | .finish, sub =>
    match sub.phase with
    | .running _ => some { sub with phase := .idle }
    | _ => none
  | .drained, sub =>
    if !sub.closed && sub.draining && sub.pending.isEmpty then some { sub with closed := true }
    else none
  | .expired, sub =>
    if sub.closed || !sub.drainStarted then none else some { sub with closed := true }

/-! ## The shared state -/

/-- A call that has returned. -/
structure Returned where
  /-- How many messages had been received when it was entered. -/
  before : ℕ
  /-- The messages handled when it returned. -/
  handled : List ℕ
  deriving DecidableEq

/-- The members of the client that hold its subscriptions, and the library. -/
structure Shared where
  /-- The holder of `m_connection.m_mutex`. -/
  mutex : Option ℕ
  /-- `m_connection.m_conn` is not null. -/
  conn : Bool
  /-- Every subscription created so far. -/
  subs : List LibrarySub
  /-- `m_subscriptions`, as positions in `subs`. -/
  listed : List ℕ
  /-- How many messages were received. -/
  received : ℕ
  /-- The messages whose callback has returned. -/
  handled : List ℕ
  /-- How many messages had been received when the thread entered its function. -/
  before : ℕ → ℕ
  /-- The functions that have returned. -/
  returned : List Returned

/-- A new client. -/
def Shared.initial : Shared :=
  { mutex := none, conn := false, subs := [], listed := [], received := 0, handled := [],
    before := fun _ => 0, returned := [] }

/-- The accesses to the shared state and the calls of the library. -/
inductive DrainAction where
  | lock
  | unlock
  /-- A function that tears down is entered. -/
  | enter
  /-- It returns. -/
  | leave
  /-- Reading `m_subscriptions`. -/
  | loadSubscriptions
  /-- `natsSubscription_Drain`. -/
  | drainSub (k : ℕ)
  /-- `natsSubscription_Destroy`. -/
  | destroySub (k : ℕ)
  /-- `m_callback.reset()`. -/
  | resetCallback (k : ℕ)
  /-- `m_subscriptions.clear()`. -/
  | clearSubscriptions
  /-- Reading `m_conn`. -/
  | loadConn
  /-- `natsConnection_DrainTimeout`. -/
  | drainConn
  /-- `natsConnection_Close` and `natsConnection_Destroy`. -/
  | closeConn
  /-- `m_conn = nullptr`. -/
  | clearConn
  /-- `natsConnection_Connect`. -/
  | connectConn
  /-- `natsConnection_Subscribe` and `natsConnection_QueueSubscribe`. -/
  | subscribeConn
  /-- `m_subscriptions.push_back`. -/
  | pushSubscription (k : ℕ)
  /-- A test of something outside the model, answered by the environment. -/
  | ask

/-- What an action answers. -/
@[reducible] def DrainAction.Result : DrainAction → Type
  | .loadSubscriptions => List ℕ
  | .loadConn | .connectConn | .ask => Bool
  | .subscribeConn => Option ℕ
  | .lock | .unlock | .enter | .leave | .drainSub _ | .destroySub _ | .resetCallback _
  | .clearSubscriptions | .drainConn | .closeConn | .clearConn | .pushSubscription _ => Unit

/-- A program of the client. -/
abbrev DrainProg := Program DrainAction DrainAction.Result

namespace Shared

/-- One subscription changes. -/
def modifySub (s : Shared) (k : ℕ) (f : LibrarySub → LibrarySub) : Shared :=
  { s with subs := s.subs.modify k f }

/-- The connection is closed, and with it all subscriptions. -/
def closeAll (s : Shared) : Shared :=
  { s with subs := s.subs.map fun sub => { sub with closed := true } }

end Shared

/-- The effect of an action of thread `t`; `choice` is what the library answers. -/
def performDrain (t : ℕ) :
    (a : DrainAction) → Bool → Shared → Option (a.Result × Shared)
  | .lock, _, s => if s.mutex = none then some ((), { s with mutex := some t }) else none
  | .unlock, _, s => some ((), { s with mutex := none })
  | .enter, _, s => some ((), { s with before := Function.update s.before t s.received })
  | .leave, _, s =>
    some ((), { s with returned := s.returned ++ [⟨s.before t, s.handled⟩] })
  | .loadSubscriptions, _, s => some (s.listed, s)
  | .drainSub k, ok, s =>
    some ((), if ok then s.modifySub k fun sub => { sub with drainStarted := true } else s)
  | .destroySub k, _, s => some ((), s.modifySub k fun sub => { sub with closed := true })
  | .resetCallback k, _, s => some ((), s.modifySub k fun sub => { sub with holder := false })
  | .clearSubscriptions, _, s => some ((), { s with listed := [] })
  | .loadConn, _, s => some (s.conn, s)
  | .drainConn, ok, s =>
    some ((), if ok then
      { s with subs := s.subs.map fun sub => { sub with drainStarted := true } } else s)
  | .closeConn, _, s => some ((), s.closeAll)
  | .clearConn, _, s => some ((), { s with conn := false })
  | .connectConn, ok, s => some (ok, if ok then { s with conn := true } else s)
  | .subscribeConn, ok, s =>
    if ok then some (some s.subs.length, { s with subs := s.subs ++ [LibrarySub.new] })
    else some (none, s)
  | .pushSubscription k, _, s => some ((), { s with listed := s.listed ++ [k] })
  | .ask, ok, s => some (ok, s)

/-! ## The functions of the client -/

/-- One action as a program. -/
def act (a : DrainAction) : DrainProg a.Result := Program.perform a

/-- `drain_subscription_locked`; the statuses are only logged. -/
def drainSubscriptionLocked : List ℕ → DrainProg Unit
  | [] => return ()
  | k :: rest => do
    act (.drainSub k)
    drainSubscriptionLocked rest

/-- The loop of `destroy_subscription_locked`. -/
def destroyEach : List ℕ → DrainProg Unit
  | [] => return ()
  | k :: rest => do
    act (.destroySub k)
    act (.resetCallback k)
    destroyEach rest

/-- `destroy_subscription_locked`. -/
def destroySubscriptionLocked (subscriptions : List ℕ) : DrainProg Unit := do
  destroyEach subscriptions
  act .clearSubscriptions

/-- `destroy_connection_locked`. -/
def destroyConnectionLocked : DrainProg Unit := do
  if ← act .loadConn then
    act .closeConn
    act .clearConn
  else return ()

/-- `disconnect_locked`. -/
def disconnectLocked : DrainProg Unit := do
  act .enter
  let subscriptions ← act .loadSubscriptions
  drainSubscriptionLocked subscriptions
  destroySubscriptionLocked subscriptions
  destroyConnectionLocked
  act .leave

/-- `unsubscribe`. -/
def unsubscribe : DrainProg Unit := do
  act .enter
  act .lock
  let subscriptions ← act .loadSubscriptions
  if subscriptions.isEmpty then
    act .unlock
    act .leave
  else
    drainSubscriptionLocked subscriptions
    destroySubscriptionLocked subscriptions
    act .unlock
    act .leave

/-- The connection's part of `drain`. -/
def drainConnection : DrainProg Unit := do
  if ← act .loadConn then act .drainConn
  else return ()

/-- `drain`. -/
def drain : DrainProg Unit := do
  act .enter
  act .lock
  let subscriptions ← act .loadSubscriptions
  drainSubscriptionLocked subscriptions
  drainConnection
  destroySubscriptionLocked subscriptions
  destroyConnectionLocked
  act .unlock
  act .leave

/-- `disconnect`. -/
def disconnect : DrainProg Unit := do
  act .lock
  disconnectLocked
  act .unlock

/-- One attempt of `connect`: unless the client is connected, the old connection is
cleaned up and a new one opened. -/
def connectAttempt : DrainProg Unit := do
  act .lock
  if ← act .ask then act .unlock
  else
    disconnectLocked
    if ← act .connectConn then act .unlock
    else
      disconnectLocked
      act .unlock

/-- `subscribe`, on a client that is connected. -/
def subscribe : DrainProg Unit := do
  act .lock
  if ← act .loadConn then
    match ← act .subscribeConn with
    | none => act .unlock
    | some k =>
      act (.pushSubscription k)
      act .unlock
  else act .unlock

/-! ## The system -/

/-- What the threads call. -/
inductive DrainCall where
  | connectAttempt
  | subscribe
  | unsubscribe
  | drain
  | disconnect

/-- The program of a call. -/
def DrainCall.body : DrainCall → DrainProg Unit
  | .connectAttempt => Draining.connectAttempt
  | .subscribe => Draining.subscribe
  | .unsubscribe => Draining.unsubscribe
  | .drain => Draining.drain
  | .disconnect => Draining.disconnect

/-- What the library does on its own. -/
inductive DrainEvent where
  | sub (k : ℕ) (e : SubEvent)
  /-- The connection closes. -/
  | connClosed

/-- The effect of what the library does. -/
def drainStep : DrainEvent → Shared → Option Shared
  | .sub k e, s =>
    (s.subs[k]?).bind fun sub => (e.apply s.received sub).map fun sub' =>
      { s with
        subs := s.subs.set k sub'
        received := if e = .receive then s.received + 1 else s.received
        handled := if e = .finish then s.handled ++ sub.phase.message else s.handled }
  | .connClosed, s => some s.closeAll

/-- **The subscriptions in use**: the threads call the client, the library delivers. -/
def drainingSystem :
    System ℕ DrainAction DrainAction.Result Bool Shared DrainCall DrainEvent where
  perform := performDrain
  start _ call s := some (call.body, s)
  env := drainStep

/-- The configurations of the system. -/
abbrev DrainConfig := Config ℕ DrainAction DrainAction.Result Shared

/-- The events of the system. -/
abbrev DrainSystemEvent := Event ℕ Bool DrainCall DrainEvent

/-- A new client, with no call under way. -/
def newClient : DrainConfig := ⟨Shared.initial, fun _ => .done ()⟩

end Draining
end Nats
end HttpDataDiod
