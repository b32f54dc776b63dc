import HttpDataDiod.Nats.Protocol

/-!
# The DB gateway's request, watched

`RequestHandler::route_db_request` answers 503 or 504 when its NATS request brought
no reply, and it decides which by asking `is_connected()` afterwards.  The answer of
`is_connected()` starts with `m_connected`, a flag that every failed request of every
thread clears, the gateway's own included, and not only a lost connection.

The gateway's part of the handler is run here beside all other users of the client,
and watched: the watch records whether the connection was down during a call, how its
request ended, and whether `m_connected` was last cleared on a connection that was up.

* `routeDbRequest`: the gateway's request and the classification of its failure.
* `Watch`, `observed`, `gatewaySystem`: what the watch records, and the system.
* `answering`: what the threads keep.
* `observed_spec`: what one action keeps.
* `rules`: the places of the client's functions are kept.
-/

namespace HttpDataDiod
namespace Proxy
namespace DbGateway

open Interleaving Transition ByteText Nats

/-! ## The gateway -/

/-- An answer of the gateway. -/
structure Answer where
  /-- The status of a rejected request; none if the worker's reply was passed on. -/
  rejected : Option ℕ
  /-- How `natsConnection_RequestMsg` ended, if it was called. -/
  ended : Option NatsStatus
  /-- The connection was not `CONNECTED` at some point of the call. -/
  down : Bool
  deriving DecidableEq

/-- What the watch records. -/
structure Watch where
  /-- The connection was not `CONNECTED` at some point of the thread's call. -/
  down : ThreadId → Bool
  /-- How the request of the thread's call ended. -/
  ended : ThreadId → Option NatsStatus
  /-- The thread's call got no reply and goes on to ask for the reason. -/
  asking : ThreadId → Bool
  /-- `m_connected` was last written `false`, while the connection was `CONNECTED`. -/
  clearedUp : Bool
  /-- The answers given so far. -/
  answers : List Answer

/-- The client and its watch. -/
abbrev Gateway := Client Watch

namespace Watch

/-- The thread's call begins. -/
def begin (t : ThreadId) (up : Bool) (w : Watch) : Watch :=
  { w with
    down := Function.update w.down t !up
    ended := Function.update w.ended t none
    asking := Function.update w.asking t false }

/-- The thread's call has no reply. -/
def ask (t : ThreadId) (w : Watch) : Watch :=
  { w with asking := Function.update w.asking t true }

/-- The thread's call is answered. -/
def answer (t : ThreadId) (rejected : Option ℕ) (w : Watch) : Watch :=
  { w with
    asking := Function.update w.asking t false
    answers := w.answers ++ [⟨rejected, w.ended t, w.down t⟩] }

end Watch

/-- `reply.m_data` is not empty; whether a reply carries data is up to the worker. -/
def replyHasData (replied : Bool) : Prog Watch Bool :=
  if replied then act .ask else return false

/-- The end of `route_db_request`: the request, and the answer. -/
def routeDbRequest (t : ThreadId) : Prog Watch Unit := do
  let replied ← requestImpl
  if ← replyHasData replied then act (.modifyVars (Watch.answer t none))
  else
    act (.modifyVars (Watch.ask t))
    if ← isConnected then act (.modifyVars (Watch.answer t (some 504)))
    else act (.modifyVars (Watch.answer t (some 503)))

/-! ## The watch -/

/-- The current connection is `CONNECTED`. -/
def isUp (s : Gateway) : Bool := s.conn.any fun c => s.statusOf c == .connected

/-- What an action of thread `t` adds to the watch, by the state before it. -/
def noted (t : ThreadId) (a : Action Watch) (choice : NatsStatus) (s : Gateway) (w : Watch) :
    Watch :=
  match a with
  | .storeConnected value => { w with clearedUp := !value && isUp s }
  | .requestMsg _ => { w with ended := Function.update w.ended t (some choice) }
  | _ => w

/-- Every call under way sees a connection that is down. -/
def look (s : Gateway) : Gateway :=
  if isUp s then s else { s with vars := { s.vars with down := fun _ => true } }

/-- The state after an action, as the watch records it. -/
def observed (t : ThreadId) (a : Action Watch) (choice : NatsStatus) (s s' : Gateway) : Gateway :=
  look { s' with vars := noted t a choice s s'.vars }

/-- What the users of the client start. -/
inductive GatewayCall where
  | routeDbRequest
  | client (call : Call)

/-- The handlers route database requests, the other users call the client without
tearing it down, and the callback thread delivers callbacks. -/
def startGateway : ThreadId → GatewayCall ⊕ ℕ → Gateway → Option (Prog Watch Unit × Gateway)
  | .caller n, .inl .routeDbRequest, s =>
    some (routeDbRequest (.caller n), { s with vars := s.vars.begin (.caller n) (isUp s) })
  | .caller _, .inl (.client call), s => if call.isTeardown then none else some (call.body, s)
  | .async, .inr index, s => takeCallback index s
  | .caller _, .inr _, _ => none
  | .async, .inl _, _ => none

/-- **The gateway**, the other users of its client, the callbacks and the library. -/
def gatewaySystem :
    System ThreadId (Action Watch) Action.Result NatsStatus Gateway (GatewayCall ⊕ ℕ)
      LibraryEvent where
  perform t a choice s :=
    (performAction t a choice s).map fun rs => (rs.1, observed t a choice s rs.2)
  start := startGateway
  env e s := (libraryStep e s).map look

/-- A new client, with no call under way. -/
def newGateway : Config ThreadId (Action Watch) Action.Result Gateway :=
  idleConfig (Client.initial ⟨fun _ => true, fun _ => none, fun _ => false, false, []⟩)

/-- The answer names the right reason: 503 only if the connection was down during the
call, and 504 after a timeout on a connection that was up throughout. -/
def Answer.Right (a : Answer) : Prop :=
  (a.rejected = some 503 → a.down = true) ∧
  (a.ended = some .timeout → a.down = false → a.rejected = some 504)

/-! ## What the threads keep -/

/-- Since the thread's call found the client connected: the connection has been down
during the call, or `m_connected` is set, or it was cleared on a connection that was
up. -/
def Seen (t : ThreadId) (s : Gateway) : Prop :=
  s.vars.down t = true ∨ s.connected = true ∨ s.vars.clearedUp = true

/-- What no action takes from a call. -/
structure Onward (t : ThreadId) (s s' : Gateway) : Prop where
  down : s.vars.down t = true → s'.vars.down t = true
  seen : Seen t s → Seen t s'

/-- The watch has seen the connection down if it is, and all answers were right. -/
structure Watched (s : Gateway) : Prop where
  running : s.shutdown = false
  down : isUp s = false → ∀ t, s.vars.down t = true
  right : ∀ a ∈ s.vars.answers, a.Right

/-- What a thread relies on. -/
structure WatchRely (t : ThreadId) (s s' : Gateway) : Prop where
  mutex : MutexRely (fun s s' => s'.conn = s.conn) t s s'
  onward : Onward t s s'
  ended : s'.vars.ended t = s.vars.ended t
  asking : s'.vars.asking t = s.vars.asking t

/-- If the thread asks for the reason of a missing reply and finds `m_connected` clear,
it was not cleared on a connection that was up. -/
def AsksRightly (t : ThreadId) (a : Action Watch) (s : Gateway) : Prop :=
  a = .loadConnected → s.vars.asking t = true → s.connected = false → s.vars.clearedUp = false

/-- **What the threads keep.** -/
def answering : Contract ThreadId (Action Watch) Gateway LibraryEvent where
  inv := Watched
  rely := WatchRely
  check _ _ _ := True
  idle t s := s.mutex ≠ some t
  condition _ := AsksRightly
  envCondition _ _ := True

namespace Answering

variable {t u : ThreadId} {s s' : Gateway}

/-! ## What an action does to the watch -/

theorem look_eq (s : Gateway) : ∃ d, look s = { s with vars := { s.vars with down := d } } ∧
    (∀ u, s.vars.down u = true → d u = true) ∧ (isUp s = false → ∀ u, d u = true) := by
  by_cases hup : isUp s = true
  · refine ⟨s.vars.down, if_pos hup, fun _ hu => hu, fun hdown => ?_⟩
    rw [hup] at hdown
    cases hdown
  · exact ⟨fun _ => true, if_neg hup, fun _ _ => rfl, fun _ _ => rfl⟩

/-- The actions that neither shut the client down nor assign to the watch. -/
def Harmless : Action Watch → Prop
  | .storeShutdown | .modifyVars _ => False
  | _ => True

theorem performAction_frame {a : Action Watch} (ha : Harmless a) {choice : NatsStatus}
    {r : a.Result} (h : performAction t a choice s = some (r, s')) :
    s'.shutdown = s.shutdown ∧ s'.vars = s.vars ∧
      (s'.connected = s.connected ∨ ∃ value, a = .storeConnected value) := by
  cases a with
  | storeShutdown | modifyVars => exact ha.elim
  | storeConnected value =>
    cases h
    exact ⟨rfl, rfl, .inr ⟨value, rfl⟩⟩
  | lock =>
    obtain ⟨-, h⟩ := Option.ite_none_right_eq_some.mp h
    cases h
    exact ⟨rfl, rfl, .inl rfl⟩
  | drainConn c | connectConn =>
    cases h
    split <;> exact ⟨rfl, rfl, .inl rfl⟩
  | _ =>
    cases h
    exact ⟨rfl, rfl, .inl rfl⟩

/-- A call that has seen the client connected keeps having seen it. -/
theorem seen_noted (hinv : Watched s) {a : Action Watch} (ha : Harmless a) {choice : NatsStatus}
    {r : a.Result} (h : performAction t a choice s = some (r, s')) (hseen : Seen u s) :
    Seen u { s' with vars := noted t a choice s s'.vars } := by
  obtain ⟨-, hvars, hconnected⟩ := performAction_frame ha h
  cases a with
  | storeConnected value =>
    cases h
    cases value with
    | true => exact .inr (.inl rfl)
    | false =>
      cases hup : isUp s with
      | true => exact .inr (.inr hup)
      | false => exact .inl (hinv.down hup u)
  | storeShutdown | modifyVars => exact ha.elim
  | _ =>
    have hsame : s'.connected = s.connected := hconnected.resolve_right nofun
    rw [Seen, ← hvars, ← hsame] at hseen
    exact hseen

theorem noted_frame (t : ThreadId) (a : Action Watch) (choice : NatsStatus) (s : Gateway)
    (w : Watch) : (noted t a choice s w).down = w.down ∧
      (noted t a choice s w).asking = w.asking ∧ (noted t a choice s w).answers = w.answers ∧
      ∀ u, u ≠ t → (noted t a choice s w).ended u = w.ended u := by
  cases a with
  | requestMsg c => exact ⟨rfl, rfl, rfl, fun u hu => Function.update_of_ne hu ..⟩
  | _ => exact ⟨rfl, rfl, rfl, fun _ _ => rfl⟩

/-- What every harmless action keeps. -/
structure Keeps (t : ThreadId) (a : Action Watch) (choice : NatsStatus) (s s' : Gateway) :
    Prop where
  watched : Watched s'
  onward : ∀ u, Onward u s s'
  asking : s'.vars.asking = s.vars.asking
  ended : s'.vars.ended = (noted t a choice s s.vars).ended

/-- **One action, watched.** -/
theorem observed_spec (hinv : Watched s) {a : Action Watch} (ha : Harmless a)
    {choice : NatsStatus} {r : a.Result} (h : performAction t a choice s = some (r, s')) :
    ∃ w, observed t a choice s s' = { s' with vars := w } ∧
      Keeps t a choice s { s' with vars := w } := by
  obtain ⟨hshutdown, hvars, -⟩ := performAction_frame ha h
  obtain ⟨d, hlook, hraise, hdown⟩ := look_eq { s' with vars := noted t a choice s s'.vars }
  obtain ⟨hnoted, hasking, hanswers, -⟩ := noted_frame t a choice s s.vars
  rw [hvars] at hlook hraise
  refine ⟨_, (congrArg look (by rw [hvars])).trans hlook,
    ⟨hshutdown.trans hinv.running, hdown, fun b hb => hinv.right b (hanswers ▸ hb)⟩,
    fun u => ⟨fun hu => hraise u ((congrFun hnoted u).trans hu), fun hu => ?_⟩, hasking, rfl⟩
  rcases seen_noted hinv ha h hu with hseen | hseen | hseen
  · rw [hvars] at hseen
    exact .inl (hraise u hseen)
  · exact .inr (.inl hseen)
  · rw [hvars] at hseen
    exact .inr (.inr hseen)

theorem Keeps.rely {a : Action Watch} {choice : NatsStatus} (h : Keeps t a choice s s')
    (hmutex : MutexRely (fun s s' => s'.conn = s.conn) u s s') (hu : u ≠ t) :
    answering.rely u s s' where
  mutex := hmutex
  onward := h.onward u
  ended := by
    rw [h.ended]
    exact (noted_frame t a choice s s.vars).2.2.2 u hu
  asking := congrFun h.asking u

/-! ## Rules for single actions -/

/-- Only the mutex actions touch the mutex. -/
theorem performAction_mutex {a : Action Watch} (hlock : a ≠ .lock) (hunlock : a ≠ .unlock)
    {choice : NatsStatus} {r : a.Result} (h : performAction t a choice s = some (r, s')) :
    s'.mutex = s.mutex := by
  cases a with
  | lock => exact absurd rfl hlock
  | unlock => exact absurd rfl hunlock
  | drainConn c | connectConn =>
    cases h
    split <;> rfl
  | _ =>
    cases h
    rfl

/-- A harmless action; what the mutex gives to the others is for the caller to show. -/
theorem rule_of {P : Gateway → Prop} {a : Action Watch} (ha : Harmless a)
    {Q : a.Result → Gateway → Prop} (hstable : ∀ r, answering.Stable t (Q r))
    (hmutex : ∀ choice s r s' u, P s → performAction t a choice s = some (r, s') → u ≠ t →
      MutexRely (fun s s' => s'.conn = s.conn) u s s')
    (hQ : ∀ choice s r s' w, Watched s → P s → AsksRightly t a s →
      performAction t a choice s = some (r, s') → Keeps t a choice s { s' with vars := w } →
      Q r { s' with vars := w }) :
    ActionRule gatewaySystem answering t P a Q where
  check _ _ _ := trivial
  stable := hstable
  keeps := by
    intro heads s choice r s' hinv hP _ hcondition hperform
    obtain ⟨⟨r', s₁⟩, hact, heq⟩ := Option.map_eq_some_iff.mp hperform
    obtain ⟨rfl, rfl⟩ := Prod.mk.inj heq
    obtain ⟨w, hw, hkeeps⟩ := observed_spec hinv ha hact
    rw [hw]
    exact ⟨hkeeps.watched, fun u hu => hkeeps.rely (hmutex choice s r' s₁ u hP hact hu) hu,
      hQ choice s r' s₁ w hinv hP hcondition hact hkeeps⟩

/-- An action under the mutex. -/
theorem rule_held {P : Gateway → Prop} {a : Action Watch} (ha : Harmless a) (hlock : a ≠ .lock)
    (hunlock : a ≠ .unlock) {Q : a.Result → Gateway → Prop} (hP : ∀ s, P s → s.mutex = some t)
    (hstable : ∀ r, answering.Stable t (Q r))
    (hQ : ∀ choice s r s' w, Watched s → P s → performAction t a choice s = some (r, s') →
      s'.mutex = some t → Keeps t a choice s { s' with vars := w } → Q r { s' with vars := w }) :
    ActionRule gatewaySystem answering t P a Q := by
  have hmutex : ∀ {choice s r s'}, P s → performAction t a choice s = some (r, s') →
      s'.mutex = some t :=
    fun hs hact => (performAction_mutex hlock hunlock hact).trans (hP _ hs)
  exact rule_of ha hstable
    (fun _ s _ _ _ hs hact hu => mutexRely_of_holder (hP s hs) (.inl (hmutex hs hact)) hu)
    fun choice s r s' w hinv hs _ hact hkeeps =>
      hQ choice s r s' w hinv hs hact (hmutex hs hact) hkeeps

/-- An action that leaves the mutex and the connection alone. -/
theorem rule_free {P : Gateway → Prop} {a : Action Watch} (ha : Harmless a)
    {Q : a.Result → Gateway → Prop} (hstable : ∀ r, answering.Stable t (Q r))
    (hsame : ∀ choice s r s', performAction t a choice s = some (r, s') →
      s'.mutex = s.mutex ∧ s'.conn = s.conn)
    (hQ : ∀ choice s r s' w, Watched s → P s → AsksRightly t a s →
      performAction t a choice s = some (r, s') → s'.mutex = s.mutex →
      Keeps t a choice s { s' with vars := w } → Q r { s' with vars := w }) :
    ActionRule gatewaySystem answering t P a Q :=
  rule_of ha hstable
    (fun choice s r s' _ _ hact _ => by
      obtain ⟨hmutex, hconn⟩ := hsame choice s r s' hact
      exact mutexRely_of_same hmutex hconn)
    fun choice s r s' w hinv hs hasks hact hkeeps =>
      hQ choice s r s' w hinv hs hasks hact (hsame choice s r s' hact).1 hkeeps

/-! ## The client's functions -/

/-- Knowledge of a thread that no action takes from it. -/
def Lasting (t : ThreadId) (K : Gateway → Prop) : Prop := ∀ s s', K s → Onward t s s' → K s'

/-- The places of the client's functions: only the mutex matters. -/
def places (t : ThreadId) (K : Gateway → Prop) : Places Watch where
  idle s := s.mutex ≠ some t ∧ K s
  held s := s.mutex = some t ∧ K s
  heldAt _ s := s.mutex = some t ∧ K s
  down s := s.mutex = some t ∧ K s
  wiped s := s.mutex = some t ∧ K s
  wipedAt _ s := s.mutex = some t ∧ K s
  shut s := s.mutex = some t ∧ K s
  cleared s := s.mutex = some t ∧ K s
  off s := s.mutex = some t ∧ K s
  fresh s := s.mutex = some t ∧ K s
  pushed _ s := s.mutex = some t ∧ K s
  subscribed _ s := s.mutex ≠ some t ∧ K s

variable {K : Gateway → Prop}

theorem stable_free (hK : answering.Stable t K) :
    answering.Stable t fun s => s.mutex ≠ some t ∧ K s :=
  fun s s' hs hrely => ⟨hrely.mutex.1 hs.1, hK s s' hs.2 hrely⟩

theorem stable_held (hK : answering.Stable t K) :
    answering.Stable t fun s => s.mutex = some t ∧ K s :=
  fun s s' hs hrely => ⟨(hrely.mutex.2 hs.1).1, hK s s' hs.2 hrely⟩

theorem Lasting.stable (hK : Lasting t K) : answering.Stable t K :=
  fun s s' hs hrely => hK s s' hs hrely.onward

theorem harmless_of_quiet {a : Action Watch} (ha : a.Quiet) : Harmless a := by
  cases a <;> trivial

theorem rule_quiet_free (hK : Lasting t K) {a : Action Watch} (ha : a.Quiet) :
    ActionRule gatewaySystem answering t (fun s => s.mutex ≠ some t ∧ K s) a
      fun _ s => s.mutex ≠ some t ∧ K s := by
  refine rule_free (harmless_of_quiet ha) (fun _ => stable_free hK.stable)
    (fun choice s r s' hact => ?_) fun choice s r s' w _ hs _ hact hmutex hkeeps => ?_
  · obtain rfl := performAction_quiet ha hact
    exact ⟨rfl, rfl⟩
  · exact ⟨fun heq => hs.1 (hmutex.symm.trans heq), hK _ _ hs.2 (hkeeps.onward t)⟩

/-- An action under the mutex keeps what is known. -/
theorem rule_known (hK : Lasting t K) {a : Action Watch} (ha : Harmless a) (hlock : a ≠ .lock)
    (hunlock : a ≠ .unlock) :
    ActionRule gatewaySystem answering t (fun s => s.mutex = some t ∧ K s) a
      fun _ s => s.mutex = some t ∧ K s :=
  rule_held ha hlock hunlock (fun _ hs => hs.1) (fun _ => stable_held hK.stable)
    fun _ _ _ _ _ _ hs _ hmutex hkeeps => ⟨hmutex, hK _ _ hs.2 (hkeeps.onward t)⟩

theorem rule_store (hK : Lasting t K) (value : Bool) :
    ActionRule gatewaySystem answering t (fun s => s.mutex ≠ some t ∧ K s)
      (.storeConnected value) fun _ s => s.mutex ≠ some t ∧ K s := by
  refine rule_free (a := .storeConnected value) trivial (fun _ => stable_free hK.stable)
    (fun choice s r s' hact => ?_) fun choice s r s' w _ hs _ _ hmutex hkeeps => ?_
  · cases hact
    exact ⟨rfl, rfl⟩
  · exact ⟨fun heq => hs.1 (hmutex.symm.trans heq), hK _ _ hs.2 (hkeeps.onward t)⟩

theorem rule_lock (hK : Lasting t K) :
    ActionRule gatewaySystem answering t (fun s => s.mutex ≠ some t ∧ K s) .lock
      fun _ s => s.mutex = some t ∧ K s := by
  refine rule_of (a := .lock) trivial (fun _ => stable_held hK.stable)
    (fun choice s r s' u _ hact hu => ?_) fun choice s r s' w _ hs _ hact hkeeps => ?_
  · obtain ⟨hnone, heq⟩ := Option.ite_none_right_eq_some.mp hact
    cases heq
    exact mutexRely_of_lock hnone hu
  · obtain ⟨-, heq⟩ := Option.ite_none_right_eq_some.mp hact
    cases heq
    exact ⟨rfl, hK _ _ hs.2 (hkeeps.onward t)⟩

theorem rule_unlock (hK : Lasting t K) :
    ActionRule gatewaySystem answering t (fun s => s.mutex = some t ∧ K s) .unlock
      fun _ s => s.mutex ≠ some t ∧ K s := by
  refine rule_of (a := .unlock) trivial (fun _ => stable_free hK.stable)
    (fun choice s r s' u hs hact hu => ?_) fun choice s r s' w _ hs _ hact hkeeps => ?_
  · cases hact
    exact mutexRely_of_holder hs.1 (.inr rfl) hu
  · cases hact
    exact ⟨nofun, hK _ _ hs.2 (hkeeps.onward t)⟩

theorem rule_quiet_held (hK : Lasting t K) {a : Action Watch} (ha : a.Quiet) :
    ActionRule gatewaySystem answering t (fun s => s.mutex = some t ∧ K s) a
      fun _ s => s.mutex = some t ∧ K s := by
  refine rule_known hK (harmless_of_quiet ha) ?_ ?_
  all_goals
    rintro rfl
    exact ha

/-- A place that does not depend on the answer of the action. -/
theorem rule_const {P P' : Gateway → Prop} {a : Action Watch}
    (h : ActionRule gatewaySystem answering t P a fun _ => P') {Q : a.Result → Gateway → Prop}
    (hQ : ∀ r, Q r = P') : ActionRule gatewaySystem answering t P a Q := by
  obtain rfl : Q = fun _ => P' := funext hQ
  exact h

/-- **The places of the client's functions are kept**, whatever a thread knows. -/
theorem rules (hK : Lasting t K) : Rules gatewaySystem answering t (places t K) where
  idle_quiet a ha := rule_quiet_free hK ha
  idle_mark := rule_store hK false
  idle_lock := rule_lock hK
  held_quiet a ha := rule_quiet_held hK ha
  held_loadConnected := by
    refine rule_const (rule_quiet_held hK (a := .loadConnected) trivial) fun r => ?_
    cases r <;> rfl
  held_loadConn := by
    refine rule_const (rule_quiet_held hK (a := .loadConn) trivial) fun r => ?_
    cases r <;> rfl
  held_mark := rule_known hK trivial nofun nofun
  held_unlock := rule_unlock hK
  heldAt_held c s hs := hs
  heldAt_quiet c a ha := rule_quiet_held hK ha
  heldAt_push subject c := rule_known hK trivial nofun nofun
  pushed_unlock subject := rule_unlock hK
  subscribed_idle subject s hs := hs
  down_held s hs := hs
  down_destroy := rule_known hK trivial nofun nofun
  wiped_loadConn := by
    refine rule_const (rule_quiet_held hK (a := .loadConn) trivial) fun r => ?_
    cases r <;> rfl
  wipedAt_close c := rule_known hK trivial nofun nofun
  shut_clear := rule_known hK trivial nofun nofun
  cleared_mark := rule_known hK trivial nofun nofun
  off_cleared s hs := hs
  off_down s hs := hs
  off_quiet a ha := rule_quiet_held hK ha
  off_connect := by
    refine rule_const (rule_known hK (a := .connectConn) trivial nofun nofun) fun r => ?_
    exact ite_self _
  fresh_mark := rule_known hK trivial nofun nofun

end Answering
end DbGateway
end Proxy
end HttpDataDiod
