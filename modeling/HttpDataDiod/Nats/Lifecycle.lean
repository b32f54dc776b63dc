import HttpDataDiod.Nats.Protocol

/-!
# Late callbacks

The callbacks of `NatsClient` do not look at the connection they are called for:
a `Closed` of a connection that was replaced long ago clears `m_connected` all
the same.  A stale callback does no harm only while the client has no connection,
for then `m_connected` is already false.

* `lifecycle`: what the threads keep: without a connection `m_connected` is false,
  except between the two stores that end a teardown.
* `staleCallbacks_keep_connected`: if every stale callback writes only then, none
  of them changes `m_connected`, in any run.
* `staleClosed_disconnects`: a run in which a late `Closed` disconnects the
  connection that came after.
-/

namespace HttpDataDiod
namespace Nats

open Interleaving Transition ByteText

/-- The client under all its calls, with its callbacks delivered. -/
def lifecycleSystem :
    System ThreadId (Action Unit) Action.Result NatsStatus (Client Unit) (Call ⊕ ℕ)
      LibraryEvent :=
  clientSystem (startWithCallbacks fun _ call => some call.body)

/-- Without a connection `m_connected` is false. -/
def FlagDown (s : Client Unit) : Prop := s.conn = none → s.connected = false

/-- The callback thread is about to write `m_connected`, for a connection that is
not the current one. -/
def StaleWrite (t : ThreadId) (a : Action Unit) (s : Client Unit) (value : Bool) : Prop :=
  t = .async ∧ a = .storeConnected value ∧ ∃ cb, s.delivering = some cb ∧ s.conn ≠ some cb.conn

/-- A stale callback writes only `false`, only while the client has no connection,
and not between the two last stores of a teardown, `m_conn = nullptr` and
`m_connected = false`. -/
def HarmlessWrite (heads : ThreadId → Option (Action Unit)) (value : Bool) (s : Client Unit) :
    Prop :=
  value = false ∧ s.conn = none ∧
    ∀ u, s.mutex = some u → heads u ≠ some (.storeConnected false)

/-- The actions of the callbacks. -/
def IsCallbackAction : Action Unit → Prop
  | .loadShutdown | .storeConnected _ => True
  | _ => False

/-- **What the threads keep.** -/
def lifecycle : Contract ThreadId (Action Unit) (Client Unit) LibraryEvent where
  inv s := s.mutex = none → FlagDown s
  rely t s s' :=
    MutexRely (fun s s' => s'.conn = s.conn ∧ (FlagDown s → FlagDown s')) t s s' ∧
    (t = .async → s'.delivering = s.delivering)
  check t a s :=
    (s.mutex = some t → a ≠ .storeConnected false → FlagDown s) ∧
    (t = .async → IsCallbackAction a)
  idle t s := s.mutex ≠ some t
  condition heads t a s := ∀ value, StaleWrite t a s value → HarmlessWrite heads value s
  envCondition _ _ := True

namespace Lifecycle

variable {t : ThreadId}

/-- The places of the client's functions. -/
def places (t : ThreadId) : Places Unit where
  idle s := s.mutex ≠ some t
  held s := s.mutex = some t ∧ FlagDown s
  heldAt c s := s.mutex = some t ∧ s.conn = some c
  down s := s.mutex = some t ∧ FlagDown s
  wiped s := s.mutex = some t ∧ FlagDown s
  wipedAt c s := s.mutex = some t ∧ s.conn = some c
  shut s := s.mutex = some t ∧ s.conn ≠ none
  cleared s := s.mutex = some t ∧ s.conn = none
  off s := s.mutex = some t ∧ s.conn = none ∧ s.connected = false
  fresh s := s.mutex = some t ∧ s.conn ≠ none
  pushed _ s := s.mutex = some t ∧ FlagDown s
  subscribed _ s := s.mutex ≠ some t

theorem rely_of_same {u : ThreadId} {s s' : Client Unit} (hmutex : s'.mutex = s.mutex)
    (hconn : s'.conn = s.conn) (hdown : FlagDown s → FlagDown s')
    (hdelivering : s'.delivering = s.delivering) : lifecycle.rely u s s' :=
  ⟨mutexRely_of_same hmutex ⟨hconn, hdown⟩, fun _ => hdelivering⟩

theorem flagDown_of_conn {s : Client Unit} {c : ℕ} (h : s.conn = some c) : FlagDown s := by
  intro hnone
  rw [h] at hnone
  cases hnone

theorem stable_idle : lifecycle.Stable t (lifecycle.idle t) :=
  fun _ _ hs hrely => hrely.1.1 hs

theorem stable_held : lifecycle.Stable t fun s => s.mutex = some t ∧ FlagDown s := by
  rintro s s' ⟨hmutex, hdown⟩ ⟨⟨-, hrely⟩, -⟩
  obtain ⟨hmutex', -, hflag⟩ := hrely hmutex
  exact ⟨hmutex', hflag hdown⟩

/-- Whatever is known of the connection stays true for the holder of the mutex. -/
theorem stable_conn (p : Option ℕ → Prop) :
    lifecycle.Stable t fun s => s.mutex = some t ∧ p s.conn := by
  rintro s s' ⟨hmutex, hp⟩ ⟨⟨-, hrely⟩, -⟩
  obtain ⟨hmutex', hconn, -⟩ := hrely hmutex
  exact ⟨hmutex', by rw [hconn]; exact hp⟩

theorem stable_off :
    lifecycle.Stable t fun s => s.mutex = some t ∧ s.conn = none ∧ s.connected = false := by
  rintro s s' ⟨hmutex, hconn, hflag⟩ ⟨⟨-, hrely⟩, -⟩
  obtain ⟨hmutex', hconn', hdown⟩ := hrely hmutex
  rw [hconn] at hconn'
  exact ⟨hmutex', hconn', hdown (fun _ => hflag) hconn'⟩

/-! ## The actions of a caller -/

section Callers

variable {K : Type} {start : ThreadId → K → Client Unit → Option (Prog Unit Unit × Client Unit)}

/-- Reading keeps a place at which `FlagDown` holds. -/
theorem rule_quiet {P : Client Unit → Prop} {a : Action Unit} (ha : a.Quiet)
    (ht : t = .async → IsCallbackAction a) {Q : a.Result → Client Unit → Prop}
    (hdown : ∀ s, P s → s.mutex = some t → FlagDown s)
    (hstable : ∀ r, lifecycle.Stable t (Q r))
    (hread : ∀ choice s r, P s → performAction t a choice s = some (r, s) → Q r s) :
    ActionRule (clientSystem start) lifecycle t P a Q :=
  actionRule_of_quiet ha (fun _ _ => rely_of_same rfl rfl (fun h => h) rfl)
    (fun s _ hP => ⟨fun hmutex _ => hdown s hP hmutex, ht⟩) hstable
    hread

/-- An action of the holder of the mutex, up to giving it back. -/
theorem rule_holder (ht : t ≠ .async) {P : Client Unit → Prop} {a : Action Unit}
    {Q : a.Result → Client Unit → Prop} (f : a.Result → Client Unit → Client Unit)
    (hf : ∀ choice s, ∃ r, performAction t a choice s = some (r, f r s))
    (hP : ∀ s, P s → s.mutex = some t ∧ (a ≠ .storeConnected false → FlagDown s))
    (hstable : ∀ r, lifecycle.Stable t (Q r))
    (hmutex : ∀ r s, P s → (f r s).mutex = some t ∨ (f r s).mutex = none ∧ FlagDown (f r s))
    (hdelivering : ∀ r s, (f r s).delivering = s.delivering) (hQ : ∀ r s, P s → Q r (f r s)) :
    ActionRule (clientSystem start) lifecycle t P a Q := by
  refine actionRule_of_update f hf
    (fun s _ hs => ⟨fun _ hne => (hP s hs).2 hne, fun h => absurd h ht⟩)
    hstable ?_
  intro heads s r _ hs _
  refine ⟨fun hnone => ?_, fun u hu => ?_, hQ r s hs⟩
  · rcases hmutex r s hs with hheld | ⟨-, hdown⟩
    · rw [hheld] at hnone
      cases hnone
    · exact hdown
  · exact ⟨mutexRely_of_holder (hP s hs).1 ((hmutex r s hs).imp_right And.left) hu,
      fun _ => hdelivering r s⟩

/-- `mark_disconnected` of a caller. -/
theorem rule_mark (ht : t ≠ .async) {P : Client Unit → Prop} (hstable : lifecycle.Stable t P)
    (hP : ∀ s, P s → P { s with connected := false }) :
    ActionRule (clientSystem start) lifecycle t P (.storeConnected false) fun _ => P := by
  refine actionRule_of_update (fun _ s => { s with connected := false }) (fun _ s => ⟨(), rfl⟩)
    (fun s _ _ => ⟨fun _ hne => absurd rfl hne, fun h => absurd h ht⟩) (fun _ => hstable) ?_
  intro heads s _ _ hs _
  exact ⟨fun _ _ => rfl, fun u _ => rely_of_same rfl rfl (fun _ _ => rfl) rfl, hP s hs⟩

/-- **The places of the client's functions are kept.** -/
theorem rules (ht : t ≠ .async) :
    TeardownRules (clientSystem start) lifecycle t (places t) where
  idle_quiet a ha := rule_quiet ha (absurd · ht) (fun s hs hmutex => absurd hmutex hs)
    (fun _ => stable_idle)
    fun _ _ _ hs _ => hs
  idle_mark := rule_mark ht stable_idle fun _ hs => hs
  idle_lock := by
    refine actionRule_of_lock (fun s _ hs => ⟨fun hmutex => absurd hmutex hs, fun h => absurd h ht⟩)
      stable_held ?_
    intro s hinv hs hnone
    exact ⟨nofun, fun u hu => ⟨mutexRely_of_lock hnone hu, fun _ => rfl⟩, rfl, hinv hnone⟩
  held_quiet a ha := rule_quiet ha (absurd · ht) (fun s hs _ => hs.2) (fun _ => stable_held)
    fun _ _ _ hs _ => hs
  held_loadConnected := by
    refine rule_quiet (a := .loadConnected) trivial (absurd · ht) (fun s hs _ => hs.2) (fun r => ?_)
      fun _ s r hs _ => ?_
    · cases r <;> exact stable_held
    · cases r <;> exact hs
  held_loadConn := by
    refine rule_quiet (a := .loadConn) trivial (absurd · ht) (fun s hs _ => hs.2) (fun r => ?_)
      fun _ s r hs hread => ?_
    · cases r with
      | none => exact stable_held
      | some c => exact stable_conn (· = some c)
    · obtain rfl : s.conn = r := congrArg Prod.fst (Option.some.inj hread)
      cases hconn : s.conn with
      | none => exact hs
      | some c => exact ⟨hs.1, hconn⟩
  held_mark := rule_mark ht stable_held fun _ hs => ⟨hs.1, fun _ => rfl⟩
  held_unlock := by
    refine rule_holder ht (fun _ s => { s with mutex := none }) (fun _ s => ⟨(), rfl⟩)
      (fun s hs => ⟨hs.1, fun _ => hs.2⟩)
      (fun _ => stable_idle) (fun _ s hs => .inr ⟨rfl, hs.2⟩) (fun _ _ => rfl) fun _ _ _ => nofun
  heldAt_held c s hs := ⟨hs.1, flagDown_of_conn hs.2⟩
  heldAt_quiet c a ha := rule_quiet ha (absurd · ht) (fun s hs _ => flagDown_of_conn hs.2)
    (fun _ => stable_conn (· = some c)) fun _ _ _ hs _ => hs
  heldAt_push subject c := by
    refine rule_holder ht (fun _ s => { s with subscriptions := s.subscriptions ++ [⟨subject, c⟩] })
      (fun _ s => ⟨(), rfl⟩)
      (fun s hs => ⟨hs.1, fun _ => flagDown_of_conn hs.2⟩) (fun _ => stable_held)
      (fun _ s hs => .inl hs.1)
      (fun _ _ => rfl) fun _ s hs => ⟨hs.1, flagDown_of_conn hs.2⟩
  pushed_unlock subject := by
    refine rule_holder ht (fun _ s => { s with mutex := none }) (fun _ s => ⟨(), rfl⟩)
      (fun s hs => ⟨hs.1, fun _ => hs.2⟩)
      (fun _ => stable_idle) (fun _ s hs => .inr ⟨rfl, hs.2⟩) (fun _ _ => rfl) fun _ _ _ => nofun
  subscribed_idle subject s hs := hs
  down_held s hs := hs
  down_destroy := by
    refine rule_holder ht (fun _ s => { s with subscriptions := [] }) (fun _ s => ⟨(), rfl⟩)
      (fun s hs => ⟨hs.1, fun _ => hs.2⟩) (fun _ => stable_held) (fun _ s hs => .inl hs.1)
      (fun _ _ => rfl)
      fun _ s hs => hs
  wiped_loadConn := by
    refine rule_quiet (a := .loadConn) trivial (absurd · ht) (fun s hs _ => hs.2) (fun r => ?_)
      fun _ s r hs hread => ?_
    · cases r with
      | none => exact stable_conn (· = none)
      | some c => exact stable_conn (· = some c)
    · obtain rfl : s.conn = r := congrArg Prod.fst (Option.some.inj hread)
      cases hconn : s.conn with
      | none => exact ⟨hs.1, hconn⟩
      | some c => exact ⟨hs.1, hconn⟩
  wipedAt_close c := by
    refine rule_holder ht (fun _ s => s.closeConn c) (fun _ s => ⟨(), rfl⟩)
      (fun s hs => ⟨hs.1, fun _ => flagDown_of_conn hs.2⟩) (fun _ => stable_conn (· ≠ none))
      (fun _ s hs => .inl hs.1) (fun _ _ => rfl) fun _ s hs => ⟨hs.1, ?_⟩
    · change s.conn ≠ none
      rw [hs.2]
      exact nofun
  shut_clear := by
    refine rule_holder ht (fun _ s => { s with conn := none }) (fun _ s => ⟨(), rfl⟩)
      (fun s hs => ⟨hs.1, fun _ hnone => absurd hnone hs.2⟩) (fun _ => stable_conn (· = none))
      (fun _ s hs => .inl hs.1) (fun _ _ => rfl) fun _ s hs => ⟨hs.1, rfl⟩
  cleared_mark := by
    refine rule_holder ht (fun _ s => { s with connected := false }) (fun _ s => ⟨(), rfl⟩)
      (fun s hs => ⟨hs.1, fun hne => absurd rfl hne⟩) (fun _ => stable_off)
      (fun _ s hs => .inl hs.1)
      (fun _ _ => rfl) fun _ s hs => ⟨hs.1, hs.2, rfl⟩
  off_cleared s hs := ⟨hs.1, hs.2.1⟩
  off_down s hs := ⟨hs.1, fun _ => hs.2.2⟩
  off_quiet a ha := rule_quiet ha (absurd · ht) (fun s hs _ _ => hs.2.2) (fun _ => stable_off)
    fun _ _ _ hs _ => hs
  off_connect := by
    refine rule_holder ht (a := .connectConn) (fun r s => if r = .ok then s.openConn else s)
      (fun choice s => ⟨choice, rfl⟩) (fun s hs => ⟨hs.1, fun _ _ => hs.2.2⟩) (fun r => ?_)
      (fun r s hs => ?_) (fun r s => ?_) fun r s hs => ?_
    all_goals by_cases hr : r = .ok
    · rw [if_pos hr]
      exact stable_conn (· ≠ none)
    · rw [if_neg hr]
      exact stable_off
    · rw [if_pos hr]
      exact .inl hs.1
    · rw [if_neg hr]
      exact .inl hs.1
    · rw [if_pos hr]
      rfl
    · rw [if_neg hr]
    · rw [if_pos hr, if_pos hr]
      exact ⟨hs.1, nofun⟩
    · rw [if_neg hr, if_neg hr]
      exact hs
  fresh_mark := by
    refine rule_holder ht (fun _ s => { s with connected := true }) (fun _ s => ⟨(), rfl⟩)
      (fun s hs => ⟨hs.1, fun _ hnone => absurd hnone hs.2⟩) (fun _ => stable_held)
      (fun _ s hs => .inl hs.1)
      (fun _ _ => rfl) fun _ s hs => ⟨hs.1, fun hnone => absurd hnone hs.2⟩
  held_destroy :=
    rule_holder ht (fun _ s => { s with subscriptions := [] }) (fun _ s => ⟨(), rfl⟩)
      (fun s hs => ⟨hs.1, fun _ => hs.2⟩) (fun _ => stable_held) (fun _ s hs => .inl hs.1)
      (fun _ _ => rfl) fun _ s hs => hs
  wiped_held s hs := hs
  heldAt_drain c := by
    refine rule_holder ht (a := .drainConn c)
      (fun r s => if r = .ok then s.setStatus c .drainingSubs [] else s)
      (fun choice s => ⟨choice, rfl⟩) (fun s hs => ⟨hs.1, fun _ => flagDown_of_conn hs.2⟩)
      (fun _ => stable_held) (fun r s hs => ?_) (fun r s => ?_) fun r s hs => ?_
    all_goals by_cases hr : r = .ok
    · rw [if_pos hr]
      exact .inl hs.1
    · rw [if_neg hr]
      exact .inl hs.1
    · rw [if_pos hr]
      rfl
    · rw [if_neg hr]
    · rw [if_pos hr]
      exact ⟨hs.1, flagDown_of_conn hs.2⟩
    · rw [if_neg hr]
      exact ⟨hs.1, flagDown_of_conn hs.2⟩
  idle_shutdown := by
    refine actionRule_of_update (fun _ s => { s with shutdown := true }) (fun _ s => ⟨(), rfl⟩)
      (fun s _ hs => ⟨fun hmutex => absurd hmutex hs, fun h => absurd h ht⟩)
      (fun _ => stable_idle) ?_
    intro heads s _ hinv hs _
    exact ⟨hinv, fun u _ => rely_of_same rfl rfl (fun h => h) rfl, hs⟩

end Callers

/-! ## The callback thread -/

/-- The callback thread at work on a callback. -/
def delivers (cb : Callback) (s : Client Unit) : Prop :=
  s.mutex ≠ some .async ∧ s.delivering = some cb

theorem stable_delivers (cb : Callback) : lifecycle.Stable .async (delivers cb) := by
  rintro s s' ⟨hmutex, hcb⟩ ⟨hrely, hdelivering⟩
  exact ⟨hrely.1 hmutex, (hdelivering rfl).trans hcb⟩

section Callbacks

variable {K : Type} {start : ThreadId → K → Client Unit → Option (Prog Unit Unit × Client Unit)}

/-- A callback's write: for the current connection it may be anything, for an
older one it is harmless. -/
theorem rule_write (cb : Callback) (value : Bool) :
    ActionRule (clientSystem start) lifecycle .async (delivers cb) (.storeConnected value)
      fun _ => lifecycle.idle .async := by
  refine actionRule_of_update (fun _ s => { s with connected := value }) (fun _ s => ⟨(), rfl⟩)
    (fun s _ hs => ⟨fun hmutex => absurd hmutex hs.1, fun _ => trivial⟩) (fun _ => stable_idle) ?_
  intro heads s _ _ ⟨hmutex, hcb⟩ hcondition
  have hdown : s.conn = none → value = false := by
    intro hnone
    have hstale : StaleWrite .async (.storeConnected value) s value := by
      refine ⟨rfl, rfl, cb, hcb, ?_⟩
      rw [hnone]
      exact nofun
    exact (hcondition value hstale).1
  exact ⟨fun _ => hdown, fun u _ => rely_of_same rfl rfl (fun _ => hdown) rfl, hmutex⟩

theorem rule_loadShutdown (cb : Callback) :
    ActionRule (clientSystem start) lifecycle .async (delivers cb) .loadShutdown
      fun _ => delivers cb :=
  rule_quiet (a := .loadShutdown) trivial (fun _ => trivial) (fun _ hs hmutex => absurd hmutex hs.1)
    (fun _ => stable_delivers cb) fun _ _ _ hs _ => hs

end Callbacks

/-! ## Runs -/

theorem kept : lifecycle.Kept lifecycleSystem where
  idle_stable _ := stable_idle
  start t call s p s' hinv hidle hstart := by
    cases t with
    | caller n =>
      cases call with
      | inr index => cases hstart
      | inl call =>
        cases hstart
        exact ⟨hinv, fun u _ => rely_of_same rfl rfl (fun h => h) rfl, _, stable_idle, hidle,
          outline_teardown (rules (t := .caller n) nofun) call⟩
    | async =>
      cases call with
      | inl call => cases hstart
      | inr index =>
        obtain ⟨cb, -, heq⟩ := Option.map_eq_some_iff.mp hstart
        cases heq
        exact ⟨hinv, fun u hu => ⟨mutexRely_of_same rfl ⟨rfl, fun h => h⟩, fun h => absurd h hu⟩,
          delivers cb, stable_delivers cb, ⟨hidle, rfl⟩,
          outline_callback (rule_loadShutdown cb) (rule_write cb) (fun _ hs => hs.1) cb.kind⟩
  env e s s' hinv _ hstep := by
    obtain ⟨c, status, kinds, rfl, -⟩ := libraryStep_cases hstep
    exact ⟨hinv, fun u => rely_of_same rfl rfl (fun h => h) rfl⟩

theorem good_initial : lifecycle.Good lifecycleSystem (idleConfig (Client.initial ())) where
  inv _ _ := rfl
  outline t := ⟨lifecycle.idle t, stable_idle, nofun, fun _ hs => hs⟩

/-- In a good configuration, a harmless stale write finds `m_connected` false. -/
theorem connected_of_harmlessWrite
    {c : Config ThreadId (Action Unit) Action.Result (Client Unit)}
    (hgood : lifecycle.Good lifecycleSystem c) {value : Bool}
    (hharmless : HarmlessWrite c.heads value c.shared) : c.shared.connected = value := by
  obtain ⟨rfl, hnone, hheads⟩ := hharmless
  cases hmutex : c.shared.mutex with
  | none => exact hgood.inv hmutex hnone
  | some u =>
    cases hhead : c.heads u with
    | none => exact absurd hmutex (hgood.idle hhead)
    | some b =>
      have hb : b ≠ .storeConnected false := by
        rintro rfl
        exact hheads u hmutex hhead
      exact (hgood.check hhead).1 hmutex hb hnone

end Lifecycle

/-- The configurations of the client under all its calls. -/
abbrev LifecycleConfig := Config ThreadId (Action Unit) Action.Result (Client Unit)

/-- The events of the client under all its calls. -/
abbrev LifecycleEvent := Event ThreadId NatsStatus (Call ⊕ ℕ) LibraryEvent

/-- A new client, with no call and no callback under way. -/
def newClient : LifecycleConfig := idleConfig (Client.initial ())

/-- If the callback thread is about to write for a connection that is not the
current one, the write is harmless. -/
def StaleWritesHarmless (c : LifecycleConfig) (e : LifecycleEvent) : Prop :=
  ∀ choice a value, e = .act .async choice → c.heads .async = some a →
    StaleWrite .async a c.shared value → HarmlessWrite c.heads value c.shared

/-- A step of a callback whose connection is not the current one leaves
`m_connected`, and what `is_connected()` answers, as they are. -/
def StaleCallbackKeeps (c : LifecycleConfig) (e : LifecycleEvent) : Prop :=
  ∀ choice cb c', e = .act .async choice → c.shared.delivering = some cb →
    c.shared.conn ≠ some cb.conn → lifecycleSystem.step c e = some c' →
    c'.shared.connected = c.shared.connected ∧
      c'.shared.isConnectedNow = c.shared.isConnectedNow

theorem meets_of_staleWritesHarmless {c : LifecycleConfig} {e : LifecycleEvent}
    (h : StaleWritesHarmless c e) : lifecycle.Meets c e := by
  cases e with
  | start t call => trivial
  | env e => trivial
  | act t choice =>
    intro a ha value hstale
    obtain rfl : t = .async := hstale.1
    exact h choice a value rfl ha hstale

/-- A stale callback writes what `m_connected` already is, or only reads. -/
theorem staleCallbackKeeps_of_good {c : LifecycleConfig} {e : LifecycleEvent}
    (hgood : lifecycle.Good lifecycleSystem c) (h : StaleWritesHarmless c e) :
    StaleCallbackKeeps c e := by
  rintro choice cb c' rfl hcb hstale hstep
  rcases System.step_cases hstep with
    ⟨t, call, p, s, ⟨⟩, -⟩ | ⟨t, choice', a, next, r, s, ⟨⟩, ht, hact, rfl⟩ | ⟨ev, s, ⟨⟩, -⟩
  have hhead : c.heads .async = some a := by
    rw [Config.heads, ht]
    rfl
  obtain rfl : s = c.shared := by
    cases a with
    | loadShutdown =>
      cases hact
      rfl
    | storeConnected value =>
      have hvalue : c.shared.connected = value :=
        Lifecycle.connected_of_harmlessWrite hgood
          (h choice _ value rfl hhead ⟨rfl, rfl, cb, hcb, hstale⟩)
      cases hact
      rw [← hvalue]
    | _ => exact ((hgood.check hhead).2 rfl).elim
  exact ⟨rfl, rfl⟩

/-- **Late callbacks do not change `m_connected`**, in any run and under any order
of delivery, if every callback of a connection that is no longer the current one
writes only while the client has no connection. -/
theorem staleCallbacks_keep_connected (es : List LifecycleEvent)
    (h : StepsMeet lifecycleSystem.step StaleWritesHarmless newClient es) :
    StepsMeet lifecycleSystem.step StaleCallbackKeeps newClient es :=
  stepsMeet_of_stepsMeet
    (fun _ _ _ hgood hmeets hstep =>
      lifecycle.good_step Lifecycle.kept hgood (meets_of_staleWritesHarmless hmeets) hstep)
    (fun _ _ hgood hmeets => staleCallbackKeeps_of_good hgood hmeets) Lifecycle.good_initial h

/-! ## A late callback of a replaced connection -/

/-- The client connects, loses its server and is told so; a caller opens a second
connection, which closes the first, and the `Closed` of the first is taken up. -/
def lateClosed : List LifecycleEvent :=
  ([.start (.caller 0) (.inl (.connect 1))] : List LifecycleEvent) ++ steps (.caller 0) 11 ++
  ([.env (.dropped 0), .start .async (.inr 0)] : List LifecycleEvent) ++ steps .async 2 ++
  ([.start (.caller 0) (.inl .ensureConnected)] : List LifecycleEvent) ++ steps (.caller 0) 15 ++
  ([.start .async (.inr 0)] : List LifecycleEvent)

/-- A `Closed` of the first connection, delivered when the second is in use,
disconnects the client. -/
theorem staleClosed_disconnects :
    ¬ ∀ es, StepsMeet lifecycleSystem.step StaleCallbackKeeps newClient es := by
  intro hall
  have hobserved : ((run lifecycleSystem.step newClient lateClosed).bind fun c =>
      (lifecycleSystem.step c (.act .async .ok)).map fun c' =>
        (c.shared.delivering, c.shared.conn, c.shared.connected, c'.shared.connected)) =
      some (some ⟨.closed, 0⟩, some 1, true, false) := by rfl
  obtain ⟨c, hc, hnext⟩ := Option.bind_eq_some_iff.mp hobserved
  obtain ⟨c', hc', hvalues⟩ := Option.map_eq_some_iff.mp hnext
  simp only [Prod.mk.injEq] at hvalues
  obtain ⟨hdelivering, hconn, hbefore, hafter⟩ := hvalues
  have hkeeps := (hall (lateClosed ++ [.act .async .ok])).of_run hc
  obtain ⟨hsame, -⟩ := hkeeps .ok ⟨.closed, 0⟩ c' rfl hdelivering (by rw [hconn]; decide) hc'
  rw [hbefore, hafter] at hsame
  cases hsame

/-- The client connects and disconnects, and both callbacks of the closed
connection are delivered while there is no other. -/
def closedWhileDown : List LifecycleEvent :=
  ([.start (.caller 0) (.inl (.connect 1))] : List LifecycleEvent) ++ steps (.caller 0) 11 ++
  ([.start (.caller 0) (.inl .disconnect)] : List LifecycleEvent) ++ steps (.caller 0) 7 ++
  ([.start .async (.inr 0)] : List LifecycleEvent) ++ steps .async 2 ++
  ([.start .async (.inr 0)] : List LifecycleEvent) ++ steps .async 1

/-- A test that the callback thread writes only for the current connection, or
`false` while there is none and the mutex is free. -/
def harmlessTest (c : LifecycleConfig) : LifecycleEvent → Bool
  | .act .async _ =>
    match c.heads .async, c.shared.delivering with
    | some (.storeConnected value), some cb =>
      c.shared.conn == some cb.conn ||
        (!value && c.shared.conn == none && c.shared.mutex == none)
    | _, _ => true
  | _ => true

theorem staleWritesHarmless_of_test {c : LifecycleConfig} {e : LifecycleEvent}
    (h : harmlessTest c e = true) : StaleWritesHarmless c e := by
  rintro choice a value rfl hhead ⟨-, rfl, cb, hcb, hstale⟩
  simp only [harmlessTest, hhead, hcb, Bool.or_eq_true, Bool.and_eq_true, beq_iff_eq, hstale,
    false_or, Bool.not_eq_true'] at h
  obtain ⟨⟨hvalue, hconn⟩, hmutex⟩ := h
  refine ⟨hvalue, hconn, fun u hu => ?_⟩
  rw [hmutex] at hu
  cases hu

theorem staleCallbacks_keep_connected_while_down :
    (run lifecycleSystem.step newClient closedWhileDown).isSome = true ∧
      StepsMeet lifecycleSystem.step StaleCallbackKeeps newClient closedWhileDown :=
  ⟨by rfl, staleCallbacks_keep_connected closedWhileDown
    (stepsMeet_of_stepsCheck (fun _ _ => staleWritesHarmless_of_test) (by rfl))⟩

end Nats
end HttpDataDiod
