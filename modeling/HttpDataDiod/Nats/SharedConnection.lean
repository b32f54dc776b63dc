import HttpDataDiod.Nats.Protocol

/-!
# Tearing down the shared connection

`m_connected` stands for two things: that the connection is up, and that the last
request on it went well.  A request that times out clears it although the
connection is up, and the next call of any thread then finds the client not
connected and tears the connection down, under all other requests in flight.

* `sharing`: what the threads keep: outside the critical sections a cleared
  `m_connected` means that the connection is not up.
* `cleanup_notConnected`: if `m_connected` is only cleared while the connection
  is not up, and the library finds its server again only while `m_connected` is
  set, then no `connect()` tears down a connection that is up.
* `timeout_tearsDown`: a run in which a timeout makes another call close the
  connection under a request in flight.
-/

namespace HttpDataDiod
namespace Nats

open Interleaving Transition ByteText

/-- The client under all calls but those that tear it down on purpose, with no
callback delivered. -/
def sharedSystem :
    System ThreadId (Action Unit) Action.Result NatsStatus (Client Unit) Call LibraryEvent :=
  clientSystem (startCalls fun _ call => if call.isTeardown then none else some call.body)

/-- A cleared `m_connected` means that the connection is not up. -/
def FlagTells (s : Client Unit) : Prop := s.connected = false → s.NotConnected

/-- There is no connection, or `m_connected` is cleared and the connection is not
up. -/
def Down (s : Client Unit) : Prop :=
  s.conn = none ∨ (s.connected = false ∧ s.NotConnected)

/-- The actions of `cleanup()` on the subscriptions and the connection. -/
def IsCleanup : Action Unit → Prop
  | .destroySubscriptions | .closeConn _ | .clearConn => True
  | _ => False

/-- In front of an action of `cleanup()` the current connection is not up, and what
is closed is the current connection. -/
def CleanupDown (a : Action Unit) (s : Client Unit) : Prop :=
  IsCleanup a → s.NotConnected ∧ ∀ c, a = .closeConn c → s.conn = some c

/-- What the holder of the mutex relies on. -/
def SharingKeeps (s s' : Client Unit) : Prop :=
  s'.conn = s.conn ∧ (FlagTells s → FlagTells s') ∧ (Down s → Down s')

/-- **What the threads keep.** -/
def sharing : Contract ThreadId (Action Unit) (Client Unit) LibraryEvent where
  inv s := s.mutex = none → FlagTells s
  rely := MutexRely SharingKeeps
  check _ a s := CleanupDown a s
  idle t s := s.mutex ≠ some t
  condition _ _ a s := a = .storeConnected false → s.NotConnected
  envCondition e s := ∀ c, e = .reconnected c → s.conn = some c → s.connected = true

namespace Sharing

variable {t : ThreadId}

theorem notConnected_of_none {s : Client Unit} (h : s.conn = none) : s.NotConnected := by
  intro c hc
  rw [h] at hc
  cases hc

theorem notConnected_of_down {s : Client Unit} (h : Down s) : s.NotConnected := by
  rcases h with h | h
  · exact notConnected_of_none h
  · exact h.2

theorem flagTells_of_down {s : Client Unit} (h : Down s) : FlagTells s :=
  fun _ => notConnected_of_down h

/-- The places of the client's functions. -/
def places (t : ThreadId) : Places Unit where
  idle s := s.mutex ≠ some t
  held s := s.mutex = some t ∧ FlagTells s
  heldAt c s := s.mutex = some t ∧ FlagTells s ∧ s.conn = some c
  down s := s.mutex = some t ∧ Down s
  wiped s := s.mutex = some t ∧ Down s
  wipedAt c s := s.mutex = some t ∧ Down s ∧ s.conn = some c
  shut s := s.mutex = some t ∧ Down s
  cleared s := s.mutex = some t ∧ s.conn = none
  off s := s.mutex = some t ∧ s.conn = none
  fresh s := s.mutex = some t
  pushed _ s := s.mutex = some t ∧ FlagTells s
  subscribed _ s := s.mutex ≠ some t

theorem rely_of_same {u : ThreadId} {s s' : Client Unit} (hmutex : s'.mutex = s.mutex)
    (hconn : s'.conn = s.conn) (htells : FlagTells s → FlagTells s') (hdown : Down s → Down s') :
    sharing.rely u s s' := by
  change MutexRely SharingKeeps u s s'
  exact mutexRely_of_same hmutex ⟨hconn, htells, hdown⟩

theorem stable_idle : sharing.Stable t (sharing.idle t) := fun _ _ hs hrely => hrely.1 hs

theorem stable_held : sharing.Stable t fun s => s.mutex = some t ∧ FlagTells s := by
  rintro s s' ⟨hmutex, htells⟩ ⟨-, hrely⟩
  obtain ⟨hmutex', -, hflag, -⟩ := hrely hmutex
  exact ⟨hmutex', hflag htells⟩

theorem stable_heldAt (c : ℕ) :
    sharing.Stable t fun s => s.mutex = some t ∧ FlagTells s ∧ s.conn = some c := by
  rintro s s' ⟨hmutex, htells, hc⟩ ⟨-, hrely⟩
  obtain ⟨hmutex', hconn, hflag, -⟩ := hrely hmutex
  exact ⟨hmutex', hflag htells, hconn.trans hc⟩

theorem stable_down : sharing.Stable t fun s => s.mutex = some t ∧ Down s := by
  rintro s s' ⟨hmutex, hdown⟩ ⟨-, hrely⟩
  obtain ⟨hmutex', -, -, hdown'⟩ := hrely hmutex
  exact ⟨hmutex', hdown' hdown⟩

theorem stable_downAt (c : ℕ) :
    sharing.Stable t fun s => s.mutex = some t ∧ Down s ∧ s.conn = some c := by
  rintro s s' ⟨hmutex, hdown, hc⟩ ⟨-, hrely⟩
  obtain ⟨hmutex', hconn, -, hdown'⟩ := hrely hmutex
  exact ⟨hmutex', hdown' hdown, hconn.trans hc⟩

theorem stable_off : sharing.Stable t fun s => s.mutex = some t ∧ s.conn = none := by
  rintro s s' ⟨hmutex, hc⟩ ⟨-, hrely⟩
  obtain ⟨hmutex', hconn, -⟩ := hrely hmutex
  exact ⟨hmutex', hconn.trans hc⟩

theorem stable_fresh : sharing.Stable t fun s => s.mutex = some t :=
  fun _ _ hmutex hrely => (hrely.2 hmutex).1

section Rules

variable {K : Type} {start : ThreadId → K → Client Unit → Option (Prog Unit Unit × Client Unit)}

/-- Reading keeps a place. -/
theorem rule_quiet {P : Client Unit → Prop} {a : Action Unit} (ha : a.Quiet)
    {Q : a.Result → Client Unit → Prop} (hstable : ∀ r, sharing.Stable t (Q r))
    (hread : ∀ choice s r, P s → performAction t a choice s = some (r, s) → Q r s) :
    ActionRule (clientSystem start) sharing t P a Q := by
  refine actionRule_of_quiet ha (fun _ _ => rely_of_same rfl rfl (fun h => h) fun h => h)
    (fun s _ _ hcleanup => ?_) hstable hread
  cases a <;> first | exact ha.elim | exact hcleanup.elim

/-- An action of the holder of the mutex, up to giving it back. -/
theorem rule_holder {P : Client Unit → Prop} {a : Action Unit}
    {Q : a.Result → Client Unit → Prop} (f : a.Result → Client Unit → Client Unit)
    (hf : ∀ choice s, ∃ r, performAction t a choice s = some (r, f r s))
    (hP : ∀ s, P s → s.mutex = some t ∧ CleanupDown a s)
    (hstable : ∀ r, sharing.Stable t (Q r))
    (hmutex : ∀ r s, P s → (f r s).mutex = some t ∨ (f r s).mutex = none ∧ FlagTells (f r s))
    (hQ : ∀ r s, P s → Q r (f r s)) : ActionRule (clientSystem start) sharing t P a Q := by
  refine actionRule_of_update f hf (fun s _ hs => (hP s hs).2) hstable ?_
  intro heads s r _ hs _
  refine ⟨fun hnone => ?_, fun u hu => ?_, hQ r s hs⟩
  · rcases hmutex r s hs with hheld | ⟨-, htells⟩
    · rw [hheld] at hnone
      cases hnone
    · exact htells
  · change MutexRely SharingKeeps u s (f r s)
    exact mutexRely_of_holder (hP s hs).1 ((hmutex r s hs).imp_right And.left) hu

/-- Clearing `m_connected`, while the connection is not up. -/
theorem rule_mark {P : Client Unit → Prop} (hstable : sharing.Stable t P)
    (hP : ∀ s, P s → s.NotConnected → P { s with connected := false }) :
    ActionRule (clientSystem start) sharing t P (.storeConnected false) fun _ => P := by
  refine actionRule_of_update (fun _ s => { s with connected := false }) (fun _ s => ⟨(), rfl⟩)
    (fun s _ _ => False.elim) (fun _ => hstable) ?_
  intro heads s _ _ hs hcondition
  have hdown : s.NotConnected := hcondition rfl
  exact ⟨fun _ _ => hdown, fun u _ => rely_of_same rfl rfl (fun _ _ => hdown)
    fun _ => .inr ⟨rfl, hdown⟩, hP s hs hdown⟩

/-- **The places of the client's functions are kept.** -/
theorem rules : Rules (clientSystem start) sharing t (places t) where
  idle_quiet a ha := rule_quiet ha (fun _ => stable_idle) fun _ _ _ hs _ => hs
  idle_mark := rule_mark stable_idle fun _ hs _ => hs
  idle_lock := by
    refine actionRule_of_lock (fun s _ _ => False.elim) stable_held ?_
    intro s hinv _ hnone
    refine ⟨nofun, fun u hu => ?_, rfl, hinv hnone⟩
    change MutexRely SharingKeeps u s _
    exact mutexRely_of_lock hnone hu
  held_quiet a ha := rule_quiet ha (fun _ => stable_held) fun _ _ _ hs _ => hs
  held_loadConnected := by
    refine rule_quiet (a := .loadConnected) trivial (fun r => ?_) fun _ s r hs hread => ?_
    · cases r
      · exact stable_down
      · exact stable_held
    · obtain rfl : s.connected = r := congrArg Prod.fst (Option.some.inj hread)
      cases hflag : s.connected with
      | false => exact ⟨hs.1, .inr ⟨hflag, hs.2 hflag⟩⟩
      | true => exact hs
  held_loadConn := by
    refine rule_quiet (a := .loadConn) trivial (fun r => ?_) fun _ s r hs hread => ?_
    · cases r with
      | none => exact stable_down
      | some c => exact stable_heldAt c
    · obtain rfl : s.conn = r := congrArg Prod.fst (Option.some.inj hread)
      cases hconn : s.conn with
      | none => exact ⟨hs.1, .inl hconn⟩
      | some c => exact ⟨hs.1, hs.2, hconn⟩
  held_mark := rule_mark stable_held fun _ hs hdown => ⟨hs.1, fun _ => hdown⟩
  held_unlock :=
    rule_holder (fun _ s => { s with mutex := none }) (fun _ s => ⟨(), rfl⟩)
      (fun s hs => ⟨hs.1, False.elim⟩) (fun _ => stable_idle) (fun _ s hs => .inr ⟨rfl, hs.2⟩)
      fun _ _ _ => nofun
  heldAt_held c s hs := ⟨hs.1, hs.2.1⟩
  heldAt_quiet c a ha := rule_quiet ha (fun _ => stable_heldAt c) fun _ _ _ hs _ => hs
  heldAt_push subject c :=
    rule_holder (fun _ s => { s with subscriptions := s.subscriptions ++ [⟨subject, c⟩] })
      (fun _ s => ⟨(), rfl⟩) (fun s hs => ⟨hs.1, False.elim⟩) (fun _ => stable_held)
      (fun _ s hs => .inl hs.1) fun _ s hs => ⟨hs.1, hs.2.1⟩
  pushed_unlock subject :=
    rule_holder (fun _ s => { s with mutex := none }) (fun _ s => ⟨(), rfl⟩)
      (fun s hs => ⟨hs.1, False.elim⟩) (fun _ => stable_idle) (fun _ s hs => .inr ⟨rfl, hs.2⟩)
      fun _ _ _ => nofun
  subscribed_idle subject s hs := hs
  down_held s hs := ⟨hs.1, flagTells_of_down hs.2⟩
  down_destroy :=
    rule_holder (fun _ s => { s with subscriptions := [] }) (fun _ s => ⟨(), rfl⟩)
      (fun s hs => ⟨hs.1, fun _ => ⟨notConnected_of_down hs.2, nofun⟩⟩) (fun _ => stable_down)
      (fun _ s hs => .inl hs.1) fun _ s hs => hs
  wiped_loadConn := by
    refine rule_quiet (a := .loadConn) trivial (fun r => ?_) fun _ s r hs hread => ?_
    · cases r with
      | none => exact stable_off
      | some c => exact stable_downAt c
    · obtain rfl : s.conn = r := congrArg Prod.fst (Option.some.inj hread)
      cases hconn : s.conn with
      | none => exact ⟨hs.1, hconn⟩
      | some c => exact ⟨hs.1, hs.2, hconn⟩
  wipedAt_close c := by
    refine rule_holder (fun _ s => s.closeConn c) (fun _ s => ⟨(), rfl⟩)
      (fun s hs => ⟨hs.1, fun _ => ⟨notConnected_of_down hs.2.1, ?_⟩⟩) (fun _ => stable_down)
      (fun _ s hs => .inl hs.1) fun _ s hs => ⟨hs.1, ?_⟩
    · rintro d ⟨⟩
      exact hs.2.2
    · obtain ⟨-, hnone | ⟨hflag, hdown⟩, -⟩ := hs
      · exact .inl hnone
      · exact .inr ⟨hflag, hdown.setStatus nofun⟩
  shut_clear :=
    rule_holder (fun _ s => { s with conn := none }) (fun _ s => ⟨(), rfl⟩)
      (fun s hs => ⟨hs.1, fun _ => ⟨notConnected_of_down hs.2, nofun⟩⟩) (fun _ => stable_off)
      (fun _ s hs => .inl hs.1) fun _ s hs => ⟨hs.1, rfl⟩
  cleared_mark := rule_mark stable_off fun _ hs _ => hs
  off_cleared s hs := hs
  off_down s hs := ⟨hs.1, .inl hs.2⟩
  off_quiet a ha := rule_quiet ha (fun _ => stable_off) fun _ _ _ hs _ => hs
  off_connect := by
    refine rule_holder (a := .connectConn) (fun r s => if r = .ok then s.openConn else s)
      (fun choice s => ⟨choice, rfl⟩) (fun s hs => ⟨hs.1, False.elim⟩) (fun r => ?_)
      (fun r s hs => ?_) fun r s hs => ?_
    all_goals by_cases hr : r = .ok
    · rw [if_pos hr]
      exact stable_fresh
    · rw [if_neg hr]
      exact stable_off
    · rw [if_pos hr]
      exact .inl hs.1
    · rw [if_neg hr]
      exact .inl hs.1
    · rw [if_pos hr, if_pos hr]
      exact hs.1
    · rw [if_neg hr, if_neg hr]
      exact hs
  fresh_mark :=
    rule_holder (fun _ s => { s with connected := true }) (fun _ s => ⟨(), rfl⟩)
      (fun s hs => ⟨hs, False.elim⟩) (fun _ => stable_held) (fun _ s hs => .inl hs)
      fun _ s hs => ⟨hs, nofun⟩

end Rules

theorem kept : sharing.Kept sharedSystem where
  idle_stable _ := stable_idle
  start t call s p s' hinv hidle hstart := by
    cases t with
    | async => cases hstart
    | caller n =>
      obtain ⟨body, hbody, heq⟩ := Option.map_eq_some_iff.mp hstart
      cases heq
      obtain ⟨hcall, hbody⟩ := Option.ite_none_left_eq_some.mp hbody
      obtain rfl := Option.some.inj hbody
      exact ⟨hinv, fun u _ => rely_of_same rfl rfl (fun h => h) fun h => h, _, stable_idle, hidle,
        outline_body rules (Bool.not_eq_true _ ▸ hcall)⟩
  env e s s' hinv hcondition hstep := by
    obtain ⟨c, status, kinds, rfl, hup⟩ := libraryStep_cases hstep
    -- The connection comes up only while `m_connected` is set.
    have hstays : s.connected = false → s.NotConnected →
        (s.setStatus c status kinds).NotConnected := by
      intro hflag hdown
      refine hdown.setStatus fun hstatus hconn => ?_
      rw [hcondition c (hup hstatus) hconn] at hflag
      cases hflag
    have htells : FlagTells s → FlagTells (s.setStatus c status kinds) :=
      fun h hflag => hstays hflag (h hflag)
    refine ⟨fun hnone => htells (hinv hnone), fun u => rely_of_same rfl rfl htells ?_⟩
    rintro (hnone | ⟨hflag, hdown⟩)
    · exact .inl hnone
    · exact .inr ⟨hflag, hstays hflag hdown⟩

theorem good_initial : sharing.Good sharedSystem (idleConfig (Client.initial ())) where
  inv _ _ := notConnected_of_none rfl
  outline t := ⟨sharing.idle t, stable_idle, nofun, fun _ hs => hs⟩

end Sharing

/-! ## Runs -/

/-- The configurations of the shared client. -/
abbrev SharedConfig := Config ThreadId (Action Unit) Action.Result (Client Unit)

/-- The events of the shared client. -/
abbrev SharedEvent := Event ThreadId NatsStatus Call LibraryEvent

/-- A new client, with no call under way. -/
def newSharedClient : SharedConfig := idleConfig (Client.initial ())

/-- `m_connected` is cleared only while the current connection is not up, and the
library finds the server of the current connection again only while it is set. -/
def FlagFollowsConnection (c : SharedConfig) (e : SharedEvent) : Prop :=
  (∀ t choice, e = .act t choice → c.heads t = some (.storeConnected false) →
    c.shared.NotConnected) ∧
  (∀ d, e = .env (.reconnected d) → c.shared.conn = some d → c.shared.connected = true)

/-- An action of `connect()`'s `cleanup()` happens only while the current connection
is not up; in particular no connection that is up is closed under a request in
flight on it. -/
def CleanupOnlyWhenDown (c : SharedConfig) (e : SharedEvent) : Prop :=
  ∀ t choice a, e = .act t choice → c.heads t = some a → IsCleanup a →
    c.shared.NotConnected ∧
      ∀ u d, a = .closeConn d → c.heads u = some (.requestMsg d) →
        c.shared.statusOf d ≠ .connected

theorem meets_of_flagFollowsConnection {c : SharedConfig} {e : SharedEvent}
    (h : FlagFollowsConnection c e) : sharing.Meets c e := by
  cases e with
  | start t call => trivial
  | env e => exact fun d hd => h.2 d (congrArg _ hd)
  | act t choice =>
    rintro a ha rfl
    exact h.1 t choice rfl ha

theorem cleanupOnlyWhenDown_of_good {c : SharedConfig} (hgood : sharing.Good sharedSystem c)
    (e : SharedEvent) : CleanupOnlyWhenDown c e := by
  intro t choice a _ hhead hcleanup
  obtain ⟨hdown, hcurrent⟩ := hgood.check hhead hcleanup
  exact ⟨hdown, fun u d hclose _ => hdown d (hcurrent d hclose)⟩

/-- **No `connect()` tears down a connection that is up**, in any interleaving of
calls from any number of threads, if `m_connected` follows the connection. -/
theorem cleanup_notConnected (es : List SharedEvent)
    (h : StepsMeet sharedSystem.step FlagFollowsConnection newSharedClient es) :
    StepsMeet sharedSystem.step CleanupOnlyWhenDown newSharedClient es :=
  stepsMeet_of_stepsMeet
    (fun _ _ _ hgood hmeets hstep =>
      sharing.good_step Sharing.kept hgood (meets_of_flagFollowsConnection hmeets) hstep)
    (fun _ e hgood _ => cleanupOnlyWhenDown_of_good hgood e) Sharing.good_initial h

/-- Two requests are in flight on one connection; the second times out, and the
next call of its thread goes on to close the connection. -/
def timeoutWhileConnected : List SharedEvent :=
  ([.start (.caller 0) (.connect 1)] : List SharedEvent) ++ steps (.caller 0) 11 ++
  ([.start (.caller 1) .request] : List SharedEvent) ++ steps (.caller 1) 10 ++
  ([.start (.caller 2) .request] : List SharedEvent) ++ steps (.caller 2) 10 ++
  ([.act (.caller 2) .timeout] : List SharedEvent) ++ steps (.caller 2) 1 ++
  ([.start (.caller 2) .request] : List SharedEvent) ++ steps (.caller 2) 8

/-- One request's timeout makes the next call close a connection that is up, with
another request in flight on it. -/
theorem timeout_tearsDown :
    ¬ ∀ es, StepsMeet sharedSystem.step CleanupOnlyWhenDown newSharedClient es := by
  intro hall
  have hobserved : ((run sharedSystem.step newSharedClient timeoutWhileConnected).map fun c =>
      (c.heads (.caller 2), c.heads (.caller 1), c.shared.statusOf 0)) =
      some (some (.closeConn 0), some (.requestMsg 0), .connected) := by rfl
  obtain ⟨c, hc, hvalues⟩ := Option.map_eq_some_iff.mp hobserved
  simp only [Prod.mk.injEq] at hvalues
  obtain ⟨hclose, hrequest, hstatus⟩ := hvalues
  have hcleanup := (hall (timeoutWhileConnected ++ [.act (.caller 2) .ok])).of_run hc
  exact (hcleanup (.caller 2) .ok _ rfl hclose trivial).2 (.caller 1) 0 rfl hrequest hstatus

/-- The server is lost, a publish fails, and the next one opens a new connection. -/
def reconnectAfterDrop : List SharedEvent :=
  ([.start (.caller 0) (.connect 1)] : List SharedEvent) ++ steps (.caller 0) 11 ++
  ([.env (.dropped 0)] : List SharedEvent) ++
  ([.start (.caller 1) .publish] : List SharedEvent) ++ steps (.caller 1) 11 ++
  ([.act (.caller 1) .other] : List SharedEvent) ++ steps (.caller 1) 1 ++
  ([.start (.caller 1) .publish] : List SharedEvent) ++ steps (.caller 1) 19

/-- The decidable form of `FlagFollowsConnection`. -/
def followsTest (c : SharedConfig) : SharedEvent → Bool
  | .act t _ =>
    match c.heads t with
    | some (.storeConnected false) => c.shared.conn.all fun d => c.shared.statusOf d != .connected
    | _ => true
  | .env (.reconnected d) => c.shared.connected || c.shared.conn != some d
  | _ => true

theorem flagFollowsConnection_of_test {c : SharedConfig} {e : SharedEvent}
    (h : followsTest c e = true) : FlagFollowsConnection c e := by
  constructor
  · rintro t choice rfl hhead d hd
    simpa [followsTest, hhead, hd] using h
  · rintro d rfl hd
    simpa [followsTest, hd] using h

theorem cleanup_notConnected_after_drop :
    (run sharedSystem.step newSharedClient reconnectAfterDrop).isSome = true ∧
      StepsMeet sharedSystem.step CleanupOnlyWhenDown newSharedClient reconnectAfterDrop :=
  ⟨by rfl, cleanup_notConnected reconnectAfterDrop
    (stepsMeet_of_stepsCheck (fun _ _ => flagFollowsConnection_of_test) (by rfl))⟩

end Nats
end HttpDataDiod
