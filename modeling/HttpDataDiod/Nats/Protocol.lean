import HttpDataDiod.Nats.Client

/-!
# The client's functions as paths through a few places

Whatever is to be proved of the client, its functions take the same path: they
take the mutex, look again whether the client is connected, tear the old
connection down and open a new one.  `Places` names the assertions along that
path, `Rules` says which action leads from which place to which, and the outlines
of all functions follow from these rules once and for all.

* `Places`, `CallRules`: the places of one thread and the actions between them.
* `SubscribeRules`, `DestroyRules`: the further actions of the functions that make
  and destroy subscriptions; `Rules` and `TeardownRules` gather them.
* `MutexRely`: what the mutex gives to the threads.
* `outline_connect`, `outline_subscribe`, ...: the outlines of the functions.
* `outline_body`, `outline_teardown`: every call leads from idle to idle.
* `outline_callback`: the outline of a callback.
-/

namespace HttpDataDiod
namespace Nats

open Interleaving ByteText

variable {V K : Type}

/-- The assertions along the path of one thread through the client's functions. -/
structure Places (V : Type) where
  /-- Not holding the mutex. -/
  idle : Client V → Prop
  /-- Holding the mutex. -/
  held : Client V → Prop
  /-- Holding the mutex, with the current connection in hand. -/
  heldAt : ℕ → Client V → Prop
  /-- Holding the mutex, after the second look found the client not connected. -/
  down : Client V → Prop
  /-- The subscriptions are destroyed. -/
  wiped : Client V → Prop
  /-- The subscriptions are destroyed, the old connection is in hand. -/
  wipedAt : ℕ → Client V → Prop
  /-- The old connection is closed. -/
  shut : Client V → Prop
  /-- There is no connection. -/
  cleared : Client V → Prop
  /-- There is no connection, and `m_connected` says so. -/
  off : Client V → Prop
  /-- A new connection is open, `m_connected` does not say so yet. -/
  fresh : Client V → Prop
  /-- Holding the mutex, with a new subscription in the list. -/
  pushed : Bytes → Client V → Prop
  /-- The mutex is free again after a subscription was made. -/
  subscribed : Bytes → Client V → Prop

variable (sys : System ThreadId (Action V) Action.Result NatsStatus (Client V) K LibraryEvent)
  (D : Contract ThreadId (Action V) (Client V) LibraryEvent) (t : ThreadId) (pl : Places V)

/-- The actions between the places, for the functions that neither subscribe nor tear
a connection down on purpose. -/
structure CallRules : Prop where
  idle_quiet : ∀ a : Action V, a.Quiet → ActionRule sys D t pl.idle a fun _ => pl.idle
  idle_mark : ActionRule sys D t pl.idle (.storeConnected false) fun _ => pl.idle
  idle_lock : ActionRule sys D t pl.idle .lock fun _ => pl.held
  held_quiet : ∀ a : Action V, a.Quiet → ActionRule sys D t pl.held a fun _ => pl.held
  held_loadConnected : ActionRule sys D t pl.held .loadConnected fun (r : Bool) =>
    if r then pl.held else pl.down
  held_loadConn : ActionRule sys D t pl.held .loadConn fun (r : Option ℕ) =>
    r.elim pl.down pl.heldAt
  held_mark : ActionRule sys D t pl.held (.storeConnected false) fun _ => pl.held
  held_unlock : ActionRule sys D t pl.held .unlock fun _ => pl.idle
  heldAt_held : ∀ c s, pl.heldAt c s → pl.held s
  heldAt_quiet : ∀ (c : ℕ) (a : Action V), a.Quiet →
    ActionRule sys D t (pl.heldAt c) a fun _ => pl.heldAt c
  down_held : ∀ s, pl.down s → pl.held s
  down_destroy : ActionRule sys D t pl.down .destroySubscriptions fun _ => pl.wiped
  wiped_loadConn : ActionRule sys D t pl.wiped .loadConn fun (r : Option ℕ) =>
    r.elim pl.cleared pl.wipedAt
  wipedAt_close : ∀ c, ActionRule sys D t (pl.wipedAt c) (.closeConn c) fun _ => pl.shut
  shut_clear : ActionRule sys D t pl.shut .clearConn fun _ => pl.cleared
  cleared_mark : ActionRule sys D t pl.cleared (.storeConnected false) fun _ => pl.off
  off_cleared : ∀ s, pl.off s → pl.cleared s
  off_down : ∀ s, pl.off s → pl.down s
  off_quiet : ∀ a : Action V, a.Quiet → ActionRule sys D t pl.off a fun _ => pl.off
  off_connect : ActionRule sys D t pl.off .connectConn fun (r : NatsStatus) =>
    if r = .ok then pl.fresh else pl.off
  fresh_mark : ActionRule sys D t pl.fresh (.storeConnected true) fun _ => pl.held

/-- The actions of `subscribe`, for one subject. -/
structure SubscribeRules (subject : Bytes) : Prop extends CallRules sys D t pl where
  push : ∀ c,
    ActionRule sys D t (pl.heldAt c) (.pushSubscription ⟨subject, c⟩) fun _ => pl.pushed subject
  pushed : ActionRule sys D t (pl.pushed subject) .unlock fun _ => pl.subscribed subject

/-- The actions of all functions that do not tear a connection down on purpose. -/
structure Rules : Prop extends CallRules sys D t pl where
  heldAt_push : ∀ subject c,
    ActionRule sys D t (pl.heldAt c) (.pushSubscription ⟨subject, c⟩) fun _ => pl.pushed subject
  pushed_unlock : ∀ subject,
    ActionRule sys D t (pl.pushed subject) .unlock fun _ => pl.subscribed subject
  subscribed_idle : ∀ subject s, pl.subscribed subject s → pl.idle s

/-- The actions of the functions that destroy the subscriptions whatever the state. -/
structure DestroyRules : Prop extends CallRules sys D t pl where
  held_destroy : ActionRule sys D t pl.held .destroySubscriptions fun _ => pl.wiped
  wiped_held : ∀ s, pl.wiped s → pl.held s
  heldAt_drain : ∀ c, ActionRule sys D t (pl.heldAt c) (.drainConn c) fun _ => pl.held
  idle_shutdown : ActionRule sys D t pl.idle .storeShutdown fun _ => pl.idle

/-- The actions of all functions. -/
structure TeardownRules : Prop extends Rules sys D t pl, DestroyRules sys D t pl

variable {sys D t pl}

/-! ## The mutex -/

/-- Seen from a thread, the others take the mutex only when it is free, and while
the thread holds it they keep what `keeps` says. -/
def MutexRely (keeps : Client V → Client V → Prop) (t : ThreadId) (s s' : Client V) : Prop :=
  (s.mutex ≠ some t → s'.mutex ≠ some t) ∧ (s.mutex = some t → s'.mutex = some t ∧ keeps s s')

section Mutex

variable {keeps : Client V → Client V → Prop} {u : ThreadId} {s s' : Client V}

theorem mutexRely_of_same (h : s'.mutex = s.mutex) (hkeeps : keeps s s') :
    MutexRely keeps t s s' := by
  refine ⟨fun hne => ?_, fun heq => ⟨?_, hkeeps⟩⟩
  · rw [h]
    exact hne
  · rw [h]
    exact heq

/-- The holder of the mutex does not disturb the others. -/
theorem mutexRely_of_holder (h : s.mutex = some t) (h' : s'.mutex = some t ∨ s'.mutex = none)
    (hu : u ≠ t) : MutexRely keeps u s s' := by
  have hne : some t ≠ some u := fun heq => hu (Option.some.inj heq).symm
  refine ⟨fun _ => ?_, fun heq => absurd (h.symm.trans heq) hne⟩
  rcases h' with h' | h'
  · rw [h']
    exact hne
  · rw [h']
    exact nofun

theorem mutexRely_of_lock (h : s.mutex = none) (hu : u ≠ t) :
    MutexRely keeps u s { s with mutex := some t } := by
  refine ⟨fun _ heq => hu (Option.some.inj heq).symm, fun heq => ?_⟩
  rw [h] at heq
  cases heq

end Mutex

/-! ## Rules for single actions -/

section ActionRules

variable {start : ThreadId → K → Client V → Option (Prog V Unit × Client V)} {P : Client V → Prop}

/-- The actions that leave the mutex, the list of subscriptions and the owner's
variables alone. -/
def Action.LeavesList : Action V → Prop
  | .lock | .unlock | .destroySubscriptions | .pushSubscription _ | .modifyVars _ => False
  | _ => True

theorem leavesList_of_quiet {a : Action V} (ha : a.Quiet) : a.LeavesList := by
  cases a <;> trivial

theorem performAction_leavesList {a : Action V} (ha : a.LeavesList) {choice : NatsStatus}
    {s s' : Client V} {r : a.Result} (h : performAction t a choice s = some (r, s')) :
    s'.mutex = s.mutex ∧ s'.subscriptions = s.subscriptions ∧ s'.vars = s.vars := by
  cases a with
  | lock | unlock | destroySubscriptions | pushSubscription sub | modifyVars f => exact ha.elim
  | drainConn c | connectConn =>
    cases h
    split <;> exact ⟨rfl, rfl, rfl⟩
  | _ =>
    cases h
    exact ⟨rfl, rfl, rfl⟩

/-- An action that only reads keeps its place; what it reads may be added. -/
theorem actionRule_of_quiet {a : Action V} (ha : a.Quiet) {Q : a.Result → Client V → Prop}
    (hrefl : ∀ u s, D.rely u s s) (hcheck : ∀ s, D.inv s → P s → D.check t a s)
    (hstable : ∀ r, D.Stable t (Q r))
    (hread : ∀ choice s r, P s → performAction t a choice s = some (r, s) → Q r s) :
    ActionRule (clientSystem start) D t P a Q where
  check := hcheck
  stable := hstable
  keeps := by
    intro heads s choice r s' hinv hP _ _ hperform
    obtain rfl : s' = s := performAction_quiet ha hperform
    exact ⟨hinv, fun u _ => hrefl u s', hread choice s' r hP hperform⟩

/-- Taking the mutex. -/
theorem actionRule_of_lock {Q : Client V → Prop}
    (hcheck : ∀ s, D.inv s → P s → D.check t .lock s) (hstable : D.Stable t Q)
    (hlock : ∀ s, D.inv s → P s → s.mutex = none →
      D.inv { s with mutex := some t } ∧ (∀ u, u ≠ t → D.rely u s { s with mutex := some t }) ∧
        Q { s with mutex := some t }) :
    ActionRule (clientSystem start) D t P .lock fun _ => Q where
  check := hcheck
  stable _ := hstable
  keeps := by
    intro heads s choice r s' hinv hP _ _ hperform
    change (if s.mutex = none then _ else _) = _ at hperform
    by_cases hmutex : s.mutex = none
    · rw [if_pos hmutex] at hperform
      cases hperform
      exact hlock s hinv hP hmutex
    · rw [if_neg hmutex] at hperform
      cases hperform

/-- An action that changes the state by a function of its answer. -/
theorem actionRule_of_update {a : Action V} {Q : a.Result → Client V → Prop}
    (f : a.Result → Client V → Client V)
    (hf : ∀ choice s, ∃ r, performAction t a choice s = some (r, f r s))
    (hcheck : ∀ s, D.inv s → P s → D.check t a s) (hstable : ∀ r, D.Stable t (Q r))
    (hkeeps : ∀ heads s r, D.inv s → P s → D.condition heads t a s →
      D.inv (f r s) ∧ (∀ u, u ≠ t → D.rely u s (f r s)) ∧ Q r (f r s)) :
    ActionRule (clientSystem start) D t P a Q where
  check := hcheck
  stable := hstable
  keeps := by
    intro heads s choice r s' hinv hP _ hcondition hperform
    obtain ⟨r', hr'⟩ := hf choice s
    obtain ⟨rfl, rfl⟩ : r' = r ∧ f r' s = s' :=
      Prod.mk.injEq .. ▸ Option.some.inj (hr'.symm.trans hperform)
    exact hkeeps heads s r' hinv hP hcondition

end ActionRules

section Shared

variable (h : CallRules sys D t pl)
include h

theorem outline_unlock {α : Type} (x : α) :
    Outline sys D t pl.held (do act .unlock; return x) fun _ => pl.idle :=
  .bind (.perform h.held_unlock) fun _ => .pure fun _ hs => hs

/-- Finding no connection under the mutex, a function marks the client
disconnected and gives up. -/
theorem outline_noConnection {α : Type} (x : α) {Q : α → Client V → Prop}
    (hQ : ∀ s, pl.idle s → Q x s) :
    Outline sys D t pl.down (do markDisconnected; act .unlock; return x) Q :=
  .bind (.perform (h.held_mark.mono_left h.down_held)) fun _ =>
    .bind (.perform h.held_unlock) fun _ => .pure hQ

theorem outline_acquireConnection :
    Outline sys D t pl.idle acquireConnection fun _ => pl.idle := by
  refine .bind (.perform h.idle_lock) fun _ => .bind (.perform h.held_loadConn) fun r => ?_
  cases r with
  | none => exact outline_noConnection h none fun _ hs => hs
  | some c => exact (outline_unlock h (some c)).mono_left (h.heldAt_held c)

theorem outline_isConnected :
    Outline sys D t pl.idle isConnected fun _ => pl.idle := by
  refine .bind (.perform (h.idle_quiet .loadConnected trivial)) fun r => ?_
  cases r with
  | false => exact .pure fun _ hs => hs
  | true =>
    refine .bind (.perform h.idle_lock) fun _ => .bind (.perform h.held_loadConn) fun r => ?_
    cases r with
    | none => exact (outline_unlock h false).mono_left h.down_held
    | some c =>
      refine .bind (.perform ((h.held_quiet (.connStatus c) trivial).mono_left (h.heldAt_held c)))
        fun status => ?_
      exact outline_unlock h (status == .connected)

/-- What every teardown does after the subscriptions are destroyed. -/
theorem outline_destroyConnection :
    Outline sys D t pl.wiped (do destroyConnectionLocked; act (.storeConnected false))
      fun _ => pl.off := by
  refine .bind (Q := fun _ => pl.cleared) ?_ fun _ => .perform h.cleared_mark
  refine .bind (.perform h.wiped_loadConn) fun r => ?_
  cases r with
  | none => exact .pure fun _ hs => hs
  | some c => exact .bind (.perform (h.wipedAt_close c)) fun _ => .perform h.shut_clear

theorem outline_cleanup : Outline sys D t pl.down cleanup fun _ => pl.off :=
  .bind (.perform h.down_destroy) fun _ => outline_destroyConnection h

theorem outline_connectedAndConn :
    Outline sys D t pl.idle connectedAndConn fun _ => pl.idle := by
  refine .bind (.perform (h.idle_quiet .loadConnected trivial)) fun r => ?_
  cases r with
  | false => exact .pure fun _ hs => hs
  | true =>
    exact .bind (.perform (h.idle_quiet .loadConn trivial)) fun _ => .pure fun _ hs => hs

/-- The second look, under the mutex. -/
theorem outline_connectedAndConn_held :
    Outline sys D t pl.held connectedAndConn fun r => if r then pl.held else pl.down := by
  refine .bind (.perform h.held_loadConnected) fun r => ?_
  cases r with
  | false => exact .pure fun _ hs => hs
  | true =>
    refine .bind (.perform h.held_loadConn) fun r => .pure fun s hs => ?_
    cases r with
    | none => exact hs
    | some c => exact h.heldAt_held c s hs

theorem outline_connectAttempts (attempts : ℕ) :
    Outline sys D t pl.idle (connectAttempts attempts) fun _ => pl.idle := by
  induction attempts with
  | zero => exact .pure fun _ hs => hs
  | succ attempts ih =>
    have hoff : ∀ s, pl.off s → pl.held s := fun s hs => h.down_held s (h.off_down s hs)
    refine .bind (.perform (h.idle_quiet .loadShutdown trivial)) fun r => ?_
    cases r with
    | true => exact .pure fun _ hs => hs
    | false =>
      refine .bind (.perform h.idle_lock) fun _ =>
        .bind (outline_connectedAndConn_held h) fun r => ?_
      cases r with
      | true => exact outline_unlock h true
      | false =>
        refine .bind (outline_cleanup h) fun _ =>
          .bind (.perform (h.off_quiet .setupOptions trivial)) fun setup => ?_
        by_cases hsetup : setup = .ok
        · rw [if_pos hsetup]
          refine .bind (.perform h.off_connect) fun r => ?_
          by_cases hr : r = .ok
          · rw [if_pos hr, if_pos hr]
            exact .bind (.perform h.fresh_mark) fun _ => outline_unlock h true
          · rw [if_neg hr, if_neg hr]
            refine .bind (.perform (h.cleared_mark.mono_left h.off_cleared)) fun _ =>
              .bind ((outline_cleanup h).mono_left h.off_down) fun _ =>
              .bind (.perform (h.held_unlock.mono_left hoff)) fun _ => ih
        · rw [if_neg hsetup]
          exact (outline_unlock h false).mono_left hoff

theorem outline_connect (maxAttempts : ℤ) :
    Outline sys D t pl.idle (connect maxAttempts) fun _ => pl.idle := by
  refine .bind (outline_connectedAndConn h) fun r => ?_
  cases r with
  | true => exact .pure fun _ hs => hs
  | false => exact outline_connectAttempts h _

theorem outline_ensureConnected :
    Outline sys D t pl.idle ensureConnected fun _ => pl.idle := by
  refine .bind (.perform (h.idle_quiet .loadShutdown trivial)) fun r => ?_
  cases r with
  | true => exact .pure fun _ hs => hs
  | false =>
    refine .bind (outline_isConnected h) fun r => ?_
    cases r with
    | true => exact .pure fun _ hs => hs
    | false => exact outline_connect h 1

theorem outline_prepareMessageWithHeaders :
    Outline sys D t pl.idle prepareMessageWithHeaders fun _ => pl.idle := by
  refine .bind (outline_ensureConnected h) fun r => ?_
  cases r with
  | false => exact .pure fun _ hs => hs
  | true =>
    refine .bind (outline_acquireConnection h) fun r => ?_
    cases r with
    | none => exact .pure fun _ hs => hs
    | some c =>
      refine .bind (.perform (h.idle_quiet .createMsg trivial)) fun status => ?_
      by_cases hstatus : status = .ok
      · rw [if_pos hstatus]
        exact .pure fun _ hs => hs
      · rw [if_neg hstatus]
        exact .pure fun _ hs => hs

theorem outline_requestImpl :
    Outline sys D t pl.idle requestImpl fun _ => pl.idle := by
  refine .bind (outline_prepareMessageWithHeaders h) fun r => ?_
  cases r with
  | none => exact .pure fun _ hs => hs
  | some c =>
    refine .bind (.perform (h.idle_quiet (.requestMsg c) trivial)) fun status => ?_
    cases status with
    | ok => exact .pure fun _ hs => hs
    | noResponders => exact .pure fun _ hs => hs
    | timeout => exact .bind (.perform h.idle_mark) fun _ => .pure fun _ hs => hs
    | other => exact .bind (.perform h.idle_mark) fun _ => .pure fun _ hs => hs

theorem outline_publishOn (c : ℕ) :
    Outline sys D t pl.idle (publishOn c) fun _ => pl.idle := by
  refine .bind (.perform (h.idle_quiet (.publishMsg c) trivial)) fun status => ?_
  by_cases hstatus : status = .ok
  · rw [if_pos hstatus]
    exact .pure fun _ hs => hs
  · rw [if_neg hstatus]
    exact .bind (.perform h.idle_mark) fun _ => .pure fun _ hs => hs

theorem outline_publish : Outline sys D t pl.idle publish fun _ => pl.idle := by
  refine .bind (outline_ensureConnected h) fun r => ?_
  cases r with
  | false => exact .pure fun _ hs => hs
  | true =>
    refine .bind (outline_acquireConnection h) fun r => ?_
    cases r with
    | none => exact .pure fun _ hs => hs
    | some c => exact outline_publishOn h c

theorem outline_publishWithHeaders :
    Outline sys D t pl.idle publishWithHeaders fun _ => pl.idle := by
  refine .bind (outline_prepareMessageWithHeaders h) fun r => ?_
  cases r with
  | none => exact .pure fun _ hs => hs
  | some c => exact outline_publishOn h c

theorem outline_checkConnection :
    Outline sys D t pl.idle checkConnection fun _ => pl.idle := by
  refine .bind (outline_ensureConnected h) fun r => ?_
  cases r with
  | false => exact .pure fun _ hs => hs
  | true =>
    refine .bind (.perform h.idle_lock) fun _ => .bind (.perform h.held_loadConn) fun r => ?_
    cases r with
    | none => exact outline_noConnection h false fun _ hs => hs
    | some c =>
      refine .bind (.perform ((h.held_quiet (.connStatus c) trivial).mono_left (h.heldAt_held c)))
        fun status => ?_
      by_cases hstatus : status = .closed ∨ status = .disconnected ∨ status = .reconnecting
      · rw [if_pos hstatus]
        exact .bind (.perform h.held_mark) fun _ => outline_unlock h false
      · rw [if_neg hstatus]
        exact outline_unlock h true

end Shared

/-- A `subscribe` that answers `true` has put the subject into the list. -/
theorem outline_subscribe {subject : Bytes} (h : SubscribeRules sys D t pl subject) :
    Outline sys D t pl.idle (subscribe subject) fun ok =>
      if ok then pl.subscribed subject else pl.idle := by
  refine .bind (outline_ensureConnected h.toCallRules) fun r => ?_
  cases r with
  | false => exact .pure fun _ hs => hs
  | true =>
    refine .bind (.perform h.idle_lock) fun _ => .bind (.perform h.held_loadConn) fun r => ?_
    cases r with
    | none => exact outline_noConnection h.toCallRules false fun _ hs => hs
    | some c =>
      refine .bind (.perform (h.heldAt_quiet c (.subscribeConn subject c) trivial)) fun status => ?_
      by_cases hstatus : status = .ok
      · rw [if_pos hstatus]
        exact .bind (.perform (h.push c)) fun _ =>
          .bind (.perform h.pushed) fun _ => .pure fun _ hs => hs
      · rw [if_neg hstatus]
        exact .bind (.perform (h.held_unlock.mono_left (h.heldAt_held c))) fun _ =>
          .pure fun _ hs => hs

theorem Rules.subscribeRules (h : Rules sys D t pl) (subject : Bytes) :
    SubscribeRules sys D t pl subject where
  toCallRules := h.toCallRules
  push := h.heldAt_push subject
  pushed := h.pushed_unlock subject

/-- The calls that destroy subscriptions or connections on purpose. -/
def Call.isTeardown : Call → Bool
  | .unsubscribe | .disconnect | .drain | .destroy => true
  | _ => false

/-- The calls that make a subscription. -/
def Call.isSubscribe : Call → Bool
  | .subscribe _ => true
  | _ => false

/-- A call that neither subscribes nor tears down leads from idle to idle. -/
theorem outline_call (h : CallRules sys D t pl) {call : Call} (hcall : call.isTeardown = false)
    (hsubscribe : call.isSubscribe = false) :
    Outline sys D t pl.idle call.body fun _ => pl.idle := by
  cases call with
  | connect n => exact .bind (outline_connect h n) fun _ => .pure fun _ hs => hs
  | ensureConnected => exact .bind (outline_ensureConnected h) fun _ => .pure fun _ hs => hs
  | request => exact .bind (outline_requestImpl h) fun _ => .pure fun _ hs => hs
  | publish => exact .bind (outline_publish h) fun _ => .pure fun _ hs => hs
  | publishWithHeaders => exact .bind (outline_publishWithHeaders h) fun _ => .pure fun _ hs => hs
  | subscribe subject => cases hsubscribe
  | checkConnection => exact .bind (outline_checkConnection h) fun _ => .pure fun _ hs => hs
  | unsubscribe | disconnect | drain | destroy => cases hcall

/-- **Every other call leads from idle to idle.** -/
theorem outline_body (h : Rules sys D t pl) {call : Call} (hcall : call.isTeardown = false) :
    Outline sys D t pl.idle call.body fun _ => pl.idle := by
  by_cases hsubscribe : call.isSubscribe = true
  · cases call with
    | subscribe subject =>
      refine .bind (outline_subscribe (h.subscribeRules subject)) fun ok => .pure fun s hs => ?_
      cases ok with
      | false => exact hs
      | true => exact h.subscribed_idle subject s hs
    | _ => cases hsubscribe
  · exact outline_call h.toCallRules hcall (Bool.not_eq_true _ ▸ hsubscribe)

section Teardown

variable (h : DestroyRules sys D t pl)
include h

theorem outline_cleanup_held : Outline sys D t pl.held cleanup fun _ => pl.off :=
  .bind (.perform h.held_destroy) fun _ => outline_destroyConnection h.toCallRules

theorem outline_unlock_off : Outline sys D t pl.off (act .unlock) fun _ => pl.idle :=
  .perform (h.held_unlock.mono_left fun s hs => h.down_held s (h.off_down s hs))

theorem outline_unsubscribe :
    Outline sys D t pl.idle unsubscribe fun _ => pl.idle :=
  .bind (.perform h.idle_lock) fun _ => .bind (.perform h.held_destroy) fun _ =>
    .perform (h.held_unlock.mono_left h.wiped_held)

theorem outline_disconnect : Outline sys D t pl.idle disconnect fun _ => pl.idle :=
  .bind (.perform h.idle_lock) fun _ => .bind (outline_cleanup_held h) fun _ =>
    outline_unlock_off h

theorem outline_drain : Outline sys D t pl.idle drain fun _ => pl.idle := by
  refine .bind (.perform h.idle_lock) fun _ => .bind (.perform h.held_loadConn) fun r => ?_
  cases r with
  | none =>
    exact .bind ((outline_cleanup_held h).mono_left h.down_held) fun _ => outline_unlock_off h
  | some c =>
    exact .bind (.perform (h.heldAt_drain c)) fun _ =>
      .bind (outline_cleanup_held h) fun _ => outline_unlock_off h

end Teardown

/-- **Every call leads from idle to idle.** -/
theorem outline_teardown (h : TeardownRules sys D t pl) (call : Call) :
    Outline sys D t pl.idle call.body fun _ => pl.idle := by
  cases call with
  | unsubscribe => exact outline_unsubscribe h.toDestroyRules
  | disconnect => exact outline_disconnect h.toDestroyRules
  | drain => exact outline_drain h.toDestroyRules
  | destroy =>
    exact .bind (.perform h.idle_shutdown) fun _ => outline_disconnect h.toDestroyRules
  | _ => exact outline_body h.toRules rfl

/-- A callback reads `m_shutdown` and writes `m_connected`. -/
theorem outline_callback {P Q : Client V → Prop}
    (hload : ActionRule sys D t P .loadShutdown fun _ => P)
    (hstore : ∀ value, ActionRule sys D t P (.storeConnected value) fun _ => Q)
    (hPQ : ∀ s, P s → Q s) (kind : CallbackKind) :
    Outline sys D t P (callback kind) fun _ => Q := by
  cases kind with
  | closed => exact .perform (hstore false)
  | disconnected =>
    refine .bind (.perform hload) fun r => ?_
    cases r with
    | true => exact .pure hPQ
    | false => exact .perform (hstore false)
  | reconnected =>
    refine .bind (.perform hload) fun r => ?_
    cases r with
    | true => exact .pure hPQ
    | false => exact .perform (hstore true)

end Nats
end HttpDataDiod
