import HttpDataDiod.Proxy.GatewayWatch

/-!
# Why the DB gateway got no reply

After `ensure_connected()` a call has seen the client connected, or the connection
down.  From then on `m_connected` is clear only if the connection has been down during
the call, or if somebody cleared it on a connection that was up: a request that timed
out, a failed publish, a callback that came late.  Where the latter does not happen
before the gateway looks, 503 and 504 mean what they say.

* `outline_ensureConnected_seen`, `outline_isConnected_asking`: what the two looks at
  the connection tell.
* `AnswersRight`: 503 only after a connection that was down during the call, and 504
  after a timeout on a connection that was up throughout.
* `answers_right`: this holds in every run in which the gateway never finds
  `m_connected` cleared on a connection that was up.
* `not_answersRight_timeout`: the plain timeout that is answered 503.
-/

namespace HttpDataDiod
namespace Proxy
namespace DbGateway

open Interleaving Transition ByteText Nats

namespace Answering

variable {t : ThreadId} {s s' : Gateway} {K : Gateway → Prop}

/-! ## The gateway's request -/

theorem lasting_true : Lasting t fun _ => True := fun _ _ _ _ => trivial

theorem lasting_seen : Lasting t (Seen t) := fun _ _ hs h => h.seen hs

theorem lasting_down : Lasting t fun s => s.vars.down t = true := fun _ _ hs h => h.down hs

theorem Lasting.imp {p : Prop} (hK : Lasting t K) : Lasting t fun s => p → K s :=
  fun s s' hs h hp => hK s s' (hs hp) h

/-- Reading `m_connected` set is seeing the client connected. -/
theorem seen_of_loadConnected {choice : NatsStatus} {r : Bool} {w : Watch}
    (h : performAction t .loadConnected choice s = some (r, s')) (hr : r = true) :
    Seen t { s' with vars := w } := by
  cases h
  exact .inr (.inl hr)

theorem down_of_notUp (h : Watched s) (hup : isUp s = false) : Seen t s := .inl (h.down hup t)

theorem rule_loadConnected_free :
    ActionRule gatewaySystem answering t (places t fun _ => True).idle .loadConnected
      fun r => (places t fun s => r = true → Seen t s).idle := by
  refine rule_free (a := .loadConnected) trivial (fun _ => stable_free lasting_seen.imp.stable)
    (fun choice s r s' hact => ?_) fun choice s r s' w _ hs _ hact hmutex _ => ?_
  · cases hact
    exact ⟨rfl, rfl⟩
  · exact ⟨fun heq => hs.1 (hmutex.symm.trans heq), seen_of_loadConnected hact⟩

theorem rule_loadConnected_held :
    ActionRule gatewaySystem answering t (places t fun _ => True).held .loadConnected
      fun r => (places t fun s => r = true → Seen t s).held :=
  rule_held (a := .loadConnected) trivial nofun nofun (fun _ hs => hs.1)
    (fun _ => stable_held lasting_seen.imp.stable)
    fun _ _ _ _ _ _ _ hact hmutex _ => ⟨hmutex, seen_of_loadConnected hact⟩

theorem outline_isConnected_seen :
    Outline gatewaySystem answering t (places t fun _ => True).idle isConnected
      fun r => (places t fun s => r = true → Seen t s).idle := by
  refine .bind (.perform rule_loadConnected_free) fun r => ?_
  cases r with
  | false => exact .pure fun _ hs => hs
  | true =>
    have h := rules (lasting_seen (t := t))
    refine Outline.mono_right (Q := fun _ => (places t (Seen t)).idle) ?_
      fun _ _ hs => ⟨hs.1, fun _ => hs.2⟩
    refine .bind (.perform (h.idle_lock.mono_left fun s hs => ⟨hs.1, hs.2 rfl⟩)) fun _ =>
      .bind (.perform h.held_loadConn) fun r => ?_
    cases r with
    | none => exact outline_unlock h.toCallRules false
    | some c =>
      exact .bind (.perform (h.held_quiet (.connStatus c) trivial)) fun status =>
        outline_unlock h.toCallRules (status == .connected)

theorem outline_connectedAndConn_seen :
    Outline gatewaySystem answering t (places t fun _ => True).idle connectedAndConn
      fun r => (places t fun s => r = true → Seen t s).idle := by
  refine .bind (.perform rule_loadConnected_free) fun r => ?_
  cases r with
  | false => exact .pure fun _ hs => hs
  | true =>
    have h := rules (lasting_seen (t := t))
    exact .bind (.perform ((h.idle_quiet .loadConn trivial).mono_left
      fun s hs => ⟨hs.1, hs.2 rfl⟩)) fun _ => .pure fun _ hs => ⟨hs.1, fun _ => hs.2⟩

theorem outline_connectedAndConn_seenHeld :
    Outline gatewaySystem answering t (places t fun _ => True).held connectedAndConn
      fun r => (places t fun s => r = true → Seen t s).held := by
  refine .bind (.perform rule_loadConnected_held) fun r => ?_
  cases r with
  | false => exact .pure fun _ hs => hs
  | true =>
    have h := rules (lasting_seen (t := t))
    exact .bind (.perform ((h.held_quiet .loadConn trivial).mono_left
      fun s hs => ⟨hs.1, hs.2 rfl⟩)) fun _ => .pure fun _ hs => ⟨hs.1, fun _ => hs.2⟩

/-- A teardown takes the connection down before the eyes of the call. -/
theorem outline_cleanup_seen :
    Outline gatewaySystem answering t (places t fun _ => True).held cleanup
      fun _ => (places t (Seen t)).held := by
  have h := rules (lasting_true (t := t))
  have hseen := rules (lasting_seen (t := t))
  have hload : ActionRule gatewaySystem answering t (places t fun _ => True).held .loadConn
      fun r => (places t fun s => r = none → Seen t s).held := by
    refine rule_held (a := .loadConn) trivial nofun nofun (fun _ hs => hs.1)
      (fun _ => stable_held lasting_seen.imp.stable) fun _ s r s' w _ _ hact hmutex hkeeps => ?_
    cases hact
    exact ⟨hmutex, fun hnone => down_of_notUp hkeeps.watched (by rw [isUp, hnone]; rfl)⟩
  have hclear : ActionRule gatewaySystem answering t (places t fun _ => True).held .clearConn
      fun _ => (places t (Seen t)).held := by
    refine rule_held (a := .clearConn) trivial nofun nofun (fun _ hs => hs.1)
      (fun _ => stable_held lasting_seen.stable) fun _ s r s' w _ _ hact hmutex hkeeps => ?_
    cases hact
    exact ⟨hmutex, down_of_notUp hkeeps.watched rfl⟩
  refine .bind (.perform h.down_destroy) fun _ => .bind (Q := fun _ => (places t (Seen t)).held) ?_
    fun _ => .perform hseen.held_mark
  refine .bind (.perform hload) fun r => ?_
  cases r with
  | none => exact .pure fun _ hs => ⟨hs.1, hs.2 rfl⟩
  | some c =>
    exact .bind (.perform ((h.wipedAt_close c).mono_left fun s hs => ⟨hs.1, trivial⟩)) fun _ =>
      .perform hclear

/-- While the client is in use it is not shut down. -/
theorem rule_loadShutdown :
    ActionRule gatewaySystem answering t (places t fun _ => True).idle .loadShutdown
      fun r => (places t fun _ => r = false).idle := by
  refine rule_free (a := .loadShutdown) trivial (fun _ => stable_free fun _ _ hr _ => hr)
    (fun choice s r s' hact => ?_) fun choice s r s' w hinv hs _ hact hmutex _ => ?_
  · cases hact
    exact ⟨rfl, rfl⟩
  · cases hact
    exact ⟨fun heq => hs.1 (hmutex.symm.trans heq), hinv.running⟩

/-- The first attempt either finds the client connected or tears the connection down. -/
theorem outline_connectAttempts_seen (attempts : ℕ) :
    Outline gatewaySystem answering t (places t fun _ => True).idle
      (connectAttempts (attempts + 1)) fun _ => (places t (Seen t)).idle := by
  have htrue := rules (lasting_true (t := t))
  have h := rules (lasting_seen (t := t))
  refine .bind (.perform rule_loadShutdown) fun r => ?_
  cases r with
  | true => exact .pure fun _ hs => Bool.noConfusion hs.2
  | false =>
    refine .bind (.perform (htrue.idle_lock.mono_left fun s hs => ⟨hs.1, trivial⟩)) fun _ =>
      .bind outline_connectedAndConn_seenHeld fun r => ?_
    cases r with
    | true => exact (outline_unlock h.toCallRules true).mono_left fun s hs => ⟨hs.1, hs.2 rfl⟩
    | false =>
      refine .bind (outline_cleanup_seen.mono_left fun s hs => ⟨hs.1, trivial⟩) fun _ =>
        .bind (.perform (h.held_quiet .setupOptions trivial)) fun setup => ?_
      by_cases hsetup : setup = .ok
      · rw [if_pos hsetup]
        refine .bind (.perform (rule_known lasting_seen trivial nofun nofun)) fun r => ?_
        by_cases hr : r = .ok
        · rw [if_pos hr]
          exact .bind (.perform h.fresh_mark) fun _ => outline_unlock h.toCallRules true
        · rw [if_neg hr]
          exact .bind (.perform h.cleared_mark) fun _ =>
            .bind (outline_cleanup h.toCallRules) fun _ =>
            .bind (.perform h.held_unlock) fun _ => outline_connectAttempts h.toCallRules attempts
      · rw [if_neg hsetup]
        exact outline_unlock h.toCallRules false

/-- **`ensure_connected()` sees the client connected or the connection down.** -/
theorem outline_ensureConnected_seen :
    Outline gatewaySystem answering t (places t fun _ => True).idle ensureConnected
      fun _ => (places t (Seen t)).idle := by
  refine .bind (.perform rule_loadShutdown) fun r => ?_
  cases r with
  | true => exact .pure fun _ hs => Bool.noConfusion hs.2
  | false =>
    refine .bind (outline_isConnected_seen.mono_left fun s hs => ⟨hs.1, trivial⟩) fun r => ?_
    cases r with
    | true => exact .pure fun _ hs => ⟨hs.1, hs.2 rfl⟩
    | false =>
      refine .bind (outline_connectedAndConn_seen.mono_left fun s hs => ⟨hs.1, trivial⟩)
        fun r => ?_
      cases r with
      | true => exact .pure fun _ hs => ⟨hs.1, hs.2 rfl⟩
      | false => exact (outline_connectAttempts_seen 0).mono_left fun s hs => ⟨hs.1, trivial⟩

theorem outline_prepareMessageWithHeaders_seen :
    Outline gatewaySystem answering t (places t fun _ => True).idle prepareMessageWithHeaders
      fun _ => (places t (Seen t)).idle := by
  have h := rules (lasting_seen (t := t))
  refine .bind outline_ensureConnected_seen fun r => ?_
  cases r with
  | false => exact .pure fun _ hs => hs
  | true =>
    refine .bind (outline_acquireConnection h.toCallRules) fun r => ?_
    cases r with
    | none => exact .pure fun _ hs => hs
    | some c =>
      refine .bind (.perform (h.idle_quiet .createMsg trivial)) fun status => ?_
      by_cases hstatus : status = .ok
      · rw [if_pos hstatus]
        exact .pure fun _ hs => hs
      · rw [if_neg hstatus]
        exact .pure fun _ hs => hs

/-- The thread's call has seen the client connected, and its request ended as given. -/
def endedWith (t : ThreadId) (status : NatsStatus) (s : Gateway) : Prop :=
  Seen t s ∧ s.vars.ended t = some status

theorem stable_endedWith (status : NatsStatus) : answering.Stable t (endedWith t status) :=
  fun s s' hs hrely => ⟨lasting_seen s s' hs.1 hrely.onward, hrely.ended.trans hs.2⟩

theorem rule_requestMsg (c : ℕ) :
    ActionRule gatewaySystem answering t (places t (Seen t)).idle (.requestMsg c)
      fun r => (places t (endedWith t r)).idle := by
  refine rule_free (a := .requestMsg c) trivial (fun r => stable_free (stable_endedWith r))
    (fun choice s r s' hact => ?_) fun choice s r s' w _ hs _ hact hmutex hkeeps => ?_
  · cases hact
    exact ⟨rfl, rfl⟩
  · cases hact
    refine ⟨fun heq => hs.1 (hmutex.symm.trans heq), lasting_seen _ _ hs.2 (hkeeps.onward t), ?_⟩
    rw [hkeeps.ended]
    exact Function.update_self ..

theorem outline_requestImpl_seen :
    Outline gatewaySystem answering t (places t fun _ => True).idle requestImpl
      fun replied => (places t fun s => Seen t s ∧
        (replied = true → s.vars.ended t = some .ok)).idle := by
  have h := rules (lasting_seen (t := t))
  refine .bind outline_prepareMessageWithHeaders_seen fun r => ?_
  cases r with
  | none => exact .pure fun _ hs => ⟨hs.1, hs.2, nofun⟩
  | some c =>
    refine .bind (.perform (rule_requestMsg c)) fun status => ?_
    cases status with
    | ok => exact .pure fun _ hs => ⟨hs.1, hs.2.1, fun _ => hs.2.2⟩
    | noResponders => exact .pure fun _ hs => ⟨hs.1, hs.2.1, nofun⟩
    | timeout | other =>
      exact .bind (.perform (h.idle_mark.mono_left fun s hs => ⟨hs.1, hs.2.1⟩)) fun _ =>
        .pure fun _ hs => ⟨hs.1, hs.2, nofun⟩

/-! ## The answer -/

/-- What an assignment to the watch by thread `t` leaves alone. -/
structure Assigns (t : ThreadId) (f : Watch → Watch) : Prop where
  down : ∀ w, (f w).down = w.down
  ended : ∀ w, (f w).ended = w.ended
  clearedUp : ∀ w, (f w).clearedUp = w.clearedUp
  asking : ∀ w u, u ≠ t → (f w).asking u = w.asking u

theorem assigns_ask : Assigns t (Watch.ask t) :=
  ⟨fun _ => rfl, fun _ => rfl, fun _ => rfl, fun _ _ hu => Function.update_of_ne hu ..⟩

theorem assigns_answer (rejected : Option ℕ) : Assigns t (Watch.answer t rejected) :=
  ⟨fun _ => rfl, fun _ => rfl, fun _ => rfl, fun _ _ hu => Function.update_of_ne hu ..⟩

/-- A watch that has seen the connection down has nothing to add. -/
theorem look_of_down (h : isUp s = false → ∀ u, s.vars.down u = true) : look s = s := by
  by_cases hup : isUp s = true
  · exact if_pos hup
  · have hdown : (fun _ => true) = s.vars.down :=
      funext fun u => (h (Bool.not_eq_true _ ▸ hup) u).symm
    rw [look, if_neg hup, hdown]

theorem rule_modifyVars {f : Watch → Watch} (hf : Assigns t f) {P Q : Gateway → Prop}
    (hstable : answering.Stable t Q)
    (hright : ∀ s, Watched s → P s → ∀ a ∈ (f s.vars).answers, a.Right)
    (hQ : ∀ s, P s → Q { s with vars := f s.vars }) :
    ActionRule gatewaySystem answering t P (.modifyVars f) fun _ => Q where
  check _ _ _ := trivial
  stable _ := hstable
  keeps := by
    intro heads s choice r s' hinv hs _ _ hperform
    have hdown : isUp { s with vars := f s.vars } = false → ∀ u, (f s.vars).down u = true := by
      rw [hf.down]
      exact hinv.down
    obtain rfl : look { s with vars := f s.vars } = s' :=
      congrArg Prod.snd (Option.some.inj hperform)
    rw [look_of_down hdown]
    refine ⟨⟨hinv.running, hdown, hright s hinv hs⟩, fun u hu => ?_, hQ s hs⟩
    refine ⟨mutexRely_of_same rfl rfl, ⟨fun h => ?_, fun h => ?_⟩, congrFun (hf.ended _) u,
      hf.asking _ u hu⟩
    · exact (congrFun (hf.down _) u).trans h
    · rw [Seen, hf.down, hf.clearedUp]
      exact h

/-- An answer that is right by what the call knows. -/
theorem rule_answer {rejected : Option ℕ}
    (hK : ∀ s, K s → Answer.Right ⟨rejected, s.vars.ended t, s.vars.down t⟩) :
    ActionRule gatewaySystem answering t (places t K).idle
      (.modifyVars (Watch.answer t rejected)) fun _ s => s.mutex ≠ some t := by
  refine rule_modifyVars (assigns_answer rejected) (fun _ _ hs hrely => hrely.mutex.1 hs)
    (fun s hinv hs a ha => ?_) fun _ hs => hs.1
  rcases List.mem_append.mp ha with ha | ha
  · exact hinv.right a ha
  · rw [List.mem_singleton.mp ha]
    exact hK s hs.2

/-- The call has seen the client connected and asks for the reason. -/
def asks (t : ThreadId) (s : Gateway) : Prop := Seen t s ∧ s.vars.asking t = true

theorem rule_ask :
    ActionRule gatewaySystem answering t (places t (Seen t)).idle (.modifyVars (Watch.ask t))
      fun _ => (places t (asks t)).idle := by
  refine rule_modifyVars assigns_ask (stable_free fun s s' hs hrely => ?_)
    (fun s hinv _ => hinv.right) fun s hs => ⟨hs.1, hs.2, Function.update_self ..⟩
  exact ⟨lasting_seen s s' hs.1 hrely.onward, hrely.asking.trans hs.2⟩

/-- The gateway finds `m_connected` clear only if the connection has been down. -/
theorem rule_loadConnected_asking :
    ActionRule gatewaySystem answering t (places t (asks t)).idle .loadConnected
      fun r => (places t fun s => r = false → s.vars.down t = true).idle := by
  refine rule_free (a := .loadConnected) trivial (fun _ => stable_free lasting_down.imp.stable)
    (fun choice s r s' hact => ?_) fun choice s r s' w _ hs hasks hact hmutex hkeeps => ?_
  · cases hact
    exact ⟨rfl, rfl⟩
  · cases hact
    refine ⟨fun heq => hs.1 (hmutex.symm.trans heq), fun hclear => (hkeeps.onward t).down ?_⟩
    rcases hs.2.1 with hdown | hset | hup
    · exact hdown
    · rw [hclear] at hset
      cases hset
    · rw [hasks rfl hs.2.2 hclear] at hup
      cases hup

/-- Holding the mutex with the current connection in hand. -/
def heldAt (t : ThreadId) (c : ℕ) (s : Gateway) : Prop := s.mutex = some t ∧ s.conn = some c

theorem stable_heldAt (c : ℕ) : answering.Stable t (heldAt t c) := by
  rintro s s' ⟨hmutex, hc⟩ hrely
  obtain ⟨hmutex', hconn⟩ := hrely.mutex.2 hmutex
  exact ⟨hmutex', hconn.trans hc⟩

theorem rule_loadConn_asking :
    ActionRule gatewaySystem answering t (places t fun _ => True).held .loadConn fun r =>
      r.elim (places t fun s => s.vars.down t = true).held (heldAt t) := by
  refine rule_held (a := .loadConn) trivial nofun nofun (fun _ hs => hs.1) (fun r => ?_)
    fun _ s r s' w _ _ hact hmutex hkeeps => ?_
  · cases r with
    | none => exact stable_held lasting_down.stable
    | some c => exact stable_heldAt c
  · cases hact
    cases hconn : s.conn with
    | none => exact ⟨hmutex, hkeeps.watched.down (by rw [isUp, hconn]; rfl) t⟩
    | some c => exact ⟨hmutex, rfl⟩

theorem rule_connStatus_asking (c : ℕ) :
    ActionRule gatewaySystem answering t (heldAt t c) (.connStatus c) fun status =>
      (places t fun s => (status == .connected) = false → s.vars.down t = true).held := by
  refine rule_held (a := .connStatus c) trivial nofun nofun (fun _ hs => hs.1)
    (fun _ => stable_held lasting_down.imp.stable) fun _ s r s' w _ hs hact hmutex hkeeps => ?_
  cases hact
  refine ⟨hmutex, fun hstatus => hkeeps.watched.down ?_ t⟩
  rw [isUp, hs.2]
  exact hstatus

/-- **The gateway's `is_connected()`.** -/
theorem outline_isConnected_asking :
    Outline gatewaySystem answering t (places t (asks t)).idle isConnected
      fun r => (places t fun s => r = false → s.vars.down t = true).idle := by
  refine .bind (.perform rule_loadConnected_asking) fun r => ?_
  cases r with
  | false => exact .pure fun _ hs => hs
  | true =>
    refine .bind (.perform ((rule_lock lasting_true).mono_left fun s hs => ⟨hs.1, trivial⟩))
      fun _ => .bind (.perform rule_loadConn_asking) fun r => ?_
    cases r with
    | none =>
      exact .bind (.perform (rule_unlock lasting_down)) fun _ =>
        .pure fun _ hs => ⟨hs.1, fun _ => hs.2⟩
    | some c =>
      exact .bind (.perform (rule_connStatus_asking c)) fun _ =>
        .bind (.perform (rule_unlock lasting_down.imp)) fun _ => .pure fun _ hs => hs

/-- The classification of a missing reply. -/
theorem outline_rejects :
    Outline gatewaySystem answering t (places t (Seen t)).idle
      (do
        act (.modifyVars (Watch.ask t))
        if ← isConnected then act (.modifyVars (Watch.answer t (some 504)))
        else act (.modifyVars (Watch.answer t (some 503))))
      fun _ s => s.mutex ≠ some t := by
  refine .bind (.perform rule_ask) fun _ => .bind outline_isConnected_asking fun r => ?_
  cases r with
  | true => exact .perform (rule_answer fun s _ => ⟨nofun, fun _ _ => rfl⟩)
  | false =>
    refine .perform (rule_answer fun s hs => ⟨fun _ => hs rfl, fun _ hup => ?_⟩)
    have hdown : s.vars.down t = true := hs rfl
    exact absurd (hdown.symm.trans hup) nofun

/-- **The gateway's part of the handler.** -/
theorem outline_routeDbRequest :
    Outline gatewaySystem answering t (places t fun _ => True).idle (routeDbRequest t)
      fun _ s => s.mutex ≠ some t := by
  refine .bind outline_requestImpl_seen fun replied => ?_
  cases replied with
  | false => exact outline_rejects.mono_left fun s hs => ⟨hs.1, hs.2.1⟩
  | true =>
    have hask : ActionRule gatewaySystem answering t (places t (endedWith t .ok)).idle .ask
        fun _ => (places t (endedWith t .ok)).idle := by
      refine rule_free (a := .ask) trivial (fun _ => stable_free (stable_endedWith .ok))
        (fun choice s r s' hact => ?_) fun choice s r s' w _ hs _ hact hmutex hkeeps => ?_
      · cases hact
        exact ⟨rfl, rfl⟩
      · exact ⟨fun heq => hs.1 (hmutex.symm.trans heq),
          lasting_seen _ _ hs.2.1 (hkeeps.onward t), (congrFun hkeeps.ended t).trans hs.2.2⟩
    refine .bind (.perform (hask.mono_left fun s hs => ⟨hs.1, hs.2.1, hs.2.2 rfl⟩))
      fun data => ?_
    cases data with
    | false => exact outline_rejects.mono_left fun s hs => ⟨hs.1, hs.2.1⟩
    | true =>
      refine .perform (rule_answer fun s hs => ⟨nofun, fun hended => ?_⟩)
      exact absurd (hs.2.symm.trans hended) nofun

/-! ## The system -/

theorem stable_idle : answering.Stable t (answering.idle t) :=
  fun _ _ hs hrely => hrely.mutex.1 hs

/-- A program of a thread that knows nothing. -/
theorem outline_idle {p : Prog Watch Unit}
    (h : Outline gatewaySystem answering t (places t fun _ => True).idle p
      fun _ => (places t fun _ => True).idle) :
    Outline gatewaySystem answering t (answering.idle t) p fun _ => answering.idle t :=
  (h.mono_left fun _ hs => ⟨hs, trivial⟩).mono_right fun _ _ hs => hs.1

/-- Neither the client nor the watch changes in what the threads rely on. -/
theorem rely_of_same (hmutex : s'.mutex = s.mutex) (hconn : s'.conn = s.conn)
    (hconnected : s'.connected = s.connected) (hvars : s'.vars = s.vars) (u : ThreadId) :
    answering.rely u s s' where
  mutex := mutexRely_of_same hmutex hconn
  onward := by
    refine ⟨fun h => ?_, fun h => ?_⟩
    · rw [hvars]
      exact h
    · rw [Seen, hvars, hconnected]
      exact h
  ended := by rw [hvars]
  asking := by rw [hvars]

/-- What the library does is seen by every call under way. -/
theorem rely_of_look (hmutex : s'.mutex = s.mutex) (hconn : s'.conn = s.conn)
    (hconnected : s'.connected = s.connected) (hvars : s'.vars = s.vars) (u : ThreadId) :
    answering.rely u s (look s') := by
  obtain ⟨d, hlook, hraise, -⟩ := look_eq s'
  rw [hlook]
  rw [hvars] at hraise ⊢
  refine ⟨mutexRely_of_same hmutex hconn, ⟨hraise u, fun h => ?_⟩, rfl, rfl⟩
  rcases h with hdown | hset | hup
  · exact .inl (hraise u hdown)
  · exact .inr (.inl (hconnected.trans hset))
  · exact .inr (.inr hup)

/-- A call begins: whether the connection is up, the watch sees at once. -/
theorem begin_spec (hinv : Watched s) (t : ThreadId) :
    Watched { s with vars := s.vars.begin t (isUp s) } ∧
      ∀ u, u ≠ t → answering.rely u s { s with vars := s.vars.begin t (isUp s) } := by
  have hother : ∀ u, u ≠ t → (s.vars.begin t (isUp s)).down u = s.vars.down u :=
    fun u hu => Function.update_of_ne hu ..
  refine ⟨⟨hinv.running, fun hup u => ?_, hinv.right⟩, fun u hu => ?_⟩
  · by_cases hut : u = t
    · subst hut
      have hself : (s.vars.begin u (isUp s)).down u = !isUp s := Function.update_self ..
      exact hself.trans (congrArg _ hup)
    · exact (hother u hut).trans (hinv.down hup u)
  · refine ⟨mutexRely_of_same rfl rfl, ⟨fun h => (hother u hu).trans h, fun h => ?_⟩,
      Function.update_of_ne hu .., Function.update_of_ne hu ..⟩
    rcases h with hdown | hset | hcleared
    · exact .inl ((hother u hu).trans hdown)
    · exact .inr (.inl hset)
    · exact .inr (.inr hcleared)

theorem kept : answering.Kept gatewaySystem where
  idle_stable _ := stable_idle
  start t call s p s' hinv hidle hstart := by
    have hsame : ∀ u, answering.rely u s s := rely_of_same rfl rfl rfl rfl
    cases t with
    | caller n =>
      cases call with
      | inr index => cases hstart
      | inl call =>
        cases call with
        | routeDbRequest =>
          cases hstart
          obtain ⟨hwatched, hrely⟩ := begin_spec hinv (.caller n)
          exact ⟨hwatched, hrely, _, stable_idle, hidle,
            outline_routeDbRequest.mono_left fun _ hs => ⟨hs, trivial⟩⟩
        | client call =>
          obtain ⟨hcall, hp⟩ := Option.ite_none_left_eq_some.mp hstart
          cases hp
          exact ⟨hinv, fun u _ => hsame u, _, stable_idle, hidle,
            outline_idle (outline_body (rules lasting_true) (Bool.not_eq_true _ ▸ hcall))⟩
    | async =>
      cases call with
      | inl call => cases hstart
      | inr index =>
        obtain ⟨cb, -, heq⟩ := Option.map_eq_some_iff.mp hstart
        cases heq
        have hrely : ∀ u, answering.rely u s
            { s with posted := s.posted.eraseIdx index, delivering := some cb } :=
          rely_of_same rfl rfl rfl rfl
        exact ⟨⟨hinv.running, hinv.down, hinv.right⟩, fun u _ => hrely u, _, stable_idle, hidle,
          outline_idle (outline_callback (rule_quiet_free lasting_true trivial)
            (rule_store lasting_true) (fun _ hs => hs) cb.kind)⟩
  env e s s' hinv _ hstep := by
    obtain ⟨s₁, hlibrary, rfl⟩ := Option.map_eq_some_iff.mp hstep
    obtain ⟨c, status, kinds, rfl, -⟩ := libraryStep_cases hlibrary
    refine ⟨?_, rely_of_look rfl rfl rfl rfl⟩
    obtain ⟨d, hlook, -, hdown⟩ := look_eq (s.setStatus c status kinds)
    rw [hlook]
    exact ⟨hinv.running, hdown, hinv.right⟩

theorem good_initial : answering.Good gatewaySystem newGateway where
  inv := ⟨rfl, fun _ _ => rfl, nofun⟩
  outline t := ⟨answering.idle t, stable_idle, nofun, fun _ hs => hs⟩

end Answering

/-! ## Runs -/

/-- The configurations of the gateway. -/
abbrev GatewayConfig := Config ThreadId (Action Watch) Action.Result Gateway

/-- The events of the gateway. -/
abbrev GatewayEvent := Event ThreadId NatsStatus (GatewayCall ⊕ ℕ) LibraryEvent

/-- A handler that got no reply and finds `m_connected` clear does not find it cleared
on a connection that was up. -/
def FlagTellsReason (c : GatewayConfig) (e : GatewayEvent) : Prop :=
  ∀ t choice, e = .act t choice → c.heads t = some .loadConnected →
    c.shared.vars.asking t = true → c.shared.connected = false →
    c.shared.vars.clearedUp = false

/-- All answers given so far name the right reason. -/
def AnswersRight (c : GatewayConfig) : Prop := ∀ a ∈ c.shared.vars.answers, a.Right

theorem meets_of_flagTellsReason {c : GatewayConfig} {e : GatewayEvent}
    (h : FlagTellsReason c e) : answering.Meets c e := by
  cases e with
  | start t call => trivial
  | env e => trivial
  | act t choice =>
    rintro a ha rfl
    exact h t choice rfl ha

/-- **The gateway names the right reason**, in any interleaving of its requests with the
other users of the client, drops, reconnects and callbacks, if it never finds
`m_connected` cleared on a connection that was up. -/
theorem answers_right (es : List GatewayEvent)
    (h : StepsMeet gatewaySystem.step FlagTellsReason newGateway es) :
    Always gatewaySystem.step AnswersRight newGateway es :=
  always_of_stepsMeet
    (fun _ _ _ hgood hmeets hstep =>
      answering.good_step Answering.kept hgood (meets_of_flagTellsReason hmeets) hstep)
    (fun _ hgood => hgood.inv.right) Answering.good_initial h

/-- The client connects. -/
def clientConnects : List GatewayEvent :=
  ([.start (.caller 0) (.inl (.client (.connect 1)))] : List GatewayEvent) ++ steps (.caller 0) 11

/-- A handler sends its request, and the worker does not answer in time. -/
def requestTimesOut : List GatewayEvent :=
  ([.start (.caller 1) (.inl .routeDbRequest)] : List GatewayEvent) ++ steps (.caller 1) 10 ++
  ([.act (.caller 1) .timeout] : List GatewayEvent)

/-- A plain timeout is answered 503 although the connection was up throughout. -/
theorem not_answersRight_timeout :
    ¬ ∀ es, Always gatewaySystem.step AnswersRight newGateway es := by
  intro hall
  let es : List GatewayEvent := clientConnects ++ requestTimesOut ++ steps (.caller 1) 4
  have hobserved : ((run gatewaySystem.step newGateway es).map
      fun c => c.shared.vars.answers) = some [⟨some 503, some .timeout, false⟩] := by rfl
  obtain ⟨c, hc, hanswers⟩ := Option.map_eq_some_iff.mp hobserved
  have hright : AnswersRight c := always_iff.mp (hall es) _ [] c (List.append_nil _).symm hc
  rw [AnswersRight, hanswers] at hright
  have hdown := (hright _ List.mem_cons_self).1 rfl
  cases hdown

/-- The server was lost and found again before the handler sends its request, and the
callback that says so comes between the timeout and the look at `m_connected`. -/
def lateReconnected : List GatewayEvent :=
  clientConnects ++ ([.env (.dropped 0), .env (.reconnected 0)] : List GatewayEvent) ++
  requestTimesOut ++ steps (.caller 1) 2 ++
  ([.start .async (.inr 1)] : List GatewayEvent) ++ steps .async 2 ++ steps (.caller 1) 6

/-- The decidable form of `FlagTellsReason`. -/
def reasonTest (c : GatewayConfig) : GatewayEvent → Bool
  | .act t _ =>
    match c.heads t with
    | some .loadConnected =>
      !c.shared.vars.asking t || c.shared.connected || !c.shared.vars.clearedUp
    | _ => true
  | _ => true

theorem flagTellsReason_of_test {c : GatewayConfig} {e : GatewayEvent}
    (h : reasonTest c e = true) : FlagTellsReason c e := by
  rintro t choice rfl hhead hasking hclear
  simpa [reasonTest, hhead, hasking, hclear] using h

/-- Here the timeout is answered 504. -/
theorem answers_right_lateReconnected :
    ((run gatewaySystem.step newGateway lateReconnected).map fun c => c.shared.vars.answers) =
        some [⟨some 504, some .timeout, false⟩] ∧
      Always gatewaySystem.step AnswersRight newGateway lateReconnected :=
  ⟨by rfl, answers_right lateReconnected
    (stepsMeet_of_stepsCheck (fun _ _ => flagTellsReason_of_test) (by decide +kernel))⟩

end DbGateway
end Proxy
end HttpDataDiod
