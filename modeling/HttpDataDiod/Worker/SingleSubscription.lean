import HttpDataDiod.Worker.Listening
import Mathlib.Data.List.Nodup

/-!
# One subscription per subject

The loop subscribes whenever its flag is clear, and its flag is cleared in two
places: at the head of a pass, together with an `unsubscribe()`, when a connection
is found restored, and at the end of a pass, without one, when it is found lost.
A connection that the library restores keeps its subscriptions.  So it matters
that the list is empty when the loop enters `subscribe_worker_subject()`; only the
loop adds to the list, and the other threads can only wipe it.

* `soleSubscriberSystem`: the worker as it is run, where only the loop subscribes.
* `EntersUnsubscribed`: the loop goes to subscribe with an empty list.
* `subscribedOnce`: what the threads keep: no subject stands twice in the list.
* `subscribed_once`: under this condition, at the end of every pass each subject
  stands at most once in the list.
* `not_subscribedOnce_flap`: a run with a loss at the end of a pass and a reconnect
  before the next, after which the worker is subscribed twice.
-/

namespace HttpDataDiod
namespace Worker

open Interleaving Transition ByteText Nats

/-! ## The system -/

/-- The thread of the pool that would start the call would subscribe. -/
def WorkerCall.isSubscribe : WorkerCall → Bool
  | .client call => call.isSubscribe
  | _ => false

/-- The threads of the pool publish their responses; `subscribe_nats_subject` is
called by the loop alone. -/
def soleSubscriberBody (cfg : LoopConfig) (n : ℕ) (call : WorkerCall) : Option (LoopProg Unit) :=
  if call.isSubscribe then none else workerBody cfg n call

/-- **The worker**, where only the loop subscribes. -/
def soleSubscriberSystem (cfg : LoopConfig) :
    System ThreadId (Action (Option LoopVars)) Action.Result NatsStatus WorkerState
      (WorkerCall ⊕ ℕ) LibraryEvent :=
  clientSystem (startWithCallbacks (soleSubscriberBody cfg))

/-- The subjects in `m_subscriptions`. -/
def subjects (s : WorkerState) : List Bytes := s.subscriptions.map Subscription.subject

/-- While the worker's flag is set and the DB gateway's is clear, the gateway's subject
is not in the list. -/
def DbUnlisted (cfg : LoopConfig) (v : Option LoopVars) (l : List Bytes) : Prop :=
  ∀ w, v = some w → w.subscriptionActive = true → w.dbSubscriptionActive = false →
    cfg.dbEnabled = true → cfg.dbSubject ∉ l

/-- What the loop relies on: its locals, and that the others only wipe the list. -/
def OnlyWiped (s s' : WorkerState) : Prop :=
  s'.vars = s.vars ∧ (s'.subscriptions = s.subscriptions ∨ s'.subscriptions = [])

/-- **What the threads keep.** -/
def subscribedOnce (cfg : LoopConfig) :
    Contract ThreadId (Action (Option LoopVars)) WorkerState LibraryEvent where
  inv s := (subjects s).Nodup
  rely t s s' := MutexRely (fun s s' => s'.subscriptions = s.subscriptions) t s s' ∧
    (t = loopThread → OnlyWiped s s')
  check _ _ _ := True
  idle t s := s.mutex ≠ some t ∧ (t = loopThread → DbUnlisted cfg s.vars (subjects s))
  condition _ _ a s := ∀ f v, a = .modifyVars f → f s.vars = some v → v.subscribing = true →
    s.subscriptions = []
  envCondition _ _ := True

namespace SubscribedOnce

variable {cfg : LoopConfig} {t : ThreadId} {F : Option LoopVars → Prop} {L : List Bytes → Prop}

/-- What a thread may know of the loop's locals and of the list: the loop anything
that the wiping of the list does not disturb, the others nothing. -/
structure Knows (t : ThreadId) (F : Option LoopVars → Prop) (L : List Bytes → Prop) : Prop where
  nil : L []
  mine : t = loopThread ∨ (∀ v, F v) ∧ ∀ l, L l

/-- The list after a push, or after a wipe that followed it. -/
def Pushed (L : List Bytes → Prop) (subject : Bytes) (l : List Bytes) : Prop :=
  l = [] ∨ ∃ l', L l' ∧ l = l' ++ [subject]

/-- The places of the client's functions, with what the thread knows of the loop's
locals and of the list. -/
def places (t : ThreadId) (F : Option LoopVars → Prop) (L : List Bytes → Prop) :
    Places (Option LoopVars) where
  idle s := s.mutex ≠ some t ∧ F s.vars ∧ L (subjects s)
  held s := s.mutex = some t ∧ F s.vars ∧ L (subjects s)
  heldAt _ s := s.mutex = some t ∧ F s.vars ∧ L (subjects s)
  down s := s.mutex = some t ∧ F s.vars ∧ L (subjects s)
  wiped s := s.mutex = some t ∧ F s.vars ∧ subjects s = []
  wipedAt _ s := s.mutex = some t ∧ F s.vars ∧ subjects s = []
  shut s := s.mutex = some t ∧ F s.vars ∧ subjects s = []
  cleared s := s.mutex = some t ∧ F s.vars ∧ subjects s = []
  off s := s.mutex = some t ∧ F s.vars ∧ subjects s = []
  fresh s := s.mutex = some t ∧ F s.vars ∧ subjects s = []
  pushed subject s := s.mutex = some t ∧ F s.vars ∧ Pushed L subject (subjects s)
  subscribed subject s := s.mutex ≠ some t ∧ F s.vars ∧ Pushed L subject (subjects s)

/-! ## What the others do -/

/-- Neither the list nor the locals change. -/
def SameList (s s' : WorkerState) : Prop :=
  s'.subscriptions = s.subscriptions ∧ s'.vars = s.vars

theorem SameList.subjects_eq {s s' : WorkerState} (h : SameList s s') : subjects s' = subjects s :=
  congrArg (List.map Subscription.subject) h.1

theorem SameList.nodup {s s' : WorkerState} (h : SameList s s') (hinv : (subjects s).Nodup) :
    (subjects s').Nodup := by
  rw [h.subjects_eq]
  exact hinv

theorem SameList.rely {s s' : WorkerState} (h : SameList s s') (hmutex : s'.mutex = s.mutex)
    (u : ThreadId) : (subscribedOnce cfg).rely u s s' :=
  ⟨mutexRely_of_same hmutex h.1, fun _ => ⟨h.2, .inl h.1⟩⟩

theorem subjects_wiped {s s' : WorkerState} (h : OnlyWiped s s') :
    subjects s' = subjects s ∨ subjects s' = [] := by
  rcases h.2 with hsame | hnil
  · exact .inl (congrArg (List.map Subscription.subject) hsame)
  · exact .inr (congrArg (List.map Subscription.subject) hnil)

/-- What the loop knows of the list stays true when the others wipe it. -/
theorem knows_of_rely (h : Knows t F L) {s s' : WorkerState} (hF : F s.vars)
    (hL : L (subjects s)) (hrely : (subscribedOnce cfg).rely t s s') :
    F s'.vars ∧ L (subjects s') := by
  rcases h.mine with ht | ⟨hF', hL'⟩
  · have hwiped := hrely.2 ht
    refine ⟨hwiped.1 ▸ hF, ?_⟩
    rcases subjects_wiped hwiped with heq | hnil
    · rw [heq]
      exact hL
    · rw [hnil]
      exact h.nil
  · exact ⟨hF' _, hL' _⟩

theorem stable_free (h : Knows t F L) :
    (subscribedOnce cfg).Stable t fun s => s.mutex ≠ some t ∧ F s.vars ∧ L (subjects s) := by
  rintro s s' ⟨hmutex, hF, hL⟩ hrely
  exact ⟨hrely.1.1 hmutex, knows_of_rely h hF hL hrely⟩

/-- While a thread holds the mutex, nobody else touches the list. -/
theorem stable_holder (h : Knows t F L) (p : List Bytes → Prop) :
    (subscribedOnce cfg).Stable t fun s => s.mutex = some t ∧ F s.vars ∧ p (subjects s) := by
  rintro s s' ⟨hmutex, hF, hp⟩ ⟨⟨hfree, hrely⟩, hloop⟩
  obtain ⟨hmutex', hsame⟩ := hrely hmutex
  refine ⟨hmutex', ?_, ?_⟩
  · rcases h.mine with ht | ⟨hF', -⟩
    · exact (hloop ht).1 ▸ hF
    · exact hF' _
  · rw [subjects, hsame]
    exact hp

/-! ## The actions of the client's functions -/

section Rules

variable {K : Type}
  {start : ThreadId → K → WorkerState → Option (LoopProg Unit × WorkerState)}

/-- An action that leaves the list and the locals alone. -/
theorem rule_leaves {P : WorkerState → Prop} {a : Action (Option LoopVars)}
    (ha : a.LeavesList) {Q : a.Result → WorkerState → Prop}
    (hstable : ∀ r, (subscribedOnce cfg).Stable t (Q r))
    (hQ : ∀ r s s', P s → SameList s s' → s'.mutex = s.mutex → Q r s') :
    ActionRule (clientSystem start) (subscribedOnce cfg) t P a Q where
  check _ _ _ := trivial
  stable := hstable
  keeps _ s _ r s' hinv hs _ _ hperform := by
    obtain ⟨hmutex, hlist, hvars⟩ := performAction_leavesList ha hperform
    have hsame : SameList s s' := ⟨hlist, hvars⟩
    exact ⟨hsame.nodup hinv, fun u _ => hsame.rely hmutex u, hQ r s s' hs hsame hmutex⟩

theorem rule_free (h : Knows t F L) {a : Action (Option LoopVars)} (ha : a.LeavesList) :
    ActionRule (clientSystem start) (subscribedOnce cfg) t (places t F L).idle a
      fun _ => (places t F L).idle := by
  refine rule_leaves ha (fun _ => stable_free h) fun r s s' hs hsame hmutex => ?_
  show s'.mutex ≠ some t ∧ F s'.vars ∧ L (subjects s')
  rw [hmutex, hsame.2, hsame.subjects_eq]
  exact hs

/-- Under the mutex a thread keeps what it knows of the list, whatever the answer. -/
theorem rule_holder (h : Knows t F L) {a : Action (Option LoopVars)} (ha : a.LeavesList)
    (p : List Bytes → Prop) {Q : a.Result → WorkerState → Prop}
    (hQ : ∀ r, Q r = fun s => s.mutex = some t ∧ F s.vars ∧ p (subjects s)) :
    ActionRule (clientSystem start) (subscribedOnce cfg) t
      (fun s => s.mutex = some t ∧ F s.vars ∧ p (subjects s)) a Q := by
  refine rule_leaves ha (fun r => ?_) fun r s s' hs hsame hmutex => ?_
  · rw [hQ r]
    exact stable_holder h p
  · rw [hQ r]
    show s'.mutex = some t ∧ F s'.vars ∧ p (subjects s')
    rw [hmutex, hsame.2, hsame.subjects_eq]
    exact hs

/-- Giving the mutex back. -/
theorem rule_unlock (h : Knows t F L) :
    ActionRule (clientSystem start) (subscribedOnce cfg) t (places t F L).held .unlock
      fun _ => (places t F L).idle := by
  refine actionRule_of_update (fun _ s => { s with mutex := none }) (fun _ _ => ⟨(), rfl⟩)
    (fun _ _ _ => trivial) (fun _ => stable_free h) ?_
  rintro heads s - hinv ⟨hmutex, hknown⟩ -
  have hsame : SameList s { s with mutex := none } := ⟨rfl, rfl⟩
  exact ⟨hsame.nodup hinv,
    fun u hu => ⟨mutexRely_of_holder hmutex (.inr rfl) hu, fun _ => ⟨rfl, .inl rfl⟩⟩, nofun, hknown⟩

/-- Wiping the list. -/
theorem rule_destroy (h : Knows t F L) :
    ActionRule (clientSystem start) (subscribedOnce cfg) t (places t F L).held
      .destroySubscriptions fun _ => (places t F L).wiped := by
  refine actionRule_of_update (fun _ s => { s with subscriptions := [] }) (fun _ _ => ⟨(), rfl⟩)
    (fun _ _ _ => trivial) (fun _ => stable_holder h (· = [])) ?_
  rintro heads s - hinv ⟨hmutex, hF, -⟩ -
  refine ⟨List.nodup_nil, fun u hu => ?_, hmutex, hF, rfl⟩
  exact ⟨mutexRely_of_holder hmutex (.inl hmutex) hu, fun _ => ⟨rfl, .inr rfl⟩⟩

/-- **The places of the client's functions are kept.** -/
theorem rules (h : Knows t F L) :
    DestroyRules (clientSystem start) (subscribedOnce cfg) t (places t F L) where
  idle_quiet a ha := rule_free h (leavesList_of_quiet ha)
  idle_mark := rule_free h (a := .storeConnected false) trivial
  idle_lock := by
    refine actionRule_of_lock (fun _ _ _ => trivial) (stable_holder h L) ?_
    intro s hinv hs hnone
    have hsame : SameList s { s with mutex := some t } := ⟨rfl, rfl⟩
    exact ⟨hsame.nodup hinv,
      fun u hu => ⟨mutexRely_of_lock hnone hu, fun _ => ⟨rfl, .inl rfl⟩⟩, rfl, hs.2⟩
  held_quiet a ha := rule_holder h (leavesList_of_quiet ha) L fun _ => rfl
  held_loadConnected := rule_holder h (a := .loadConnected) trivial L fun _ => ite_self _
  held_loadConn := rule_holder h (a := .loadConn) trivial L fun r => by cases r <;> rfl
  held_mark := rule_holder h (a := .storeConnected false) trivial L fun _ => rfl
  held_unlock := rule_unlock h
  heldAt_held c s hs := hs
  heldAt_quiet c a ha := rule_holder h (leavesList_of_quiet ha) L fun _ => rfl
  down_held s hs := hs
  down_destroy := rule_destroy h
  wiped_loadConn :=
    rule_holder h (a := .loadConn) trivial (· = []) fun r => by cases r <;> rfl
  wipedAt_close c := rule_holder h (a := .closeConn c) trivial (· = []) fun _ => rfl
  shut_clear := rule_holder h (a := .clearConn) trivial (· = []) fun _ => rfl
  cleared_mark := rule_holder h (a := .storeConnected false) trivial (· = []) fun _ => rfl
  off_cleared s hs := hs
  off_down s hs := ⟨hs.1, hs.2.1, hs.2.2 ▸ h.nil⟩
  off_quiet a ha := rule_holder h (leavesList_of_quiet ha) (· = []) fun _ => rfl
  off_connect := rule_holder h (a := .connectConn) trivial (· = []) fun _ => ite_self _
  fresh_mark := (rule_holder h (a := .storeConnected true) trivial L fun _ => rfl).mono_left
    fun _ hs => ⟨hs.1, hs.2.1, hs.2.2 ▸ h.nil⟩
  held_destroy := rule_destroy h
  wiped_held s hs := ⟨hs.1, hs.2.1, hs.2.2 ▸ h.nil⟩
  heldAt_drain c := rule_holder h (a := .drainConn c) trivial L fun _ => rfl
  idle_shutdown := rule_free h (a := .storeShutdown) trivial

/-! ## The loop -/

/-- The place of the loop between two actions of a pass, with its locals and what it
knows of the list. -/
def looping (v : Option LoopVars) (L : List Bytes → Prop) : WorkerState → Prop :=
  (places loopThread (· = v) L).idle

theorem knows_loop (v : Option LoopVars) (hnil : L []) : Knows loopThread (· = v) L :=
  ⟨hnil, .inl rfl⟩

theorem dbUnlisted_nil (v : Option LoopVars) : DbUnlisted cfg v [] :=
  fun _ _ _ _ _ => List.not_mem_nil

/-- The rules of the loop's thread between two assignments. -/
theorem loopRules (v : Option LoopVars) :
    DestroyRules (clientSystem start) (subscribedOnce cfg) loopThread
      (places loopThread (· = v) (DbUnlisted cfg v)) :=
  rules (knows_loop v (dbUnlisted_nil v))

/-- The loop subscribes to a subject that it knows not to be in the list. -/
theorem subscribeRules (v : Option LoopVars) (hnil : L []) {subject : Bytes}
    (hfresh : ∀ l, L l → subject ∉ l) :
    SubscribeRules (clientSystem start) (subscribedOnce cfg) loopThread
      (places loopThread (· = v) L) subject where
  toCallRules := (rules (knows_loop v hnil)).toCallRules
  push c := by
    refine actionRule_of_update
      (fun _ s => { s with subscriptions := s.subscriptions ++ [⟨subject, c⟩] })
      (fun _ s => ⟨(), rfl⟩) (fun _ _ _ => trivial)
      (fun _ => stable_holder (knows_loop v hnil) (Pushed L subject)) ?_
    rintro heads s - hinv ⟨hmutex, hvars, hL⟩ -
    have hsubjects : subjects { s with subscriptions := s.subscriptions ++ [⟨subject, c⟩] } =
        subjects s ++ [subject] := List.map_append
    have hnodup : (subjects { s with
        subscriptions := s.subscriptions ++ [⟨subject, c⟩] }).Nodup := by
      rw [hsubjects, ← List.concat_eq_append]
      exact List.Nodup.concat (hfresh _ hL) hinv
    exact ⟨hnodup,
      fun u hu => ⟨mutexRely_of_holder hmutex (.inl hmutex) hu, fun h => absurd h hu⟩,
      hmutex, hvars, .inr ⟨subjects s, hL, hsubjects⟩⟩
  pushed := rule_unlock (knows_loop v (.inl rfl))

/-- An assignment of the locals. -/
theorem rule_modifyVars {P : WorkerState → Prop} {w : Option LoopVars} (hnil : L [])
    (hP : ∀ s, P s → s.mutex ≠ some loopThread ∧
      ((∀ v, w = some v → v.subscribing = true → s.subscriptions = []) → L (subjects s))) :
    ActionRule (clientSystem start) (subscribedOnce cfg) loopThread P (.modifyVars fun _ => w)
      fun _ => looping w L := by
  refine actionRule_of_update (fun _ s => { s with vars := w }) (fun _ _ => ⟨(), rfl⟩)
    (fun _ _ _ => trivial) (fun _ => stable_free (knows_loop w hnil)) ?_
  intro heads s _ hinv hs hcondition
  obtain ⟨hmutex, hL⟩ := hP s hs
  exact ⟨hinv, fun u hu => ⟨mutexRely_of_same rfl rfl, fun h => absurd h hu⟩, hmutex, rfl,
    hL fun v hv => hcondition _ v rfl hv⟩

/-- An assignment after which the DB gateway's subject is not in the list, or need not
be. -/
theorem rule_assign {v v' : LoopVars} (hflags : v'.subscriptionActive = true →
      v'.dbSubscriptionActive = false →
      v.subscriptionActive = true ∧ v.dbSubscriptionActive = false) :
    ActionRule (clientSystem start) (subscribedOnce cfg) loopThread
      (looping (some v) (DbUnlisted cfg (some v))) (.modifyVars fun _ => some v')
      fun _ => looping (some v') (DbUnlisted cfg (some v')) := by
  refine rule_modifyVars (dbUnlisted_nil _) fun s hs => ⟨hs.1, fun _ => ?_⟩
  rintro w ⟨⟩ hactive hdb
  obtain ⟨hactive', hdb'⟩ := hflags hactive hdb
  exact hs.2.2 v rfl hactive' hdb'

theorem outline_refresh (v : LoopVars) :
    Outline (clientSystem start) (subscribedOnce cfg) loopThread
      (looping (some v) (DbUnlisted cfg (some v))) (refresh v)
      fun v' => looping (some v') (DbUnlisted cfg (some v')) := by
  refine .bind (outline_isConnected (loopRules (some v)).toCallRules) fun sampled => ?_
  by_cases hrestored : (sampled && !v.wasConnected) = true
  · rw [if_pos hrestored]
    refine .bind (.perform (rule_assign nofun)) fun _ =>
      .bind (outline_unsubscribe (loopRules _)) fun _ =>
      .bind (.perform (rule_assign nofun)) fun _ => .pure fun _ hs => hs
  · rw [if_neg hrestored]
    exact .bind (.perform (rule_assign fun hactive hdb => ⟨hactive, hdb⟩)) fun _ =>
      .pure fun _ hs => hs

/-- The list is empty when the loop goes to subscribe, so that it holds nothing but
the new subscription afterwards. -/
theorem outline_subscribeWorker (hcfg : cfg.dbEnabled = true → cfg.subject ≠ cfg.dbSubject)
    (v : LoopVars) :
    Outline (clientSystem start) (subscribedOnce cfg) loopThread
      (looping (some v) (DbUnlisted cfg (some v))) (subscribeWorker cfg v)
      fun v' => looping (some v') (DbUnlisted cfg (some v')) := by
  refine .bind (outline_isConnected (loopRules (some v)).toCallRules) fun r => ?_
  cases r with
  | false => exact .pure fun _ hs => hs
  | true =>
    by_cases hactive : v.subscriptionActive = true
    · rw [if_pos rfl, if_pos hactive]
      exact .pure fun _ hs => hs
    · rw [if_pos rfl, if_neg hactive]
      have henter : ActionRule (clientSystem start) (subscribedOnce cfg) loopThread
          (looping (some v) (DbUnlisted cfg (some v)))
          (.modifyVars fun _ => some { v with subscribing := true })
          fun _ => looping (some { v with subscribing := true }) (· = []) := by
        refine rule_modifyVars rfl fun s hs => ⟨hs.1, fun hempty => ?_⟩
        rw [subjects, hempty _ rfl rfl]
        rfl
      refine .bind (.perform henter) fun _ =>
        .bind (outline_subscribe (subscribeRules (L := (· = [])) _ rfl ?_)) fun ok => ?_
      · rintro l rfl
        exact List.not_mem_nil
      · cases ok with
        | false =>
          refine .bind (.perform (rule_modifyVars (L := DbUnlisted cfg _) (dbUnlisted_nil _)
            fun s hs => ⟨hs.1, fun _ => ?_⟩)) fun _ => .pure fun _ hs => hs
          rw [hs.2.2]
          exact dbUnlisted_nil _
        | true =>
          refine .bind (.perform (rule_modifyVars (L := DbUnlisted cfg _) (dbUnlisted_nil _)
            fun s hs => ⟨hs.1, fun _ => ?_⟩)) fun _ => .pure fun _ hs => hs
          rcases hs.2.2 with hnil | ⟨l, rfl, hl⟩
          · rw [hnil]
            exact dbUnlisted_nil _
          · rw [hl]
            rintro w - - - hdb
            exact fun hmem => hcfg hdb (List.mem_singleton.mp hmem).symm

/-- The DB gateway subscribes while its subject is not in the list. -/
theorem outline_subscribeDbQuerySubject {v : LoopVars} (hactive : v.subscriptionActive = true)
    (hdb : v.dbSubscriptionActive = false) (henabled : cfg.dbEnabled = true) :
    Outline (clientSystem start) (subscribedOnce cfg) loopThread
      (looping (some v) (DbUnlisted cfg (some v))) (subscribeDbQuerySubject cfg v)
      fun ok => looping (some v) fun l => ok = false → DbUnlisted cfg (some v) l := by
  by_cases hready : (!cfg.dbEnabled || !v.dbReady) = true
  · rw [subscribeDbQuerySubject, if_pos hready]
    exact .pure fun s hs => ⟨hs.1, hs.2.1, Bool.noConfusion⟩
  · rw [subscribeDbQuerySubject, if_neg hready]
    refine (outline_subscribe (subscribeRules _ (dbUnlisted_nil _)
      fun l hl => hl v rfl hactive hdb henabled)).mono_right ?_
    intro ok s hs
    cases ok with
    | false => exact ⟨hs.1, hs.2.1, fun _ => hs.2.2⟩
    | true => exact ⟨hs.1, hs.2.1, Bool.noConfusion⟩

theorem outline_ensureDbQuerySubscription {v : LoopVars} (hactive : v.subscriptionActive = true)
    (hdb : v.dbSubscriptionActive = false) :
    Outline (clientSystem start) (subscribedOnce cfg) loopThread
      (looping (some v) (DbUnlisted cfg (some v))) (ensureDbQuerySubscription cfg v)
      fun r => looping (some r.2) fun l => r.1 = false →
        r.2.dbSubscriptionActive = false ∧ DbUnlisted cfg (some r.2) l := by
  rw [ensureDbQuerySubscription]
  by_cases hdisabled : (!cfg.dbEnabled) = true
  · rw [if_pos hdisabled]
    exact .pure fun s hs => ⟨hs.1, hs.2.1, Bool.noConfusion⟩
  · rw [if_neg hdisabled]
    have henabled : cfg.dbEnabled = true := by
      simpa using hdisabled
    refine .bind (outline_initDatabases (loopRules (some v)).toCallRules v) fun ready =>
      .bind (.perform (rule_assign fun hactive hdb => ⟨hactive, hdb⟩)) fun _ => ?_
    cases ready with
    | false => exact .pure fun s hs => ⟨hs.1, hs.2.1, fun _ => ⟨hdb, hs.2.2⟩⟩
    | true =>
      refine .bind (outline_subscribeDbQuerySubject hactive hdb henabled) fun ok => .pure ?_
      exact fun s hs => ⟨hs.1, hs.2.1, fun hok => ⟨hdb, hs.2.2 hok⟩⟩

theorem outline_subscribeDb (v : LoopVars) :
    Outline (clientSystem start) (subscribedOnce cfg) loopThread
      (looping (some v) (DbUnlisted cfg (some v))) (subscribeDb cfg v)
      fun v' => looping (some v') (DbUnlisted cfg (some v')) := by
  refine .bind (outline_isConnected (loopRules (some v)).toCallRules) fun r => ?_
  cases r with
  | false => exact .pure fun _ hs => hs
  | true =>
    by_cases hflags : (v.subscriptionActive && !v.dbSubscriptionActive) = true
    · rw [if_pos rfl, if_pos hflags]
      obtain ⟨hactive, hdb⟩ := Bool.and_eq_true_iff.mp hflags
      refine .bind (outline_ensureDbQuerySubscription hactive (Bool.not_eq_true' _ ▸ hdb))
        fun ⟨ok, v'⟩ => .bind (.perform (rule_modifyVars (L := DbUnlisted cfg _)
          (dbUnlisted_nil _) fun s hs => ⟨hs.1, fun _ => ?_⟩)) fun _ => .pure fun _ hs => hs
      rintro w ⟨⟩ hactive' hok henabled
      obtain ⟨hdb', hunlisted⟩ := hs.2.2 hok
      exact hunlisted v' rfl hactive' hdb' henabled
    · rw [if_pos rfl, if_neg hflags]
      exact .pure fun _ hs => hs

theorem outline_checkLost (v : LoopVars) :
    Outline (clientSystem start) (subscribedOnce cfg) loopThread
      (looping (some v) (DbUnlisted cfg (some v))) (checkLost v)
      fun v' => looping (some v') (DbUnlisted cfg (some v')) := by
  refine .bind (outline_isConnected (loopRules (some v)).toCallRules) fun r => ?_
  cases r with
  | true => exact .pure fun _ hs => hs
  | false => exact .bind (.perform (rule_assign nofun)) fun _ => .pure fun _ hs => hs

theorem idle_of_looping {v : Option LoopVars} {s : WorkerState}
    (hs : looping v (DbUnlisted cfg v) s) : (subscribedOnce cfg).idle loopThread s :=
  ⟨hs.1, fun _ => hs.2.1 ▸ hs.2.2⟩

theorem outline_leaveLoop (v : LoopVars) :
    Outline (clientSystem start) (subscribedOnce cfg) loopThread
      (looping (some v) (DbUnlisted cfg (some v))) leaveLoop
      fun _ => (subscribedOnce cfg).idle loopThread := by
  refine .bind (.perform (rule_modifyVars (w := none) (L := DbUnlisted cfg none)
    (dbUnlisted_nil _) fun s hs => ⟨hs.1, fun _ => nofun⟩)) fun _ => ?_
  exact (outline_drain (loopRules none)).mono_right fun _ _ hs => idle_of_looping hs

/-- Reading the locals tells what they are. -/
theorem rule_getVars :
    ActionRule (clientSystem start) (subscribedOnce cfg) loopThread
      ((subscribedOnce cfg).idle loopThread) .getVars
      fun v => looping v (DbUnlisted cfg v) := by
  refine actionRule_of_quiet (a := .getVars) trivial
    (fun u s => SameList.rely (s := s) ⟨rfl, rfl⟩ rfl u) (fun _ _ _ => trivial)
    (fun v => stable_free (knows_loop v (dbUnlisted_nil v))) fun _ s v hs hread => ?_
  obtain rfl : s.vars = v := congrArg Prod.fst (Option.some.inj hread)
  exact ⟨hs.1, rfl, hs.2 rfl⟩

theorem rule_ask (v : LoopVars) :
    ActionRule (clientSystem start) (subscribedOnce cfg) loopThread
      (looping (some v) (DbUnlisted cfg (some v))) .ask
      fun _ => looping (some v) (DbUnlisted cfg (some v)) :=
  (loopRules (some v)).idle_quiet .ask trivial

/-- **One pass of the loop.** -/
theorem outline_pass (hcfg : cfg.dbEnabled = true → cfg.subject ≠ cfg.dbSubject) :
    Outline (clientSystem start) (subscribedOnce cfg) loopThread
      ((subscribedOnce cfg).idle loopThread) (pass cfg)
      fun _ => (subscribedOnce cfg).idle loopThread := by
  refine .bind (.perform rule_getVars) fun v => ?_
  cases v with
  | none => exact .pure fun _ hs => idle_of_looping hs
  | some v =>
    refine .bind (.perform (rule_ask v)) fun clear => ?_
    cases clear with
    | false => exact outline_leaveLoop v
    | true =>
      refine .bind (outline_refresh v) fun v =>
        .bind (outline_reconnect (loopRules (some v)).toCallRules) fun _ =>
        .bind (.perform (rule_ask v)) fun clear => ?_
      cases clear with
      | false => exact outline_leaveLoop v
      | true =>
        exact .bind (outline_subscribeWorker hcfg v) fun v =>
          .bind (outline_subscribeDb v) fun v => .bind (outline_checkLost v) fun v =>
          (outline_recordPass (loopRules (some v)).toCallRules v).mono_right
            fun _ _ hs => idle_of_looping hs

theorem outline_enterLoop :
    Outline (clientSystem start) (subscribedOnce cfg) loopThread
      ((subscribedOnce cfg).idle loopThread) enterLoop
      fun _ => (subscribedOnce cfg).idle loopThread := by
  refine .bind (.perform rule_getVars) fun v => ?_
  cases v with
  | some v => exact .pure fun _ hs => idle_of_looping hs
  | none =>
    refine .bind (outline_isConnected (loopRules none).toCallRules) fun connected => ?_
    refine Outline.mono_right (.perform (rule_modifyVars (L := DbUnlisted cfg _)
      (dbUnlisted_nil _) fun s hs => ⟨hs.1, fun _ => ?_⟩)) fun _ _ hs => idle_of_looping hs
    rintro w ⟨⟩
    exact nofun

/-! ## The other threads -/

theorem knows_nothing : Knows t (fun _ => True) fun _ => True :=
  ⟨trivial, .inr ⟨fun _ => trivial, fun _ => trivial⟩⟩

theorem outline_free (ht : t ≠ loopThread) {p : LoopProg Unit}
    (h : Outline (clientSystem start) (subscribedOnce cfg) t
      (places t (fun _ => True) fun _ => True).idle p
      fun _ => (places t (fun _ => True) fun _ => True).idle) :
    Outline (clientSystem start) (subscribedOnce cfg) t ((subscribedOnce cfg).idle t) p
      fun _ => (subscribedOnce cfg).idle t :=
  (h.mono_left fun _ hs => ⟨hs.1, trivial, trivial⟩).mono_right
    fun _ _ hs => ⟨hs.1, fun heq => absurd heq ht⟩

theorem outline_async (kind : CallbackKind) :
    Outline (clientSystem start) (subscribedOnce cfg) .async ((subscribedOnce cfg).idle .async)
      (callback kind) fun _ => (subscribedOnce cfg).idle .async := by
  have ht : ThreadId.async ≠ loopThread := nofun
  exact outline_free ht (outline_callback
    ((rules knows_nothing).idle_quiet .loadShutdown trivial)
    (fun value => rule_free knows_nothing (a := .storeConnected value) trivial)
    (fun _ hs => hs) kind)

/-- What the threads of the worker start. -/
theorem outline_soleSubscriberBody (hcfg : cfg.dbEnabled = true → cfg.subject ≠ cfg.dbSubject)
    {n : ℕ} {call : WorkerCall} {p : LoopProg Unit}
    (h : soleSubscriberBody cfg n call = some p) :
    Outline (clientSystem start) (subscribedOnce cfg) (.caller n)
      ((subscribedOnce cfg).idle (.caller n)) p fun _ => (subscribedOnce cfg).idle (.caller n) := by
  obtain ⟨hsubscribe, hbody⟩ := Option.ite_none_left_eq_some.mp h
  cases n with
  | zero =>
    cases call with
    | enterLoop =>
      cases hbody
      exact outline_enterLoop
    | pass =>
      cases hbody
      exact outline_pass hcfg
    | client call => cases hbody
  | succ n =>
    cases call with
    | enterLoop => cases hbody
    | pass => cases hbody
    | client call =>
      obtain ⟨hcall, hp⟩ := Option.ite_none_left_eq_some.mp hbody
      cases hp
      refine outline_free ?_ (outline_call (rules knows_nothing).toCallRules
        (Bool.not_eq_true _ ▸ hcall) (Bool.not_eq_true _ ▸ hsubscribe))
      exact fun heq => nomatch ThreadId.caller.inj heq

end Rules

theorem stable_idle : (subscribedOnce cfg).Stable t ((subscribedOnce cfg).idle t) := by
  rintro s s' ⟨hmutex, hdb⟩ hrely
  refine ⟨hrely.1.1 hmutex, fun ht => ?_⟩
  have hwiped := hrely.2 ht
  rw [hwiped.1]
  rcases subjects_wiped hwiped with heq | hnil
  · rw [heq]
    exact hdb ht
  · rw [hnil]
    exact dbUnlisted_nil _

theorem kept (hcfg : cfg.dbEnabled = true → cfg.subject ≠ cfg.dbSubject) :
    (subscribedOnce cfg).Kept (soleSubscriberSystem cfg) where
  idle_stable _ := stable_idle
  start t call s p s' hinv hidle hstart := by
    cases t with
    | caller n =>
      cases call with
      | inr index => cases hstart
      | inl call =>
        obtain ⟨body, hbody, heq⟩ := Option.map_eq_some_iff.mp hstart
        cases heq
        have hsame : SameList s s := ⟨rfl, rfl⟩
        exact ⟨hinv, fun u _ => hsame.rely rfl u, _, stable_idle, hidle,
          outline_soleSubscriberBody hcfg hbody⟩
    | async =>
      cases call with
      | inl call => cases hstart
      | inr index =>
        obtain ⟨cb, -, heq⟩ := Option.map_eq_some_iff.mp hstart
        cases heq
        have hsame : SameList s
            { s with posted := s.posted.eraseIdx index, delivering := some cb } := ⟨rfl, rfl⟩
        exact ⟨hsame.nodup hinv, fun u _ => hsame.rely rfl u, _, stable_idle, hidle,
          outline_async cb.kind⟩
  env e s s' hinv _ hstep := by
    obtain ⟨c, status, kinds, rfl, -⟩ := libraryStep_cases hstep
    have hsame : SameList s (s.setStatus c status kinds) := ⟨rfl, rfl⟩
    exact ⟨hsame.nodup hinv, hsame.rely rfl⟩

theorem good_initial : (subscribedOnce cfg).Good (soleSubscriberSystem cfg) newWorker where
  inv := List.nodup_nil
  outline t := ⟨(subscribedOnce cfg).idle t, stable_idle, ⟨nofun, fun _ => nofun⟩, fun _ hs => hs⟩

end SubscribedOnce

/-! ## Runs -/

/-- The loop enters `subscribe_worker_subject()` only with an empty list. -/
def EntersUnsubscribed (c : WorkerSystemConfig) (e : WorkerEvent) : Prop :=
  ∀ t choice f v, e = .act t choice → c.heads t = some (.modifyVars f) →
    f c.shared.vars = some v → v.subscribing = true → c.shared.subscriptions = []

/-- At the end of a pass the list holds at most one entry for the worker's subject and
at most one for the DB gateway's. -/
def AtMostOneEach (cfg : LoopConfig) (c : WorkerSystemConfig) : Prop :=
  c.heads loopThread = none →
    (subjects c.shared).count cfg.subject ≤ 1 ∧ (subjects c.shared).count cfg.dbSubject ≤ 1

theorem meets_of_entersUnsubscribed {cfg : LoopConfig} {c : WorkerSystemConfig} {e : WorkerEvent}
    (h : EntersUnsubscribed c e) : (subscribedOnce cfg).Meets c e := by
  cases e with
  | start t call => trivial
  | env e => trivial
  | act t choice =>
    rintro a ha f v rfl
    exact h t choice f v rfl ha

/-- **The worker is subscribed at most once to each subject**, in any interleaving of
passes, calls of the pool, drops, reconnects and callbacks, if the loop goes to
subscribe only with an empty list and the two subjects differ. -/
theorem subscribed_once (cfg : LoopConfig)
    (hcfg : cfg.dbEnabled = true → cfg.subject ≠ cfg.dbSubject) (es : List WorkerEvent)
    (h : StepsMeet (soleSubscriberSystem cfg).step EntersUnsubscribed newWorker es) :
    Always (soleSubscriberSystem cfg).step (AtMostOneEach cfg) newWorker es :=
  always_of_stepsMeet
    (fun _ _ _ hgood hmeets hstep => (subscribedOnce cfg).good_step (SubscribedOnce.kept hcfg)
      hgood (meets_of_entersUnsubscribed hmeets) hstep)
    (fun _ hgood _ => ⟨List.nodup_iff_count_le_one.mp hgood.inv _,
      List.nodup_iff_count_le_one.mp hgood.inv _⟩)
    SubscribedOnce.good_initial h

/-! ## A flap around the end of a pass -/

/-- The server is lost at the end of the first pass, which clears the flag, and is
found again by the library before the second pass. -/
def flapBetweenPasses : List WorkerEvent :=
  firstPass ++ ([.env (.dropped 0), .start .async (.inr 0)] : List WorkerEvent) ++ steps .async 2 ++
  steps loopThread 2 ++
  ([.env (.reconnected 0), .start .async (.inr 0)] : List WorkerEvent) ++ steps .async 2 ++
  ([.start loopThread (.inl .pass)] : List WorkerEvent) ++ steps loopThread 48

/-- After the flap the worker is subscribed twice to its subject. -/
theorem not_subscribedOnce_flap :
    ¬ ∀ cfg : LoopConfig, (cfg.dbEnabled = true → cfg.subject ≠ cfg.dbSubject) →
      ∀ es, Always (soleSubscriberSystem cfg).step (AtMostOneEach cfg) newWorker es := by
  intro hall
  have hobserved : ((run (soleSubscriberSystem plainWorker).step newWorker flapBetweenPasses).map
      fun c => (c.heads loopThread, (subjects c.shared).count plainWorker.subject)) =
      some (none, 2) := by rfl
  obtain ⟨c, hc, hvalues⟩ := Option.map_eq_some_iff.mp hobserved
  obtain ⟨hidle, hcount⟩ := Prod.mk.inj hvalues
  have honce : AtMostOneEach plainWorker c :=
    always_iff.mp (hall plainWorker nofun flapBetweenPasses) _ [] c (List.append_nil _).symm hc
  have hle := (honce hidle).1
  omega

/-- A test that the list is empty when the loop goes to subscribe. -/
def enterTest (c : WorkerSystemConfig) : WorkerEvent → Bool
  | .act t _ =>
    match c.heads t with
    | some (.modifyVars f) =>
      (f c.shared.vars).all fun v => !v.subscribing || c.shared.subscriptions.isEmpty
    | _ => true
  | _ => true

theorem entersUnsubscribed_of_test {c : WorkerSystemConfig} {e : WorkerEvent}
    (h : enterTest c e = true) : EntersUnsubscribed c e := by
  rintro t choice f v rfl hhead hv hsubscribing
  simp only [enterTest, hhead, hv, Option.all_some, hsubscribing, Bool.not_true,
    Bool.false_or] at h
  exact List.isEmpty_iff.mp h

theorem subscribed_once_after_recovery :
    ((run (soleSubscriberSystem plainWorker).step newWorker recovery).map fun c =>
      (c.heads loopThread, c.shared.conn, subjects c.shared)) =
        some (none, some 1, [plainWorker.subject]) ∧
      Always (soleSubscriberSystem plainWorker).step (AtMostOneEach plainWorker) newWorker
        recovery :=
  ⟨by rfl, subscribed_once plainWorker nofun recovery
    (stepsMeet_of_stepsCheck (fun _ _ => entersUnsubscribed_of_test) (by decide +kernel))⟩

end Worker
end HttpDataDiod
