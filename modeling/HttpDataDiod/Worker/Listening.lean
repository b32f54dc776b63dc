import HttpDataDiod.Worker.NatsLoop

/-!
# The worker hears what it is subscribed to

The loop's flags say that the worker is subscribed; the list of subscriptions is
the client's, and every `connect()` of every thread wipes it.  The flags are
right as long as no thread wipes the list while the loop counts on it.

* `Subscribed`: a subject is in the list, on the current connection.
* `listening`: what the threads keep: a set flag means a subscription in the list.
* `subscribed_when_active`: if the list is only wiped while the flags are clear
  and the loop is not just subscribing, then at the end of every pass a set flag
  means a live subscription.
* `worker_deaf`: a run in which a publishing thread reconnects between two passes
  and leaves the worker without its subscription, with its flag set.
-/

namespace HttpDataDiod
namespace Worker

open Interleaving Transition ByteText Nats

/-- The shared state of the worker. -/
abbrev WorkerState := Client (Option LoopVars)

/-- The subject is in `m_subscriptions`, on the current connection. -/
def Subscribed (s : WorkerState) (subject : Bytes) : Prop :=
  ∃ sub ∈ s.subscriptions, sub.subject = subject ∧ s.conn = some sub.conn

/-- The loop counts on the subscription: a flag is set, or it is about to be. -/
def LoopVars.Counts (cfg : LoopConfig) (v : LoopVars) (subject : Bytes) : Prop :=
  v.subscriptionActive = true ∨ v.dbSubscriptionActive = true ∨
    (v.subscribing = true ∧ subject = cfg.subject)

/-- The list may be wiped by a thread: no flag is set, and, if it is not the loop
itself that wipes it, the loop has not just subscribed. -/
def Wipeable (cfg : LoopConfig) (t : ThreadId) (s : WorkerState) : Prop :=
  ∀ v, s.vars = some v → v.subscriptionActive = false ∧ v.dbSubscriptionActive = false ∧
    (t ≠ loopThread → v.subscribing = true → ¬ Subscribed s cfg.subject)

/-- Every set flag has its subscription in the list, and every subscription in the
list is on the current connection. -/
structure FlagsRight (cfg : LoopConfig) (s : WorkerState) : Prop where
  current : ∀ sub ∈ s.subscriptions, s.conn = some sub.conn
  active : ∀ v, s.vars = some v → v.subscriptionActive = true → Subscribed s cfg.subject
  dbActive : ∀ v, s.vars = some v → v.dbSubscriptionActive = true → cfg.dbEnabled = true →
    Subscribed s cfg.dbSubject

/-- What the holder of the mutex relies on. -/
def HolderKeeps (s s' : WorkerState) : Prop :=
  s'.conn = s.conn ∧ s'.subscriptions = s.subscriptions

/-- What the loop relies on: its locals, and the subscriptions it counts on. -/
def LoopKeeps (cfg : LoopConfig) (s s' : WorkerState) : Prop :=
  s'.vars = s.vars ∧ ∀ v subject, s.vars = some v → v.Counts cfg subject →
    Subscribed s subject → Subscribed s' subject

/-- **What the threads keep.** -/
def listening (cfg : LoopConfig) :
    Contract ThreadId (Action (Option LoopVars)) WorkerState LibraryEvent where
  inv := FlagsRight cfg
  rely t s s' := MutexRely HolderKeeps t s s' ∧ (t = loopThread → LoopKeeps cfg s s')
  check _ _ _ := True
  idle t s := s.mutex ≠ some t
  condition _ t a s := a = .destroySubscriptions → Wipeable cfg t s
  envCondition _ _ := True

namespace Listening

variable {cfg : LoopConfig} {t : ThreadId} {F : Option LoopVars → Prop}

/-- The places of the client's functions, with what the thread knows of the
loop's locals. -/
def places (cfg : LoopConfig) (t : ThreadId) (F : Option LoopVars → Prop) :
    Places (Option LoopVars) where
  idle s := s.mutex ≠ some t ∧ F s.vars
  held s := s.mutex = some t ∧ F s.vars
  heldAt c s := (s.mutex = some t ∧ s.conn = some c) ∧ F s.vars
  down s := s.mutex = some t ∧ F s.vars
  wiped s := (s.mutex = some t ∧ s.subscriptions = []) ∧ F s.vars
  wipedAt _ s := (s.mutex = some t ∧ s.subscriptions = []) ∧ F s.vars
  shut s := (s.mutex = some t ∧ s.subscriptions = []) ∧ F s.vars
  cleared s := (s.mutex = some t ∧ s.subscriptions = []) ∧ F s.vars
  off s := (s.mutex = some t ∧ s.subscriptions = []) ∧ F s.vars
  fresh s := s.mutex = some t ∧ F s.vars
  pushed subject s := (s.mutex = some t ∧ Subscribed s subject) ∧ F s.vars
  subscribed subject s :=
    (s.mutex ≠ some t ∧ ∀ v, t = loopThread → s.vars = some v → v.Counts cfg subject →
      Subscribed s subject) ∧ F s.vars

/-! ## What the others do -/

/-- Neither the list nor the connection nor the locals change. -/
def SameSubscriptions (s s' : WorkerState) : Prop :=
  s'.subscriptions = s.subscriptions ∧ s'.conn = s.conn ∧ s'.vars = s.vars

theorem SameSubscriptions.subscribed {s s' : WorkerState} (h : SameSubscriptions s s')
    {subject : Bytes} (hs : Subscribed s subject) : Subscribed s' subject := by
  obtain ⟨sub, hmem, hsubject, hconn⟩ := hs
  exact ⟨sub, h.1 ▸ hmem, hsubject, h.2.1.trans hconn⟩

theorem SameSubscriptions.loopKeeps {s s' : WorkerState} (h : SameSubscriptions s s') :
    LoopKeeps cfg s s' :=
  ⟨h.2.2, fun _ _ _ _ hs => h.subscribed hs⟩

theorem SameSubscriptions.flagsRight {s s' : WorkerState} (h : SameSubscriptions s s')
    (hinv : FlagsRight cfg s) : FlagsRight cfg s' where
  current sub hmem := h.2.1.trans (hinv.current sub (h.1 ▸ hmem))
  active v hv hactive := h.subscribed (hinv.active v (h.2.2 ▸ hv) hactive)
  dbActive v hv hactive hdb := h.subscribed (hinv.dbActive v (h.2.2 ▸ hv) hactive hdb)

theorem SameSubscriptions.rely {s s' : WorkerState} (h : SameSubscriptions s s')
    (hmutex : s'.mutex = s.mutex) (u : ThreadId) : (listening cfg).rely u s s' :=
  ⟨mutexRely_of_same hmutex ⟨h.2.1, h.1⟩, fun _ => h.loopKeeps⟩

/-- What a thread knows of the loop's locals stays true, if it is the loop or knows
nothing. -/
theorem stable_vars (hF : t = loopThread ∨ ∀ v, F v) {P : WorkerState → Prop}
    (hP : (listening cfg).Stable t P) : (listening cfg).Stable t fun s => P s ∧ F s.vars := by
  rintro s s' ⟨hs, hvars⟩ hrely
  refine ⟨hP s s' hs hrely, ?_⟩
  rcases hF with ht | hF
  · rw [(hrely.2 ht).1]
    exact hvars
  · exact hF _

theorem stable_idle : (listening cfg).Stable t fun s => s.mutex ≠ some t :=
  fun _ _ hs hrely => hrely.1.1 hs

/-- What the holder of the mutex knows of the connection and the list stays true. -/
theorem stable_holder (p : Option ℕ → List Subscription → Prop) :
    (listening cfg).Stable t fun s => s.mutex = some t ∧ p s.conn s.subscriptions := by
  rintro s s' ⟨hmutex, hp⟩ ⟨⟨-, hrely⟩, -⟩
  obtain ⟨hmutex', hconn, hsubs⟩ := hrely hmutex
  refine ⟨hmutex', ?_⟩
  rw [hconn, hsubs]
  exact hp

theorem stable_held : (listening cfg).Stable t fun s => s.mutex = some t :=
  fun _ _ hs hrely => (hrely.1.2 hs).1

theorem stable_subscribed (subject : Bytes) :
    (listening cfg).Stable t fun s => s.mutex ≠ some t ∧
      ∀ v, t = loopThread → s.vars = some v → v.Counts cfg subject → Subscribed s subject := by
  rintro s s' ⟨hmutex, hs⟩ hrely
  refine ⟨hrely.1.1 hmutex, fun v ht hv hcounts => ?_⟩
  obtain ⟨hvars, hkeeps⟩ := hrely.2 ht
  rw [hvars] at hv
  exact hkeeps v subject hv hcounts (hs v ht hv hcounts)

/-! ## The actions of the client's functions -/

section Rules

variable {K : Type}
  {start : ThreadId → K → WorkerState → Option (LoopProg Unit × WorkerState)}

/-- Reading keeps a place. -/
theorem rule_quiet {P : WorkerState → Prop} {a : Action (Option LoopVars)} (ha : a.Quiet)
    {Q : a.Result → WorkerState → Prop} (hstable : ∀ r, (listening cfg).Stable t (Q r))
    (hread : ∀ choice s r, P s → performAction t a choice s = some (r, s) → Q r s) :
    ActionRule (clientSystem start) (listening cfg) t P a Q :=
  actionRule_of_quiet ha
    (fun u s => SameSubscriptions.rely (s := s) ⟨rfl, rfl, rfl⟩ rfl u)
    (fun _ _ _ => trivial) hstable hread

/-- An action that leaves the list, the connection and the locals alone; it may
give the mutex back. -/
theorem rule_same {P : WorkerState → Prop} {a : Action (Option LoopVars)}
    {Q : a.Result → WorkerState → Prop} (f : a.Result → WorkerState → WorkerState)
    (hf : ∀ choice s, ∃ r, performAction t a choice s = some (r, f r s))
    (hsame : ∀ r s, SameSubscriptions s (f r s))
    (hmutex : ∀ r s, P s → (f r s).mutex = s.mutex ∨ s.mutex = some t ∧ (f r s).mutex = none)
    (hstable : ∀ r, (listening cfg).Stable t (Q r)) (hQ : ∀ r s, P s → Q r (f r s)) :
    ActionRule (clientSystem start) (listening cfg) t P a Q := by
  refine actionRule_of_update f hf (fun _ _ _ => trivial) hstable ?_
  intro heads s r hinv hs _
  refine ⟨(hsame r s).flagsRight hinv, fun u hu => ?_, hQ r s hs⟩
  rcases hmutex r s hs with heq | ⟨hheld, hfree⟩
  · exact (hsame r s).rely heq u
  · exact ⟨mutexRely_of_holder hheld (.inr hfree) hu, fun _ => (hsame r s).loopKeeps⟩

theorem not_subscribed_of_nil {s : WorkerState} (h : s.subscriptions = []) (subject : Bytes) :
    ¬ Subscribed s subject := by
  rintro ⟨sub, hmem, -⟩
  rw [h] at hmem
  cases hmem

/-- The loop counts on nothing in the list. -/
def Uncounted (cfg : LoopConfig) (t : ThreadId) (s : WorkerState) : Prop :=
  ∀ v, s.vars = some v → v.subscriptionActive = false ∧
    (cfg.dbEnabled = true → v.dbSubscriptionActive = false) ∧
    (t ≠ loopThread → ∀ subject, v.Counts cfg subject → ¬ Subscribed s subject)

theorem uncounted_of_wipeable {s : WorkerState} (h : Wipeable cfg t s) : Uncounted cfg t s := by
  intro v hv
  obtain ⟨hactive, hdb, hnot⟩ := h v hv
  refine ⟨hactive, fun _ => hdb, fun ht subject hcounts => ?_⟩
  rcases hcounts with hc | hc | ⟨hc, rfl⟩
  · rw [hactive] at hc
    cases hc
  · rw [hdb] at hc
    cases hc
  · exact hnot ht hc

theorem uncounted_of_nil {s : WorkerState} (hinv : FlagsRight cfg s)
    (hnil : s.subscriptions = []) : Uncounted cfg t s := by
  intro v hv
  refine ⟨?_, fun hdb => ?_, fun _ subject _ => not_subscribed_of_nil hnil subject⟩
  · by_contra hactive
    exact not_subscribed_of_nil hnil _ (hinv.active v hv (Bool.not_eq_false _ ▸ hactive))
  · by_contra hactive
    exact not_subscribed_of_nil hnil _ (hinv.dbActive v hv (Bool.not_eq_false _ ▸ hactive) hdb)

/-- An action of the holder of the mutex that leaves the list empty, when the loop
counts on nothing in it. -/
theorem rule_empty {P : WorkerState → Prop} {a : Action (Option LoopVars)}
    {Q : a.Result → WorkerState → Prop} (f : a.Result → WorkerState → WorkerState)
    (hf : ∀ choice s, ∃ r, performAction t a choice s = some (r, f r s))
    (hP : ∀ s, P s → s.mutex = some t)
    (huncounted : ∀ heads s, FlagsRight cfg s → P s → (listening cfg).condition heads t a s →
      Uncounted cfg t s)
    (hempty : ∀ r s, P s → (f r s).subscriptions = [] ∧ (f r s).vars = s.vars ∧
      (f r s).mutex = s.mutex)
    (hstable : ∀ r, (listening cfg).Stable t (Q r)) (hQ : ∀ r s, P s → Q r (f r s)) :
    ActionRule (clientSystem start) (listening cfg) t P a Q := by
  refine actionRule_of_update f hf (fun _ _ _ => trivial) hstable ?_
  intro heads s r hinv hs hcondition
  obtain ⟨hnil, hvars, hmutex⟩ := hempty r s hs
  have hclear := huncounted heads s hinv hs hcondition
  refine ⟨⟨fun sub hmem => ?_, fun v hv hactive => ?_, fun v hv hactive hdb => ?_⟩, fun u hu => ?_,
    hQ r s hs⟩
  · rw [hnil] at hmem
    cases hmem
  · rw [(hclear v (hvars ▸ hv)).1] at hactive
    cases hactive
  · rw [(hclear v (hvars ▸ hv)).2.1 hdb] at hactive
    cases hactive
  · refine ⟨mutexRely_of_holder (hP s hs) (.inl (hmutex.trans (hP s hs))) hu, ?_⟩
    rintro rfl
    exact ⟨hvars, fun v subject hv hcounts hsub =>
      absurd hsub ((hclear v hv).2.2 hu.symm subject hcounts)⟩

/-- A new subscription on the current connection. -/
theorem rule_push (hF : t = loopThread ∨ ∀ v, F v) (subject : Bytes) (c : ℕ) :
    ActionRule (clientSystem start) (listening cfg) t ((places cfg t F).heldAt c)
      (.pushSubscription ⟨subject, c⟩) fun _ => (places cfg t F).pushed subject := by
  refine actionRule_of_update
    (fun _ s => { s with subscriptions := s.subscriptions ++ [⟨subject, c⟩] })
    (fun _ s => ⟨(), rfl⟩) (fun _ _ _ => trivial) (fun _ => stable_vars hF ?_) ?_
  · exact stable_holder fun conn subs => ∃ sub ∈ subs, sub.subject = subject ∧ conn = some sub.conn
  · rintro heads s - hinv ⟨⟨hmutex, hconn⟩, hvars⟩ -
    have hkeeps : ∀ other, Subscribed s other →
        Subscribed { s with subscriptions := s.subscriptions ++ [⟨subject, c⟩] } other := by
      rintro other ⟨sub, hmem, hsub⟩
      exact ⟨sub, List.mem_append_left _ hmem, hsub⟩
    refine ⟨⟨fun sub hmem => ?_, fun v hv h => hkeeps _ (hinv.active v hv h),
      fun v hv h hdb => hkeeps _ (hinv.dbActive v hv h hdb)⟩, fun u hu => ?_,
      ⟨hmutex, ⟨subject, c⟩, List.mem_append_right _ List.mem_cons_self, rfl, hconn⟩, hvars⟩
    · rcases List.mem_append.mp hmem with hmem | hmem
      · exact hinv.current sub hmem
      · rw [List.mem_singleton.mp hmem]
        exact hconn
    · exact ⟨mutexRely_of_holder hmutex (.inl hmutex) hu,
        fun _ => ⟨rfl, fun _ _ _ _ hsub => hkeeps _ hsub⟩⟩

/-- Wiping the list. -/
theorem rule_destroy (hF : t = loopThread ∨ ∀ v, F v) :
    ActionRule (clientSystem start) (listening cfg) t (places cfg t F).held
      .destroySubscriptions fun _ => (places cfg t F).wiped :=
  rule_empty (fun _ s => { s with subscriptions := [] }) (fun _ _ => ⟨(), rfl⟩) (fun _ hs => hs.1)
    (fun _ _ _ _ hcondition => uncounted_of_wipeable (hcondition rfl))
    (fun _ _ _ => ⟨rfl, rfl, rfl⟩)
    (fun _ => stable_vars hF (stable_holder fun _ subs => subs = []))
    fun _ _ hs => ⟨⟨hs.1, rfl⟩, hs.2⟩

/-- **The places of the client's functions are kept.** -/
theorem rules (hF : t = loopThread ∨ ∀ v, F v) :
    TeardownRules (clientSystem start) (listening cfg) t (places cfg t F) where
  idle_quiet a ha := rule_quiet ha (fun _ => stable_vars hF stable_idle) fun _ _ _ hs _ => hs
  idle_mark := rule_same (fun _ s => { s with connected := false }) (fun _ s => ⟨(), rfl⟩)
    (fun _ _ => ⟨rfl, rfl, rfl⟩) (fun _ _ _ => .inl rfl) (fun _ => stable_vars hF stable_idle)
    fun _ _ hs => hs
  idle_lock := by
    refine actionRule_of_lock (fun _ _ _ => trivial) (stable_vars hF stable_held) ?_
    intro s hinv hs hnone
    have hsame : SameSubscriptions s { s with mutex := some t } := ⟨rfl, rfl, rfl⟩
    exact ⟨hsame.flagsRight hinv,
      fun u hu => ⟨mutexRely_of_lock hnone hu, fun _ => hsame.loopKeeps⟩, rfl, hs.2⟩
  held_quiet a ha := rule_quiet ha (fun _ => stable_vars hF stable_held) fun _ _ _ hs _ => hs
  held_loadConnected := by
    refine rule_quiet (a := .loadConnected) trivial (fun r => ?_) fun _ s r hs _ => ?_
    · cases r <;> exact stable_vars hF stable_held
    · cases r <;> exact hs
  held_loadConn := by
    refine rule_quiet (a := .loadConn) trivial (fun r => ?_) fun _ s r hs hread => ?_
    · cases r with
      | none => exact stable_vars hF stable_held
      | some c => exact stable_vars hF (stable_holder fun conn _ => conn = some c)
    · obtain rfl : s.conn = r := congrArg Prod.fst (Option.some.inj hread)
      cases hconn : s.conn with
      | none => exact hs
      | some c => exact ⟨⟨hs.1, hconn⟩, hs.2⟩
  held_mark := rule_same (fun _ s => { s with connected := false }) (fun _ s => ⟨(), rfl⟩)
    (fun _ _ => ⟨rfl, rfl, rfl⟩) (fun _ _ _ => .inl rfl) (fun _ => stable_vars hF stable_held)
    fun _ _ hs => hs
  held_unlock := rule_same (fun _ s => { s with mutex := none }) (fun _ s => ⟨(), rfl⟩)
    (fun _ _ => ⟨rfl, rfl, rfl⟩) (fun _ _ hs => .inr ⟨hs.1, rfl⟩)
    (fun _ => stable_vars hF stable_idle) fun _ _ hs => ⟨nofun, hs.2⟩
  heldAt_held c s hs := ⟨hs.1.1, hs.2⟩
  heldAt_quiet c a ha := rule_quiet ha
    (fun _ => stable_vars hF (stable_holder fun conn _ => conn = some c)) fun _ _ _ hs _ => hs
  heldAt_push := rule_push hF
  pushed_unlock subject := rule_same (fun _ s => { s with mutex := none }) (fun _ s => ⟨(), rfl⟩)
    (fun _ _ => ⟨rfl, rfl, rfl⟩) (fun _ _ hs => .inr ⟨hs.1.1, rfl⟩)
    (fun _ => stable_vars hF (stable_subscribed subject))
    fun _ _ hs => ⟨⟨nofun, fun _ _ _ _ => hs.1.2⟩, hs.2⟩
  subscribed_idle subject s hs := ⟨hs.1.1, hs.2⟩
  down_held s hs := hs
  down_destroy := rule_destroy hF
  wiped_loadConn := by
    refine rule_quiet (a := .loadConn) trivial (fun r => ?_) fun _ s r hs _ => ?_
    · cases r <;> exact stable_vars hF (stable_holder fun _ subs => subs = [])
    · cases r <;> exact hs
  wipedAt_close c := rule_same (fun _ s => s.closeConn c) (fun _ s => ⟨(), rfl⟩)
    (fun _ _ => ⟨rfl, rfl, rfl⟩) (fun _ _ _ => .inl rfl)
    (fun _ => stable_vars hF (stable_holder fun _ subs => subs = [])) fun _ _ hs => hs
  shut_clear := rule_empty (fun _ s => { s with conn := none }) (fun _ s => ⟨(), rfl⟩)
    (fun _ hs => hs.1.1) (fun _ _ hinv hs _ => uncounted_of_nil hinv hs.1.2)
    (fun _ _ hs => ⟨hs.1.2, rfl, rfl⟩)
    (fun _ => stable_vars hF (stable_holder fun _ subs => subs = [])) fun _ _ hs => hs
  cleared_mark := rule_same (fun _ s => { s with connected := false }) (fun _ s => ⟨(), rfl⟩)
    (fun _ _ => ⟨rfl, rfl, rfl⟩) (fun _ _ _ => .inl rfl)
    (fun _ => stable_vars hF (stable_holder fun _ subs => subs = [])) fun _ _ hs => hs
  off_cleared s hs := hs
  off_down s hs := ⟨hs.1.1, hs.2⟩
  off_quiet a ha := rule_quiet ha
    (fun _ => stable_vars hF (stable_holder fun _ subs => subs = [])) fun _ _ _ hs _ => hs
  off_connect := by
    refine rule_empty (a := .connectConn) (fun r s => if r = .ok then s.openConn else s)
      (fun choice s => ⟨choice, rfl⟩) (fun _ hs => hs.1.1)
      (fun _ _ hinv hs _ => uncounted_of_nil hinv hs.1.2) (fun r s hs => ?_) (fun r => ?_)
      fun r s hs => ?_
    all_goals by_cases hr : r = .ok
    · rw [if_pos hr]
      exact ⟨hs.1.2, rfl, rfl⟩
    · rw [if_neg hr]
      exact ⟨hs.1.2, rfl, rfl⟩
    · rw [if_pos hr]
      exact stable_vars hF stable_held
    · rw [if_neg hr]
      exact stable_vars hF (stable_holder fun _ subs => subs = [])
    · rw [if_pos hr, if_pos hr]
      exact ⟨hs.1.1, hs.2⟩
    · rw [if_neg hr, if_neg hr]
      exact hs
  fresh_mark := rule_same (fun _ s => { s with connected := true }) (fun _ s => ⟨(), rfl⟩)
    (fun _ _ => ⟨rfl, rfl, rfl⟩) (fun _ _ _ => .inl rfl) (fun _ => stable_vars hF stable_held)
    fun _ _ hs => hs
  held_destroy := rule_destroy hF
  wiped_held s hs := ⟨hs.1.1, hs.2⟩
  heldAt_drain c := by
    refine rule_same (a := .drainConn c)
      (fun r s => if r = .ok then s.setStatus c .drainingSubs [] else s)
      (fun choice s => ⟨choice, rfl⟩) (fun r s => ?_) (fun r s hs => .inl ?_)
      (fun _ => stable_vars hF stable_held) fun r s hs => ?_
    all_goals by_cases hr : r = .ok
    · rw [if_pos hr]
      exact ⟨rfl, rfl, rfl⟩
    · rw [if_neg hr]
      exact ⟨rfl, rfl, rfl⟩
    · rw [if_pos hr]
      rfl
    · rw [if_neg hr]
    · rw [if_pos hr]
      exact ⟨hs.1.1, hs.2⟩
    · rw [if_neg hr]
      exact ⟨hs.1.1, hs.2⟩
  idle_shutdown := rule_same (fun _ s => { s with shutdown := true }) (fun _ s => ⟨(), rfl⟩)
    (fun _ _ => ⟨rfl, rfl, rfl⟩) (fun _ _ _ => .inl rfl) (fun _ => stable_vars hF stable_idle)
    fun _ _ hs => hs

/-! ## The loop -/

/-- The place of the loop between two actions of a pass, with its locals. -/
def looping (v : Option LoopVars) (s : WorkerState) : Prop :=
  s.mutex ≠ some loopThread ∧ s.vars = v

theorem stable_looping (v : Option LoopVars) : (listening cfg).Stable loopThread (looping v) :=
  stable_vars (F := (· = v)) (.inl rfl) stable_idle

/-- The rules of the loop's thread while its locals are `v`. -/
theorem loopRules (v : Option LoopVars) :
    TeardownRules (clientSystem start) (listening cfg) loopThread
      (places cfg loopThread (· = v)) :=
  rules (.inl rfl)

/-- An assignment of the locals: a flag that is set must have its subscription. -/
theorem rule_modifyVars {P : WorkerState → Prop} {w : Option LoopVars}
    (hP : ∀ s, FlagsRight cfg s → P s → s.mutex ≠ some loopThread ∧
      ∀ v, w = some v → (v.subscriptionActive = true → Subscribed s cfg.subject) ∧
        (v.dbSubscriptionActive = true → cfg.dbEnabled = true → Subscribed s cfg.dbSubject)) :
    ActionRule (clientSystem start) (listening cfg) loopThread P (.modifyVars fun _ => w)
      fun _ => looping w := by
  refine actionRule_of_update (fun _ s => { s with vars := w }) (fun _ _ => ⟨(), rfl⟩)
    (fun _ _ _ => trivial) (fun _ => stable_looping w) ?_
  intro heads s _ hinv hs _
  obtain ⟨hmutex, hflags⟩ := hP s hinv hs
  refine ⟨⟨hinv.current, fun v hv => (hflags v hv).1, fun v hv => (hflags v hv).2⟩,
    fun u hu => ⟨mutexRely_of_same rfl ⟨rfl, rfl⟩, fun h => absurd h hu⟩, hmutex, rfl⟩

/-- An assignment that sets no flag which was not set before. -/
theorem rule_assign {v v' : LoopVars} (hactive : v'.subscriptionActive = true →
      v.subscriptionActive = true)
    (hdb : v'.dbSubscriptionActive = true → v.dbSubscriptionActive = true) :
    ActionRule (clientSystem start) (listening cfg) loopThread (looping (some v))
      (.modifyVars fun _ => some v') fun _ => looping (some v') := by
  refine rule_modifyVars fun s hinv hs => ⟨hs.1, ?_⟩
  rintro w ⟨⟩
  exact ⟨fun h => hinv.active v hs.2 (hactive h), fun h => hinv.dbActive v hs.2 (hdb h)⟩

theorem outline_refresh (v : LoopVars) :
    Outline (clientSystem start) (listening cfg) loopThread (looping (some v)) (refresh v)
      fun v' => looping (some v') := by
  refine .bind (outline_isConnected (loopRules (some v)).toCallRules) fun sampled => ?_
  by_cases hrestored : (sampled && !v.wasConnected) = true
  · rw [if_pos hrestored]
    refine .bind (.perform (rule_assign nofun nofun)) fun _ =>
      .bind (outline_unsubscribe (loopRules _).toDestroyRules) fun _ =>
      .bind (.perform (rule_assign nofun nofun)) fun _ => .pure fun _ hs => hs
  · rw [if_neg hrestored]
    exact .bind (.perform (rule_assign (fun h => h) fun h => h)) fun _ => .pure fun _ hs => hs

/-- Between the subscription and the flag the loop counts on the subscription. -/
theorem outline_subscribeWorker (v : LoopVars) :
    Outline (clientSystem start) (listening cfg) loopThread (looping (some v))
      (subscribeWorker cfg v) fun v' => looping (some v') := by
  refine .bind (outline_isConnected (loopRules (some v)).toCallRules) fun r => ?_
  cases r with
  | false => exact .pure fun _ hs => hs
  | true =>
    by_cases hactive : v.subscriptionActive = true
    · rw [if_pos rfl, if_pos hactive]
      exact .pure fun _ hs => hs
    · rw [if_pos rfl, if_neg hactive]
      refine .bind (.perform (rule_assign (fun h => h) fun h => h)) fun _ =>
        .bind (outline_subscribe ((loopRules _).subscribeRules cfg.subject)) fun ok => ?_
      cases ok with
      | false =>
        exact .bind (.perform (rule_assign (fun h => h) fun h => h)) fun _ => .pure fun _ hs => hs
      | true =>
        refine .bind (.perform (rule_modifyVars fun s hinv hs => ⟨hs.1.1, ?_⟩)) fun _ =>
          .pure fun _ hs => hs
        rintro w ⟨⟩
        exact ⟨fun _ => hs.1.2 _ rfl hs.2 (.inr (.inr ⟨rfl, rfl⟩)),
          fun h => hinv.dbActive _ hs.2 h⟩

/-- While its own flag is set, the loop may count on any subscription it makes. -/
theorem outline_subscribeDbQuerySubject {v : LoopVars} (hactive : v.subscriptionActive = true)
    (hready : v.dbReady = true) :
    Outline (clientSystem start) (listening cfg) loopThread (looping (some v))
      (subscribeDbQuerySubject cfg v) fun ok s => looping (some v) s ∧
        (ok = true → cfg.dbEnabled = true → Subscribed s cfg.dbSubject) := by
  by_cases hdb : (!cfg.dbEnabled || !v.dbReady) = true
  · rw [subscribeDbQuerySubject, if_pos hdb]
    refine .pure fun s hs => ⟨hs, fun _ henabled => ?_⟩
    rw [henabled, hready] at hdb
    cases hdb
  · rw [subscribeDbQuerySubject, if_neg hdb]
    refine (outline_subscribe ((loopRules (some v)).subscribeRules cfg.dbSubject)).mono_right ?_
    intro ok s hs
    cases ok with
    | false => exact ⟨hs, nofun⟩
    | true => exact ⟨⟨hs.1.1, hs.2⟩, fun _ _ => hs.1.2 v rfl hs.2 (.inl hactive)⟩

theorem outline_ensureDbQuerySubscription {v : LoopVars} (hactive : v.subscriptionActive = true) :
    Outline (clientSystem start) (listening cfg) loopThread (looping (some v))
      (ensureDbQuerySubscription cfg v) fun r s => looping (some r.2) s ∧
        r.2.subscriptionActive = true ∧
        (r.1 = true → cfg.dbEnabled = true → Subscribed s cfg.dbSubject) := by
  rw [ensureDbQuerySubscription]
  by_cases hdb : (!cfg.dbEnabled) = true
  · rw [if_pos hdb]
    refine .pure fun s hs => ⟨hs, hactive, fun _ henabled => ?_⟩
    rw [henabled] at hdb
    cases hdb
  · rw [if_neg hdb]
    refine .bind (outline_initDatabases (loopRules (some v)).toCallRules v) fun ready =>
      .bind (.perform (rule_assign (fun h => h) fun h => h)) fun _ => ?_
    cases ready with
    | false => exact .pure fun s hs => ⟨hs, hactive, nofun⟩
    | true =>
      refine .bind (outline_subscribeDbQuerySubject hactive rfl) fun ok => .pure fun s hs => ?_
      exact ⟨hs.1, hactive, hs.2⟩

theorem outline_subscribeDb (v : LoopVars) :
    Outline (clientSystem start) (listening cfg) loopThread (looping (some v))
      (subscribeDb cfg v) fun v' => looping (some v') := by
  refine .bind (outline_isConnected (loopRules (some v)).toCallRules) fun r => ?_
  cases r with
  | false => exact .pure fun _ hs => hs
  | true =>
    by_cases hflags : (v.subscriptionActive && !v.dbSubscriptionActive) = true
    · rw [if_pos rfl, if_pos hflags]
      refine .bind (outline_ensureDbQuerySubscription (Bool.and_eq_true_iff.mp hflags).1)
        fun ⟨ok, v'⟩ => .bind (.perform (rule_modifyVars fun s hinv hs => ⟨hs.1.1, ?_⟩)) fun _ =>
          .pure fun _ hs => hs
      rintro w ⟨⟩
      exact ⟨fun _ => hinv.active v' hs.1.2 hs.2.1, hs.2.2⟩
    · rw [if_pos rfl, if_neg hflags]
      exact .pure fun _ hs => hs

theorem outline_checkLost (v : LoopVars) :
    Outline (clientSystem start) (listening cfg) loopThread (looping (some v)) (checkLost v)
      fun v' => looping (some v') := by
  refine .bind (outline_isConnected (loopRules (some v)).toCallRules) fun r => ?_
  cases r with
  | true => exact .pure fun _ hs => hs
  | false => exact .bind (.perform (rule_assign nofun nofun)) fun _ => .pure fun _ hs => hs

theorem outline_leaveLoop (v : Option LoopVars) :
    Outline (clientSystem start) (listening cfg) loopThread (looping v) leaveLoop
      fun _ s => s.mutex ≠ some loopThread := by
  refine .bind (.perform (rule_modifyVars (P := looping v) (w := none) ?_)) fun _ => ?_
  · exact fun s _ hs => ⟨hs.1, nofun⟩
  · exact (outline_drain (loopRules none).toDestroyRules).mono_right fun _ _ hs => hs.1

theorem rule_ask (v : Option LoopVars) :
    ActionRule (clientSystem start) (listening cfg) loopThread (looping v) .ask
      fun _ => looping v :=
  (loopRules v).idle_quiet .ask trivial

/-- Reading the locals tells what they are. -/
theorem rule_getVars :
    ActionRule (clientSystem start) (listening cfg) loopThread
      (fun s => s.mutex ≠ some loopThread) .getVars fun v => looping v := by
  refine rule_quiet (a := .getVars) trivial (fun v => stable_looping v) fun _ s v hs hread => ?_
  exact ⟨hs, congrArg Prod.fst (Option.some.inj hread)⟩

/-- **One pass of the loop.** -/
theorem outline_pass :
    Outline (clientSystem start) (listening cfg) loopThread (fun s => s.mutex ≠ some loopThread)
      (pass cfg) fun _ s => s.mutex ≠ some loopThread := by
  refine .bind (.perform rule_getVars) fun v => ?_
  cases v with
  | none => exact .pure fun _ hs => hs.1
  | some v =>
    refine .bind (.perform (rule_ask (some v))) fun clear => ?_
    cases clear with
    | false => exact outline_leaveLoop (some v)
    | true =>
      refine .bind (outline_refresh v) fun v =>
        .bind (outline_reconnect (loopRules (some v)).toCallRules) fun _ =>
        .bind (.perform (rule_ask (some v))) fun clear => ?_
      cases clear with
      | false => exact outline_leaveLoop (some v)
      | true =>
        exact .bind (outline_subscribeWorker v) fun v => .bind (outline_subscribeDb v) fun v =>
          .bind (outline_checkLost v) fun v =>
          (outline_recordPass (loopRules (some v)).toCallRules v).mono_right fun _ _ hs => hs.1

theorem outline_enterLoop :
    Outline (clientSystem start) (listening cfg) loopThread (fun s => s.mutex ≠ some loopThread)
      enterLoop fun _ s => s.mutex ≠ some loopThread := by
  refine .bind (.perform rule_getVars) fun v => ?_
  cases v with
  | some v => exact .pure fun _ hs => hs.1
  | none =>
    refine .bind (outline_isConnected (loopRules none).toCallRules) fun connected => ?_
    refine Outline.mono_right (.perform (rule_modifyVars fun s hinv hs => ⟨hs.1, ?_⟩))
      fun _ _ hs => hs.1
    rintro w ⟨⟩
    exact ⟨nofun, nofun⟩

/-! ## The other threads -/

theorem rule_store (value : Bool) :
    ActionRule (clientSystem start) (listening cfg) t (fun s => s.mutex ≠ some t)
      (.storeConnected value) fun _ s => s.mutex ≠ some t :=
  rule_same (fun _ s => { s with connected := value }) (fun _ _ => ⟨(), rfl⟩)
    (fun _ _ => ⟨rfl, rfl, rfl⟩) (fun _ _ _ => .inl rfl) (fun _ => stable_idle) fun _ _ hs => hs

theorem rule_loadShutdown :
    ActionRule (clientSystem start) (listening cfg) t (fun s => s.mutex ≠ some t)
      .loadShutdown fun _ s => s.mutex ≠ some t :=
  rule_quiet (a := .loadShutdown) trivial (fun _ => stable_idle) fun _ _ _ hs _ => hs

/-- A call of a thread of the pool, which knows nothing of the loop's locals. -/
theorem outline_client {call : Call} (hcall : call.isTeardown = false) :
    Outline (clientSystem start) (listening cfg) t (fun s => s.mutex ≠ some t) call.body
      fun _ s => s.mutex ≠ some t := by
  have h : Outline (clientSystem start) (listening cfg) t (places cfg t fun _ => True).idle
      call.body fun _ => (places cfg t fun _ => True).idle :=
    outline_body (rules (.inr fun _ => trivial)).toRules hcall
  exact (h.mono_left fun _ hs => ⟨hs, trivial⟩).mono_right fun _ _ hs => hs.1

/-- What the threads of the worker start. -/
theorem outline_workerBody {n : ℕ} {call : WorkerCall} {p : LoopProg Unit}
    (h : workerBody cfg n call = some p) :
    Outline (clientSystem start) (listening cfg) (.caller n)
      (fun s => s.mutex ≠ some (.caller n)) p fun _ s => s.mutex ≠ some (.caller n) := by
  cases n with
  | zero =>
    cases call with
    | enterLoop =>
      cases h
      exact outline_enterLoop
    | pass =>
      cases h
      exact outline_pass
    | client call => cases h
  | succ n =>
    cases call with
    | enterLoop => cases h
    | pass => cases h
    | client call =>
      obtain ⟨hcall, hp⟩ := Option.ite_none_left_eq_some.mp h
      cases hp
      exact outline_client (Bool.not_eq_true _ ▸ hcall)

end Rules

theorem kept : (listening cfg).Kept (workerSystem cfg) where
  idle_stable _ := stable_idle
  start t call s p s' hinv hidle hstart := by
    cases t with
    | caller n =>
      cases call with
      | inr index => cases hstart
      | inl call =>
        obtain ⟨body, hbody, heq⟩ := Option.map_eq_some_iff.mp hstart
        cases heq
        have hsame : SameSubscriptions s s := ⟨rfl, rfl, rfl⟩
        exact ⟨hinv, fun u _ => hsame.rely rfl u, _, stable_idle, hidle, outline_workerBody hbody⟩
    | async =>
      cases call with
      | inl call => cases hstart
      | inr index =>
        obtain ⟨cb, -, heq⟩ := Option.map_eq_some_iff.mp hstart
        cases heq
        have hsame : SameSubscriptions s
            { s with posted := s.posted.eraseIdx index, delivering := some cb } :=
          ⟨rfl, rfl, rfl⟩
        exact ⟨hsame.flagsRight hinv, fun u _ => hsame.rely rfl u, _, stable_idle, hidle,
          outline_callback rule_loadShutdown rule_store (fun _ hs => hs) cb.kind⟩
  env e s s' hinv _ hstep := by
    obtain ⟨c, status, kinds, rfl, -⟩ := libraryStep_cases hstep
    have hsame : SameSubscriptions s (s.setStatus c status kinds) := ⟨rfl, rfl, rfl⟩
    exact ⟨hsame.flagsRight hinv, hsame.rely rfl⟩

theorem good_initial : (listening cfg).Good (workerSystem cfg) newWorker where
  inv := ⟨nofun, nofun, nofun⟩
  outline t := ⟨(listening cfg).idle t, stable_idle, nofun, fun _ hs => hs⟩

end Listening

/-! ## Runs -/

/-- The configurations of the worker. -/
abbrev WorkerSystemConfig :=
  Config ThreadId (Action (Option LoopVars)) Action.Result WorkerState

/-- The events of the worker. -/
abbrev WorkerEvent := Event ThreadId NatsStatus (WorkerCall ⊕ ℕ) LibraryEvent

/-- A thread wipes the list of subscriptions only while the loop does not count on
it. -/
def WipesUncounted (cfg : LoopConfig) (c : WorkerSystemConfig) (e : WorkerEvent) : Prop :=
  ∀ t choice, e = .act t choice → c.heads t = some .destroySubscriptions →
    Wipeable cfg t c.shared

/-- At the end of a pass, if the client is connected, a set flag means that the
subject is subscribed to on the current connection. -/
def SubscribedWhenActive (cfg : LoopConfig) (c : WorkerSystemConfig) : Prop :=
  ∀ v, c.heads loopThread = none → c.shared.vars = some v → c.shared.isConnectedNow = true →
    (v.subscriptionActive = true → Subscribed c.shared cfg.subject) ∧
    (v.dbSubscriptionActive = true → cfg.dbEnabled = true → Subscribed c.shared cfg.dbSubject)

theorem meets_of_wipesUncounted {cfg : LoopConfig} {c : WorkerSystemConfig} {e : WorkerEvent}
    (h : WipesUncounted cfg c e) : (listening cfg).Meets c e := by
  cases e with
  | start t call => trivial
  | env e => trivial
  | act t choice =>
    rintro a ha rfl
    exact h t choice rfl ha

/-- **The worker is not silently deaf**, in any interleaving of loop passes, calls
of the pool, drops, reconnects and callbacks, if no thread wipes the list of
subscriptions while the loop counts on it. -/
theorem subscribed_when_active (cfg : LoopConfig) (es : List WorkerEvent)
    (h : StepsMeet (workerSystem cfg).step (WipesUncounted cfg) newWorker es) :
    Always (workerSystem cfg).step (SubscribedWhenActive cfg) newWorker es :=
  always_of_stepsMeet
    (fun _ _ _ hgood hmeets hstep =>
      (listening cfg).good_step Listening.kept hgood (meets_of_wipesUncounted hmeets) hstep)
    (fun _ hgood v _ hv _ => ⟨hgood.inv.active v hv, hgood.inv.dbActive v hv⟩)
    Listening.good_initial h

/-! ## A reconnect between two passes -/

/-- A worker without a DB gateway. -/
def plainWorker : LoopConfig :=
  { subject := ascii "work", dbEnabled := false, dbSubject := ascii "db" }

/-- The worker connects and runs its first pass, which subscribes it, up to the look
for a lost connection. -/
def firstPass : List WorkerEvent :=
  ([.start (.caller 1) (.inl (.client (.connect 1)))] : List WorkerEvent) ++
  steps (.caller 1) 11 ++
  ([.start loopThread (.inl .enterLoop)] : List WorkerEvent) ++ steps loopThread 7 ++
  ([.start loopThread (.inl .pass)] : List WorkerEvent) ++ steps loopThread 38

/-- Between two passes the server is lost, the client is told so, and a thread of
the pool publishes a response, which opens a new connection. -/
def reconnectBetweenPasses : List WorkerEvent :=
  firstPass ++ steps loopThread 10 ++
  ([.env (.dropped 0), .start .async (.inr 0)] : List WorkerEvent) ++ steps .async 2 ++
  ([.start (.caller 1) (.inl (.client .publish))] : List WorkerEvent) ++ steps (.caller 1) 19 ++
  ([.start loopThread (.inl .pass)] : List WorkerEvent) ++ steps loopThread 34

/-- The worker believes to be subscribed, is connected, and has no subscription. -/
theorem worker_deaf :
    ¬ ∀ cfg es, Always (workerSystem cfg).step (SubscribedWhenActive cfg) newWorker es := by
  intro hall
  have hobserved : ((run (workerSystem plainWorker).step newWorker reconnectBetweenPasses).map
      fun c => (c.heads loopThread, c.shared.vars.map LoopVars.subscriptionActive,
        c.shared.isConnectedNow, c.shared.subscriptions)) =
      some (none, some true, true, []) := by rfl
  obtain ⟨c, hc, hvalues⟩ := Option.map_eq_some_iff.mp hobserved
  simp only [Prod.mk.injEq] at hvalues
  obtain ⟨hidle, hvars, hconnected, hnil⟩ := hvalues
  obtain ⟨v, hv, hactive⟩ := Option.map_eq_some_iff.mp hvars
  have hright : SubscribedWhenActive plainWorker c :=
    always_iff.mp (hall plainWorker reconnectBetweenPasses) _ [] c (List.append_nil _).symm hc
  exact Listening.not_subscribed_of_nil hnil _ ((hright v hidle hv hconnected).1 hactive)

/-- The server is lost in the middle of a pass, whose end finds it lost; the next
pass opens a new connection and subscribes again. -/
def recovery : List WorkerEvent :=
  firstPass ++ ([.env (.dropped 0), .start .async (.inr 0)] : List WorkerEvent) ++ steps .async 2 ++
  steps loopThread 2 ++ ([.start loopThread (.inl .pass)] : List WorkerEvent) ++ steps loopThread 53

/-- A test that no flag is set when the list is wiped, and that the loop does not
subscribe meanwhile. -/
def wipeTest (c : WorkerSystemConfig) : WorkerEvent → Bool
  | .act t _ =>
    match c.heads t with
    | some .destroySubscriptions =>
      c.shared.vars.all fun v =>
        !v.subscriptionActive && !v.dbSubscriptionActive && !v.subscribing
    | _ => true
  | _ => true

theorem wipesUncounted_of_test {cfg : LoopConfig} {c : WorkerSystemConfig} {e : WorkerEvent}
    (h : wipeTest c e = true) : WipesUncounted cfg c e := by
  rintro t choice rfl hhead v hv
  simp only [wipeTest, hhead, hv, Option.all_some, Bool.and_eq_true, Bool.not_eq_true'] at h
  obtain ⟨⟨hactive, hdb⟩, hsubscribing⟩ := h
  refine ⟨hactive, hdb, fun _ hsub => ?_⟩
  rw [hsubscribing] at hsub
  cases hsub

theorem subscribed_after_recovery :
    ((run (workerSystem plainWorker).step newWorker recovery).map fun c =>
      (c.heads loopThread, c.shared.conn, c.shared.vars.map LoopVars.subscriptionActive)) =
        some (none, some 1, some true) ∧
      Always (workerSystem plainWorker).step (SubscribedWhenActive plainWorker) newWorker
        recovery :=
  ⟨by rfl, subscribed_when_active plainWorker recovery
    (stepsMeet_of_stepsCheck (fun _ _ => wipesUncounted_of_test) (by decide +kernel))⟩

end Worker
end HttpDataDiod
