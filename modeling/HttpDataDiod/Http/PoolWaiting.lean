import HttpDataDiod.Http.PoolAccounting

/-!
# Waiting for a client of a full pool

A caller that finds the pool full waits on the condition variable until there is an idle
client in the queue, or until its time is up.  Only one path puts a client into the queue
and notifies: the release of a valid client.  A slot can also become free without an idle
client, and then nobody is told: an invalidated client is destroyed when it is released, a
client that is dropped gives its slot back in its destructor, and another caller may evict
more clients than it creates.  A caller that waits then runs into its timeout, and throws
"acquire timeout - all connections in use", while it could have created a client.

* `WaitingState`, `waitingStep`: the callers that wait, beside the pool and its clients.
* `FreesNoSlot`: no slot is given back while somebody waits.
* `exhausted_timeouts`: in runs of such steps a caller gives up only when the pool is
  exhausted.
* `not_exhausted_after_failure`: a caller that waits for a client whose call fails.
-/

namespace HttpDataDiod
namespace Http

open ByteText Transition HttpClientPool

/-! ## The callers that wait -/

/-- The pool with its clients, the callers that wait, and `m_total_clients` at each timeout
so far. -/
structure WaitingState where
  inner : PoolState
  waiting : List ℕ
  timeouts : List UInt64

/-- What the threads do: `acquire_connection` up to its wait, the end of a wait with an idle
client in the queue, the end of a wait by the timeout, and what `poolStep` says of the other
calls. -/
inductive WaitingEvent where
  | enter (caller : ℕ) (clock : ℕ → ℕ)
  | wake (caller : ℕ) (clock : ℕ → ℕ)
  | giveUp (caller : ℕ)
  | call (i : ℕ) (call : L2Call) (now : ℕ) (answer : Except Bytes HttpResponse)
  | invalidate (i : ℕ)
  | release (i : ℕ) (now : ℕ)
  | drop (i : ℕ)

/-- The pool after an acquire, and whether the caller was given a client. -/
def acquireStep (cfg : PoolConfig) (clock : ℕ → ℕ) (waited : Bool) (s : PoolState) :
    Bool × PoolState :=
  let r := s.pool.acquireConnection cfg clock waited
  (r.1.isSome, { s with pool := r.2, leased := r.1.toList ++ s.leased })

/-- One step.  The predicate of the wait is that the queue is not empty: it is looked at
once more when the time is up. -/
def waitingStep (cfg : PoolConfig) (urls : List Bytes) (s : WaitingState) :
    WaitingEvent → Option WaitingState
  | .enter caller clock =>
    if caller ∈ s.waiting then none
    else
      let r := acquireStep cfg clock false s.inner
      some { s with inner := r.2, waiting := if r.1 then s.waiting else caller :: s.waiting }
  | .wake caller clock =>
    if caller ∈ s.waiting ∧ s.inner.pool.available ≠ [] then
      some { s with inner := (acquireStep cfg clock true s.inner).2,
                    waiting := s.waiting.erase caller }
    else none
  | .giveUp caller =>
    if caller ∈ s.waiting ∧ s.inner.pool.available = [] then
      some { s with waiting := s.waiting.erase caller,
                    timeouts := s.inner.pool.totalClients :: s.timeouts }
    else none
  | .call i call now answer =>
    (poolStep cfg urls s.inner (.call i call now answer)).map fun p => { s with inner := p }
  | .invalidate i => (poolStep cfg urls s.inner (.invalidate i)).map fun p => { s with inner := p }
  | .release i now =>
    (poolStep cfg urls s.inner (.release i now)).map fun p => { s with inner := p }
  | .drop i => (poolStep cfg urls s.inner (.drop i)).map fun p => { s with inner := p }

/-- A new pool, and nobody waits. -/
def initialWaiting : WaitingState := { inner := initialPoolState, waiting := [], timeouts := [] }

/-- Whoever gave up found the pool exhausted. -/
def TimesOutExhausted (cfg : PoolConfig) (s : WaitingState) : Prop :=
  ∀ total ∈ s.timeouts, total = cfg.maxPoolSize

/-! ## The condition -/

/-- `try_acquire_from_queue` hands the client out, if it is the first of `n + 1`. -/
def Usable (cfg : PoolConfig) (clock : ℕ → ℕ) (n : ℕ) (c : HttpClient) : Prop :=
  ¬ clock n - c.lastUsed > cfg.maxIdleTime ∧ c.isValid = true

/-- An acquire from this queue gives no slot back: it evicts no client, or the only one,
which the caller replaces. -/
def EvictsAtMostOwn (cfg : PoolConfig) (clock : ℕ → ℕ) : List HttpClient → Prop
  | [] => True
  | [_] => True
  | c :: rest => Usable cfg clock rest.length c

/-- No slot is given back while somebody (else) waits. -/
def FreesNoSlot (cfg : PoolConfig) (s : WaitingState) : WaitingEvent → Prop
  | .enter _ clock => s.waiting = [] ∨ EvictsAtMostOwn cfg clock s.inner.pool.available
  | .wake caller clock =>
    s.waiting.erase caller = [] ∨ EvictsAtMostOwn cfg clock s.inner.pool.available
  | .release i _ => s.waiting = [] ∨ ∀ c, s.inner.leased[i]? = some c → c.isValid = true
  | .drop _ => s.waiting = []
  | .giveUp _ | .call .. | .invalidate _ => True

/-! ## The count while somebody waits -/

variable {cfg : PoolConfig} {pool : HttpClientPool} {leased : List HttpClient} {clock : ℕ → ℕ}

/-- One client less is not a full pool. -/
theorem not_maxPoolSize_le_sub_one (cfg : PoolConfig) :
    ¬ cfg.maxPoolSize ≤ cfg.maxPoolSize - 1 := by
  have hpos : 0 < cfg.maxPoolSize.toNat := UInt64.lt_iff_toNat_lt.mp cfg.maxPoolSize_pos
  rw [UInt64.le_iff_toNat_le, toNat_sub_one hpos]
  omega

theorem tryAcquireFromQueue_of_usable {c : HttpClient} {rest : List HttpClient}
    (h : Usable cfg clock rest.length c) :
    tryAcquireFromQueue cfg clock (c :: rest) pool =
      (some { c with poolLeased := true },
        { pool with activeClients := pool.activeClients + 1, available := rest }) := by
  unfold tryAcquireFromQueue
  rw [if_neg h.1]
  simp only [h.2, if_true]

/-- Of a queue with one client the walk hands it out, or evicts it. -/
theorem tryAcquireFromQueue_singleton (cfg : PoolConfig) (clock : ℕ → ℕ) (pool : HttpClientPool)
    {c : HttpClient} (hidle : c.poolLeased = false) :
    ((tryAcquireFromQueue cfg clock [c] pool).1 = some { c with poolLeased := true } ∧
      (tryAcquireFromQueue cfg clock [c] pool).2.totalClients = pool.totalClients) ∨
    ((tryAcquireFromQueue cfg clock [c] pool).1 = none ∧
      (tryAcquireFromQueue cfg clock [c] pool).2.totalClients = pool.totalClients - 1) := by
  unfold tryAcquireFromQueue
  split
  · rw [destroyClient_of_idle hidle]
    exact .inr ⟨rfl, rfl⟩
  · simp only
    split
    · exact .inl ⟨rfl, rfl⟩
    · rw [destroyClient_of_idle hidle]
      exact .inr ⟨rfl, rfl⟩

/-- **A full pool stays full** in an acquire that evicts at most the client that the caller
replaces. -/
theorem totalClients_acquireConnection (h : Accounted cfg pool leased)
    (hfull : pool.totalClients = cfg.maxPoolSize)
    (hevicts : EvictsAtMostOwn cfg clock pool.available) (waited : Bool) :
    (acquireConnection cfg clock waited pool).2.totalClients = cfg.maxPoolSize := by
  unfold acquireConnection
  split
  · exact hfull
  next hwait =>
  match hqueue : pool.available with
  | [] =>
    have hwaited : waited = false := by
      by_contra hwaited
      exact hwait ⟨Bool.not_eq_false _ ▸ hwaited, hqueue⟩
    rw [tryAcquireFromQueue]
    simp only
    rw [if_pos ⟨hfull ▸ UInt64.le_refl _, hwaited⟩]
    exact hfull
  | [c] =>
    have hidle : c.poolLeased = false := h.idleFlags c (by rw [hqueue]; exact List.mem_cons_self)
    cases hq : tryAcquireFromQueue cfg clock [c] pool with
    | mk given pool' =>
      have hcases := tryAcquireFromQueue_singleton cfg clock pool hidle
      rw [hq] at hcases
      obtain ⟨rfl, htotal⟩ | ⟨rfl, htotal⟩ := hcases
      · exact htotal.trans hfull
      · simp only at htotal ⊢
        rw [hfull] at htotal
        rw [htotal, if_neg fun hle => not_maxPoolSize_le_sub_one cfg hle.1]
        exact UInt64.sub_add_cancel _ _
  | c :: d :: rest =>
    rw [hqueue] at hevicts
    rw [tryAcquireFromQueue_of_usable hevicts]
    exact hfull

/-- A caller that is told to wait has found the pool full. -/
theorem totalClients_of_none (h : Accounted cfg pool leased)
    (hnone : (acquireConnection cfg clock false pool).1 = none) :
    (acquireConnection cfg clock false pool).2.totalClients = cfg.maxPoolSize := by
  have hbound := (accounted_acquireConnection h clock false).bounded
  refine UInt64.toNat_inj.mp (Nat.le_antisymm hbound (UInt64.le_iff_toNat_le.mp ?_))
  revert hnone
  unfold acquireConnection
  rw [if_neg fun hwaited => Bool.noConfusion hwaited.1]
  cases tryAcquireFromQueue cfg clock pool.available pool with
  | mk given pool' =>
    cases given with
    | some c => exact nofun
    | none =>
      simp only
      split
      · next hfull => exact fun _ => hfull.1
      · exact nofun

/-- The release of a valid client puts it into the queue. -/
theorem totalClients_releaseConnection (h : Accounted cfg pool leased) {i : ℕ} {c : HttpClient}
    (hc : leased[i]? = some c) (hvalid : c.isValid = true) (now : ℕ) :
    (releaseConnection cfg now c pool).totalClients = pool.totalClients := by
  have hroom : pool.available.length < cfg.maxPoolSize.toNat := by
    have hleased := (List.getElem?_eq_some_iff.mp hc).1
    have htotal := h.total
    have hbound := h.bounded
    omega
  unfold releaseConnection
  simp only [hvalid, Bool.true_eq_false, if_false]
  rw [if_pos hroom]

/-! ## Runs -/

/-- The accounts are kept, the pool is full while somebody waits, and whoever gave up found
it full. -/
structure WaitsForFull (cfg : PoolConfig) (s : WaitingState) : Prop where
  accounted : Accounted cfg s.inner.pool s.inner.leased
  full : s.waiting ≠ [] → s.inner.pool.totalClients = cfg.maxPoolSize
  timeouts : TimesOutExhausted cfg s

theorem accounted_acquireStep {s : PoolState} (h : Accounted cfg s.pool s.leased)
    (clock : ℕ → ℕ) (waited : Bool) :
    Accounted cfg (acquireStep cfg clock waited s).2.pool
      (acquireStep cfg clock waited s).2.leased :=
  accounted_acquireConnection h clock waited

/-- What leaves the callers alone and the count unchanged, while somebody waits. -/
theorem WaitsForFull.inner {s : WaitingState} (h : WaitsForFull cfg s) {p : PoolState}
    (haccounted : Accounted cfg p.pool p.leased)
    (htotal : s.waiting ≠ [] → p.pool.totalClients = s.inner.pool.totalClients) :
    WaitsForFull cfg { s with inner := p } where
  accounted := haccounted
  full hne := (htotal hne).trans (h.full hne)
  timeouts := h.timeouts

/-- **One step keeps it**, if it gives no slot back while somebody waits. -/
theorem waitsForFull_step {urls : List Bytes} {s s' : WaitingState} {e : WaitingEvent}
    (h : WaitsForFull cfg s) (hfrees : FreesNoSlot cfg s e)
    (hstep : waitingStep cfg urls s e = some s') : WaitsForFull cfg s' := by
  cases e with
  | enter caller clock =>
    obtain ⟨-, hstep⟩ := Option.ite_none_left_eq_some.mp hstep
    cases hstep
    refine ⟨accounted_acquireStep h.accounted clock false, fun hne => ?_, h.timeouts⟩
    show (acquireConnection cfg clock false s.inner.pool).2.totalClients = _
    cases hgiven : (acquireConnection cfg clock false s.inner.pool).1 with
    | none => exact totalClients_of_none h.accounted hgiven
    | some c =>
      have hothers : s.waiting ≠ [] := by
        simpa only [acquireStep, hgiven, Option.isSome_some, if_true] using hne
      exact totalClients_acquireConnection h.accounted (h.full hothers)
        (hfrees.resolve_left hothers) false
  | wake caller clock =>
    obtain ⟨⟨hmem, -⟩, hstep⟩ := Option.ite_none_right_eq_some.mp hstep
    cases hstep
    refine ⟨accounted_acquireStep h.accounted clock true, fun hne => ?_, h.timeouts⟩
    exact totalClients_acquireConnection h.accounted (h.full (List.ne_nil_of_mem hmem))
      (hfrees.resolve_left hne) true
  | giveUp caller =>
    obtain ⟨⟨hmem, -⟩, hstep⟩ := Option.ite_none_right_eq_some.mp hstep
    cases hstep
    have hfull := h.full (List.ne_nil_of_mem hmem)
    refine ⟨h.accounted, fun _ => hfull, fun total htotal => ?_⟩
    rcases List.mem_cons.mp htotal with rfl | htotal
    · exact hfull
    · exact h.timeouts total htotal
  | call i call now answer =>
    obtain ⟨p, hp, rfl⟩ := Option.map_eq_some_iff.mp hstep
    refine h.inner (accounted_step h.accounted hp) fun _ => ?_
    obtain ⟨c, -, hrest⟩ := Option.bind_eq_some_iff.mp hp
    obtain ⟨url, -, hrest⟩ := Option.bind_eq_some_iff.mp hrest
    cases hrest
    rfl
  | invalidate i =>
    obtain ⟨p, hp, rfl⟩ := Option.map_eq_some_iff.mp hstep
    refine h.inner (accounted_step h.accounted hp) fun _ => ?_
    obtain ⟨c, -, hrest⟩ := Option.bind_eq_some_iff.mp hp
    cases hrest
    rfl
  | release i now =>
    obtain ⟨p, hp, rfl⟩ := Option.map_eq_some_iff.mp hstep
    refine h.inner (accounted_step h.accounted hp) fun hne => ?_
    obtain ⟨c, hc, hrest⟩ := Option.bind_eq_some_iff.mp hp
    cases hrest
    exact totalClients_releaseConnection h.accounted hc (hfrees.resolve_left hne c hc) now
  | drop i =>
    obtain ⟨p, hp, rfl⟩ := Option.map_eq_some_iff.mp hstep
    exact h.inner (accounted_step h.accounted hp) fun hne => absurd hfrees hne

theorem waitsForFull_initial (cfg : PoolConfig) : WaitsForFull cfg initialWaiting where
  accounted := accounted_initial cfg
  full hne := absurd rfl hne
  timeouts := nofun

/-- **A caller gives up only on an exhausted pool**, in every interleaving in which no slot
is given back while somebody waits. -/
theorem exhausted_timeouts (cfg : PoolConfig) (urls : List Bytes) (es : List WaitingEvent)
    (h : StepsMeet (waitingStep cfg urls) (FreesNoSlot cfg) initialWaiting es) :
    Always (waitingStep cfg urls) (TimesOutExhausted cfg) initialWaiting es :=
  always_of_stepsMeet (fun _ _ _ hs hfrees hstep => waitsForFull_step hs hfrees hstep)
    (fun _ hs => hs.timeouts) (waitsForFull_initial cfg) h

/-- A pool of one client. -/
def poolOfOne : PoolConfig := ⟨1, 300, UInt64.zero_lt_one⟩

/-- The second caller gives up while the first one has the only client, and the third one
gets it afterwards. -/
def busyClient : List WaitingEvent :=
  [.enter 0 fun _ => 0, .enter 1 fun _ => 1, .giveUp 1, .release 0 31, .enter 2 fun _ => 32]

theorem exhausted_timeouts_busyClient :
    ((run (waitingStep poolOfOne []) initialWaiting busyClient).map WaitingState.timeouts) =
        some [1] ∧
      Always (waitingStep poolOfOne []) (TimesOutExhausted poolOfOne) initialWaiting
        busyClient := by
  refine ⟨rfl, exhausted_timeouts poolOfOne [] busyClient ?_⟩
  refine ⟨.inl rfl, ?_⟩
  rintro _ ⟨⟩
  refine ⟨.inl rfl, ?_⟩
  rintro _ ⟨⟩
  refine ⟨trivial, ?_⟩
  rintro _ ⟨⟩
  refine ⟨.inl rfl, ?_⟩
  rintro _ ⟨⟩
  refine ⟨.inl rfl, ?_⟩
  rintro _ ⟨⟩
  trivial

/-- The call of the first caller fails: its client is invalidated and destroyed, and the
second caller waits until its time is up. -/
def failedClient : List WaitingEvent :=
  [.enter 0 fun _ => 0, .enter 1 fun _ => 1, .invalidate 0, .release 0 2, .giveUp 1]

/-- **A timeout with no client in use.** -/
theorem not_exhausted_after_failure :
    ¬ ∀ es, Always (waitingStep poolOfOne []) (TimesOutExhausted poolOfOne) initialWaiting es := by
  intro hall
  have hobserved : ((run (waitingStep poolOfOne []) initialWaiting failedClient).map
      WaitingState.timeouts) = some [0] := rfl
  obtain ⟨s, hs, htimeouts⟩ := Option.map_eq_some_iff.mp hobserved
  have hexhausted : TimesOutExhausted poolOfOne s :=
    always_iff.mp (hall failedClient) _ [] s (List.append_nil _).symm hs
  have hzero : (0 : UInt64) = 1 := hexhausted 0 (by rw [htimeouts]; exact List.mem_cons_self)
  exact absurd hzero (by decide)

end Http
end HttpDataDiod
