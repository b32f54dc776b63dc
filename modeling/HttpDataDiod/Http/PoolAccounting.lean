import HttpDataDiod.Http.TransportBinding
import Mathlib.Data.List.Perm.Basic

/-!
# The accounting of the client pool

A slot of the pool can be given back on four paths: the release of a valid
client, the release of an invalidated one, an eviction inside an acquire, and the
destructor of a client that was never released.  Each of them adjusts the two
counters by itself, and the destructor runs on the other paths too.

The invariant ties the counters, which wrap, to the clients that exist: those
checked out and those idle in the queue.  The flag that decides whether the
destructor counts is part of it, and so are the serial numbers.

* `tryAcquireFromQueue_cases`: what a walk over the queue takes off it.
* `acquired_of_acquireConnection`, `accounted_releaseConnection`,
  `accounted_destroyClient`: each operation keeps the accounts.
* `accounted_run`: and so does every run, in any order of events.
-/

namespace HttpDataDiod
namespace Http

open ByteText Transition

/-- The accounts of a pool with the given clients checked out. -/
structure Accounted (cfg : PoolConfig) (pool : HttpClientPool) (leased : List HttpClient) :
    Prop where
  /-- Every client that exists holds one slot. -/
  total : pool.totalClients.toNat = leased.length + pool.available.length
  active : pool.activeClients.toNat = leased.length
  bounded : pool.totalClients.toNat ≤ cfg.maxPoolSize.toNat
  /-- The destructor counts for the clients checked out, and for no others. -/
  leasedFlags : ∀ c ∈ leased, c.poolLeased = true
  idleFlags : ∀ c ∈ pool.available, c.poolLeased = false
  numbered : ∀ c ∈ leased ++ pool.available, c.serial ≤ pool.created
  distinct : ((leased ++ pool.available).map HttpClient.serial).Nodup

namespace HttpClientPool

/-! ## The counters -/

theorem toNat_sub_one {n : UInt64} (h : 0 < n.toNat) : (n - 1).toNat = n.toNat - 1 := by
  have hle : (1 : UInt64) ≤ n := UInt64.le_iff_toNat_le.mpr h
  rw [UInt64.toNat_sub_of_le _ _ hle]
  rfl

theorem toNat_add_one {n m : UInt64} (h : n.toNat < m.toNat) : (n + 1).toNat = n.toNat + 1 := by
  have hlt := m.toNat_lt
  have hone : (1 : UInt64).toNat = 1 := rfl
  rw [UInt64.toNat_add, hone, Nat.mod_eq_of_lt (by omega)]

/-! ## The walk over the queue -/

theorem destroyClient_of_idle {c : HttpClient} (h : c.poolLeased = false) (pool : HttpClientPool) :
    destroyClient c pool = pool := by
  rw [destroyClient, h]
  rfl

/-- The pool after a walk that evicted and gave out so many clients and left the
rest of the queue. -/
structure Walked (pool pool' : HttpClientPool) (evicted given : ℕ) (rest : List HttpClient) :
    Prop where
  available : pool'.available = rest
  created : pool'.created = pool.created
  total : pool'.totalClients.toNat + evicted = pool.totalClients.toNat
  active : pool'.activeClients.toNat = pool.activeClients.toNat + given

/-- **What a walk over the queue does.**  It evicts idle clients from the front
and hands out the next one, or evicts them all. -/
theorem tryAcquireFromQueue_cases (cfg : PoolConfig) (clock : ℕ → ℕ) {clients : List HttpClient}
    {pool : HttpClientPool} (hidle : ∀ c ∈ clients, c.poolLeased = false)
    (htotal : pool.activeClients.toNat + clients.length ≤ pool.totalClients.toNat) :
    (∃ evicted c rest, clients = evicted ++ c :: rest ∧
      (tryAcquireFromQueue cfg clock clients pool).1 = some { c with poolLeased := true } ∧
      Walked pool (tryAcquireFromQueue cfg clock clients pool).2 evicted.length 1 rest) ∨
    ((tryAcquireFromQueue cfg clock clients pool).1 = none ∧
      Walked pool (tryAcquireFromQueue cfg clock clients pool).2 clients.length 0 []) := by
  induction clients generalizing pool with
  | nil => exact .inr ⟨rfl, ⟨rfl, rfl, rfl, rfl⟩⟩
  | cons c rest ih =>
    rw [List.length_cons] at htotal
    have hc : c.poolLeased = false := hidle c List.mem_cons_self
    -- Both kinds of eviction leave a pool with one client less in the count.
    have hskip : ∀ p : HttpClientPool, p.created = pool.created →
        p.totalClients = pool.totalClients - 1 → p.activeClients = pool.activeClients →
        (∃ evicted d tail, c :: rest = evicted ++ d :: tail ∧
          (tryAcquireFromQueue cfg clock rest p).1 = some { d with poolLeased := true } ∧
          Walked pool (tryAcquireFromQueue cfg clock rest p).2 evicted.length 1 tail) ∨
        ((tryAcquireFromQueue cfg clock rest p).1 = none ∧
          Walked pool (tryAcquireFromQueue cfg clock rest p).2 (rest.length + 1) 0 []) := by
      intro p hcreated hp hactive
      have hone : p.totalClients.toNat = pool.totalClients.toNat - 1 := by
        rw [hp, toNat_sub_one (by omega)]
      have hrest : p.activeClients.toNat + rest.length ≤ p.totalClients.toNat := by
        rw [hactive]
        omega
      obtain ⟨evicted, d, tail, rfl, hgiven, hwalk⟩ | ⟨hnone, hwalk⟩ :=
        ih (fun e he => hidle e (List.mem_cons_of_mem c he)) hrest
      · refine .inl ⟨c :: evicted, d, tail, rfl, hgiven, hwalk.available, ?_, ?_, ?_⟩
        · rw [hwalk.created, hcreated]
        · have := hwalk.total
          rw [List.length_cons]
          omega
        · rw [hwalk.active, hactive]
      · refine .inr ⟨hnone, hwalk.available, ?_, ?_, ?_⟩
        · rw [hwalk.created, hcreated]
        · have := hwalk.total
          omega
        · rw [hwalk.active, hactive]
    unfold tryAcquireFromQueue
    split
    · rw [destroyClient_of_idle hc]
      exact hskip _ rfl rfl rfl
    · simp only
      split
      · refine .inl ⟨[], c, rest, rfl, rfl, rfl, rfl, rfl, ?_⟩
        exact toNat_add_one (m := pool.totalClients) (by omega)
      · rw [destroyClient_of_idle hc]
        refine hskip _ rfl rfl ?_
        exact UInt64.add_sub_cancel _ _

end HttpClientPool

open HttpClientPool

variable {cfg : PoolConfig} {pool : HttpClientPool} {leased : List HttpClient}

/-! ## The operations -/

/-- Clients that are some of the clients that were there are still distinct. -/
theorem Accounted.distinct_of_perm (h : Accounted cfg pool leased) (gone : List ℕ) {left : List ℕ}
    (hperm : ((leased ++ pool.available).map HttpClient.serial).Perm (gone ++ left)) :
    left.Nodup :=
  (hperm.nodup_iff.mp h.distinct).sublist (List.sublist_append_right gone left)

/-- An idle client is handed out. -/
theorem Accounted.give (h : Accounted cfg pool leased) {pool' : HttpClientPool}
    {evicted rest : List HttpClient} {c : HttpClient}
    (hqueue : pool.available = evicted ++ c :: rest)
    (hwalk : Walked pool pool' evicted.length 1 rest) :
    Accounted cfg pool' ({ c with poolLeased := true } :: leased) where
  total := by
    have htotal := h.total
    have hleft := hwalk.total
    rw [hqueue, List.length_append, List.length_cons] at htotal
    rw [hwalk.available, List.length_cons]
    omega
  active := by rw [hwalk.active, h.active, List.length_cons]
  bounded := by
    have hbound := h.bounded
    have hleft := hwalk.total
    omega
  leasedFlags d hd := by
    rcases List.mem_cons.mp hd with rfl | hd
    · rfl
    · exact h.leasedFlags d hd
  idleFlags d hd := by
    rw [hwalk.available] at hd
    exact h.idleFlags d (by rw [hqueue]; simp [hd])
  numbered d hd := by
    have hold := h.numbered
    rw [hqueue] at hold
    rw [hwalk.created]
    rw [hwalk.available, List.cons_append, List.mem_cons, List.mem_append] at hd
    rcases hd with rfl | hd | hd
    · exact hold c (by simp)
    · exact hold d (by simp [hd])
    · exact hold d (by simp [hd])
  distinct := by
    refine h.distinct_of_perm (evicted.map HttpClient.serial) ?_
    rw [hqueue, hwalk.available]
    simp only [List.map_append, List.map_cons, List.cons_append]
    grind

/-- Everything idle is evicted. -/
theorem Accounted.evict (h : Accounted cfg pool leased) {pool' : HttpClientPool}
    (hwalk : Walked pool pool' pool.available.length 0 []) : Accounted cfg pool' leased where
  total := by
    have htotal := h.total
    have hleft := hwalk.total
    rw [hwalk.available, List.length_nil]
    omega
  active := by rw [hwalk.active, h.active, Nat.add_zero]
  bounded := by
    have hbound := h.bounded
    have hleft := hwalk.total
    omega
  leasedFlags := h.leasedFlags
  idleFlags d hd := by
    rw [hwalk.available] at hd
    exact absurd hd List.not_mem_nil
  numbered d hd := by
    rw [hwalk.available, List.append_nil] at hd
    rw [hwalk.created]
    exact h.numbered d (List.mem_append_left _ hd)
  distinct := by
    rw [hwalk.available, List.append_nil]
    have hall := h.distinct
    rw [List.map_append] at hall
    exact hall.sublist (List.sublist_append_left _ _)

/-- A client is created for the caller. -/
theorem Accounted.create (h : Accounted cfg pool leased) (hempty : pool.available = [])
    (hroom : pool.totalClients.toNat < cfg.maxPoolSize.toNat) (now : ℕ) :
    Accounted cfg
      { pool with created := pool.created + 1, totalClients := pool.totalClients + 1,
                  activeClients := pool.activeClients + 1 }
      ({ HttpClient.create now with serial := pool.created + 1, poolLeased := true } ::
        leased) where
  total := by
    have htotal := h.total
    simp only [List.length_cons, hempty, List.length_nil] at htotal ⊢
    rw [toNat_add_one hroom]
    omega
  active := by
    have htotal := h.total
    have hactive := h.active
    simp only [List.length_cons]
    rw [toNat_add_one (m := cfg.maxPoolSize) (by omega)]
    omega
  bounded := by
    simp only
    rw [toNat_add_one hroom]
    omega
  leasedFlags d hd := by
    rcases List.mem_cons.mp hd with rfl | hd
    · rfl
    · exact h.leasedFlags d hd
  idleFlags := h.idleFlags
  numbered d hd := by
    rw [List.cons_append, List.mem_cons] at hd
    rcases hd with rfl | hd
    · exact Nat.le_refl _
    · exact Nat.le_succ_of_le (h.numbered d hd)
  distinct := by
    rw [List.cons_append, List.map_cons, List.nodup_cons]
    refine ⟨fun hmem => ?_, h.distinct⟩
    obtain ⟨d, hd, hserial⟩ := List.mem_map.mp hmem
    have hle := h.numbered d hd
    rw [hserial] at hle
    exact absurd hle (Nat.not_succ_le_self _)

/-- **`acquire_connection` keeps the accounts**, whether it gives an idle client,
creates one, or has the caller wait. -/
theorem accounted_acquireConnection (h : Accounted cfg pool leased) (clock : ℕ → ℕ)
    (waited : Bool) :
    Accounted cfg (acquireConnection cfg clock waited pool).2
      ((acquireConnection cfg clock waited pool).1.toList ++ leased) := by
  unfold acquireConnection
  split
  · exact h
  next hwait =>
  have htotal : pool.activeClients.toNat + pool.available.length ≤ pool.totalClients.toNat := by
    rw [h.total, h.active]
  have hcases := tryAcquireFromQueue_cases cfg clock h.idleFlags htotal
  cases hq : tryAcquireFromQueue cfg clock pool.available pool with
  | mk given pool' =>
    rw [hq] at hcases
    obtain ⟨evicted, c, rest, hqueue, rfl, hwalk⟩ | ⟨rfl, hwalk⟩ := hcases
    · exact h.give hqueue hwalk
    · simp only at hwalk ⊢
      have hevicted := h.evict hwalk
      split
      · exact hevicted
      · next hfull =>
        refine hevicted.create hwalk.available ?_ (clock 0)
        -- A caller that has waited has evicted at least one client.
        have hleft := hwalk.total
        have hbound := h.bounded
        cases waited with
        | true =>
          have hpos : 0 < pool.available.length := by
            rw [List.length_pos_iff]
            exact fun hnil => hwait ⟨rfl, hnil⟩
          omega
        | false =>
          have hlt : ¬ cfg.maxPoolSize ≤ pool'.totalClients := fun hle => hfull ⟨hle, rfl⟩
          rw [UInt64.le_iff_toNat_le] at hlt
          omega

/-- A client that is checked out leaves its holder: it goes `back` to the queue,
or it is destroyed. -/
theorem Accounted.without (h : Accounted cfg pool leased) {i : ℕ} {c : HttpClient}
    (hc : leased[i]? = some c) {pool' : HttpClientPool} {back : List HttpClient}
    (hqueue : pool'.available = pool.available ++ back)
    (htotal : pool'.totalClients.toNat + 1 = pool.totalClients.toNat + back.length)
    (hactive : pool'.activeClients = pool.activeClients - 1)
    (hcreated : pool'.created = pool.created)
    (hback : back = [] ∨ ∃ d, back = [d] ∧ d.poolLeased = false ∧ d.serial = c.serial) :
    Accounted cfg pool' (leased.eraseIdx i) := by
  obtain ⟨hi, rfl⟩ := List.getElem?_eq_some_iff.mp hc
  have hperm : (leased[i] :: leased.eraseIdx i).Perm leased := List.getElem_cons_eraseIdx_perm hi
  have hlength := hperm.length_eq
  rw [List.length_cons] at hlength
  have hone : back.length ≤ 1 := by
    obtain rfl | ⟨d, rfl, -⟩ := hback
    · exact Nat.zero_le 1
    · exact Nat.le_refl 1
  refine ⟨?_, ?_, ?_, fun d hd => h.leasedFlags d (List.mem_of_mem_eraseIdx hd), fun d hd => ?_,
    fun d hd => ?_, ?_⟩
  · have := h.total
    rw [hqueue, List.length_append]
    omega
  · have := h.active
    rw [hactive, toNat_sub_one (by omega)]
    omega
  · have := h.bounded
    omega
  · rw [hqueue, List.mem_append] at hd
    obtain hd | hd := hd
    · exact h.idleFlags d hd
    · obtain rfl | ⟨e, rfl, hflag, -⟩ := hback
      · exact absurd hd List.not_mem_nil
      · rw [List.mem_singleton.mp hd]
        exact hflag
  · rw [hcreated]
    rw [hqueue, List.mem_append, List.mem_append] at hd
    obtain hd | hd | hd := hd
    · exact h.numbered d (List.mem_append_left _ (List.mem_of_mem_eraseIdx hd))
    · exact h.numbered d (List.mem_append_right _ hd)
    · obtain rfl | ⟨e, rfl, -, hserial⟩ := hback
      · exact absurd hd List.not_mem_nil
      · rw [List.mem_singleton.mp hd, hserial]
        exact h.numbered _ (List.mem_append_left _ (List.getElem_mem hi))
  · have hserials := hperm.map HttpClient.serial
    rw [hqueue]
    obtain rfl | ⟨e, rfl, -, hserial⟩ := hback
    · refine h.distinct_of_perm [leased[i].serial] ?_
      simp only [List.map_append, List.map_cons, List.append_nil] at hserials ⊢
      exact (hserials.symm.append_right _)
    · refine h.distinct_of_perm [] ?_
      simp only [List.map_append, List.map_cons, List.map_nil, hserial, List.nil_append]
        at hserials ⊢
      refine (hserials.symm.append_right _).trans ?_
      grind

/-- **`release_connection` keeps the accounts**, whether it queues the client or
destroys it. -/
theorem accounted_releaseConnection (h : Accounted cfg pool leased) {i : ℕ} {c : HttpClient}
    (hc : leased[i]? = some c) (now : ℕ) :
    Accounted cfg (releaseConnection cfg now c pool) (leased.eraseIdx i) := by
  have hpos : 0 < pool.totalClients.toNat := by
    rw [h.total]
    have := (List.getElem?_eq_some_iff.mp hc).1
    omega
  have hdestroyed : Accounted cfg
      { pool with totalClients := pool.totalClients - 1, activeClients := pool.activeClients - 1 }
      (leased.eraseIdx i) := by
    refine h.without hc (List.append_nil _).symm ?_ rfl rfl (.inl rfl)
    rw [toNat_sub_one hpos, List.length_nil]
    omega
  unfold releaseConnection
  simp only
  split
  · rw [destroyClient_of_idle rfl]
    exact hdestroyed
  · split
    · exact h.without hc rfl rfl rfl rfl (.inr ⟨_, rfl, rfl, rfl⟩)
    · rw [destroyClient_of_idle rfl]
      exact hdestroyed

/-- **So does the destructor** of a client that its holder drops. -/
theorem accounted_destroyClient (h : Accounted cfg pool leased) {i : ℕ} {c : HttpClient}
    (hc : leased[i]? = some c) :
    Accounted cfg (destroyClient c pool) (leased.eraseIdx i) := by
  have hflag : c.poolLeased = true := h.leasedFlags c (List.mem_of_getElem? hc)
  rw [destroyClient, if_pos hflag]
  refine h.without hc (List.append_nil _).symm ?_ rfl rfl (.inl rfl)
  have := (List.getElem?_eq_some_iff.mp hc).1
  have := h.total
  rw [toNat_sub_one (by omega), List.length_nil]
  omega

/-- A client changed by its holder, who leaves its identity and its flag alone. -/
theorem Accounted.set (h : Accounted cfg pool leased) {i : ℕ} {c d : HttpClient}
    (hc : leased[i]? = some c) (hserial : d.serial = c.serial)
    (hflag : d.poolLeased = c.poolLeased) : Accounted cfg pool (leased.set i d) := by
  obtain ⟨hi, rfl⟩ := List.getElem?_eq_some_iff.mp hc
  have hserials : (leased.set i d).map HttpClient.serial = leased.map HttpClient.serial := by
    rw [List.map_set, hserial, ← List.getElem_map HttpClient.serial (h := by simpa using hi),
      List.set_getElem_self]
  refine ⟨?_, ?_, h.bounded, fun e he => ?_, h.idleFlags, fun e he => ?_, ?_⟩
  · rw [h.total, List.length_set]
  · rw [h.active, List.length_set]
  · rcases List.mem_or_eq_of_mem_set he with he | rfl
    · exact h.leasedFlags e he
    · rw [hflag]
      exact h.leasedFlags _ (List.getElem_mem hi)
  · rw [List.mem_append] at he
    obtain he | he := he
    · rcases List.mem_or_eq_of_mem_set he with he | rfl
      · exact h.numbered e (List.mem_append_left _ he)
      · rw [hserial]
        exact h.numbered _ (List.mem_append_left _ (List.getElem_mem hi))
    · exact h.numbered e (List.mem_append_right _ he)
  · have hdistinct := h.distinct
    rw [List.map_append] at hdistinct ⊢
    rw [hserials]
    exact hdistinct

/-! ## Runs -/

/-- **One event keeps the accounts.** -/
theorem accounted_step {urls : List Bytes} {s s' : PoolState} {e : PoolEvent}
    (h : Accounted cfg s.pool s.leased) (hstep : poolStep cfg urls s e = some s') :
    Accounted cfg s'.pool s'.leased := by
  cases e with
  | acquire clock waited =>
    have hacquire := accounted_acquireConnection h clock waited
    simp only [poolStep] at hstep
    split at hstep
    · next hnone =>
      obtain rfl := Option.some.inj hstep
      rw [hnone] at hacquire
      exact hacquire
    · next c hc =>
      obtain rfl := Option.some.inj hstep
      rw [hc] at hacquire
      exact hacquire
  | call i call now answer =>
    obtain ⟨c, hc, hrest⟩ := Option.bind_eq_some_iff.mp hstep
    obtain ⟨url, hurl, hrest⟩ := Option.bind_eq_some_iff.mp hrest
    obtain rfl := Option.some.inj hrest
    have hsame := c.send_sameToPool now url (callBody call) call.traceparent call.headers answer
    exact h.set hc hsame.serial hsame.poolLeased
  | invalidate i =>
    obtain ⟨c, hc, hrest⟩ := Option.bind_eq_some_iff.mp hstep
    obtain rfl := Option.some.inj hrest
    exact h.set hc rfl rfl
  | release i now =>
    obtain ⟨c, hc, hrest⟩ := Option.bind_eq_some_iff.mp hstep
    obtain rfl := Option.some.inj hrest
    exact accounted_releaseConnection h hc now
  | drop i =>
    obtain ⟨c, hc, hrest⟩ := Option.bind_eq_some_iff.mp hstep
    obtain rfl := Option.some.inj hrest
    exact accounted_destroyClient h hc

theorem accounted_initial (cfg : PoolConfig) :
    Accounted cfg initialPoolState.pool initialPoolState.leased :=
  ⟨rfl, rfl, Nat.zero_le _, by simp [initialPoolState], by simp [initialPoolState, empty],
    by simp [initialPoolState, empty], by simp [initialPoolState, empty]⟩

/-- **The accounts of the pool, over every run.**  After any events in any order,
the clients counted are those checked out and those idle, the active ones are
those checked out, there are never more than the pool may hold, and no client is
in two hands.  The counters are read as the naturals they stand for, so none of
them has wrapped below zero. -/
theorem accounted_run (cfg : PoolConfig) (urls : List Bytes) (es : List PoolEvent) (s : PoolState)
    (hrun : run (poolStep cfg urls) initialPoolState es = some s) :
    s.pool.totalClients.toNat = s.leased.length + s.pool.available.length ∧
      s.pool.activeClients.toNat = s.leased.length ∧
      s.pool.totalClients ≤ cfg.maxPoolSize ∧
      ((s.leased ++ s.pool.available).map HttpClient.serial).Nodup := by
  have h : Accounted cfg s.pool s.leased :=
    run_invariant (P := fun s => Accounted cfg s.pool s.leased)
      (fun _ _ _ => accounted_step) (accounted_initial cfg) hrun
  exact ⟨h.total, h.active, UInt64.le_iff_toNat_le.mpr h.bounded, h.distinct⟩

/-- A pool of one: the second caller waits for the client of the first, finds it
stale, and drops the one it creates. -/
def waitingCaller : List PoolEvent :=
  [.acquire (fun _ => 0) false, .acquire (fun _ => 1) false, .release 0 2,
    .acquire (fun _ => 500) true, .drop 0]

theorem accounted_run_waitingCaller :
    ∃ s, run (poolStep ⟨1, 300, by decide⟩ []) initialPoolState waitingCaller = some s ∧
      s.pool.created = 2 ∧ s.pool.staleEvictions = 1 ∧
      s.pool.totalClients.toNat = s.leased.length + s.pool.available.length ∧
      s.pool.activeClients.toNat = s.leased.length ∧
      s.pool.totalClients ≤ 1 ∧
      ((s.leased ++ s.pool.available).map HttpClient.serial).Nodup :=
  ⟨_, rfl, rfl, rfl, accounted_run ⟨1, 300, by decide⟩ [] waitingCaller _ rfl⟩

end Http
end HttpDataDiod
