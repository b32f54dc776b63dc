import HttpDataDiod.Http.Client

/-!
# The client pool

Model of `HttpClientPool` of `http_client_pool.cpp`: a FIFO queue of idle
clients and three counters of type `size_t`, which wrap.  `tryAcquireFromQueue`
evicts stale and invalid clients from the front until one is good;
`acquireConnection` creates a client when the queue gives none and the pool is not
full, or when the wait for a released one has ended; `releaseConnection` puts a
valid client back.  Wherever a client is destroyed, its destructor runs the hook
that the pool installed on it.

* `tryAcquireFromQueue_mem`: what an acquire hands out was idle in the queue,
  and what stays idle was idle before.
-/

namespace HttpDataDiod
namespace Http

/-- The tunables of the pool.  `Config::validate` demands a positive size. -/
structure PoolConfig where
  maxPoolSize : UInt64
  maxIdleTime : ℕ
  maxPoolSize_pos : 0 < maxPoolSize

/-- The queue of idle clients, front first, the clients created so far, and the
counters. -/
structure HttpClientPool where
  available : List HttpClient
  created : ℕ
  totalClients : UInt64
  activeClients : UInt64
  staleEvictions : UInt64

namespace HttpClientPool

/-- A new pool. -/
def empty : HttpClientPool :=
  { available := [], created := 0, totalClients := 0, activeClients := 0, staleEvictions := 0 }

/-- `~HttpClient` with the hook of `set_pool_release_hook`: a client destroyed
while it is checked out gives its slot back; idle ones the pool accounts for. -/
def destroyClient (c : HttpClient) (pool : HttpClientPool) : HttpClientPool :=
  if c.poolLeased then
    { pool with totalClients := pool.totalClients - 1, activeClients := pool.activeClients - 1 }
  else pool

/-- `try_acquire_from_queue`, over the queue `clients` of the pool; `clock n` is
the clock as it is read when `n` clients are left behind the front. -/
def tryAcquireFromQueue (cfg : PoolConfig) (clock : ℕ → ℕ) :
    List HttpClient → HttpClientPool → Option HttpClient × HttpClientPool
  | [], pool => (none, { pool with available := [] })
  | c :: rest, pool =>
    if clock rest.length - c.lastUsed > cfg.maxIdleTime then
      tryAcquireFromQueue cfg clock rest
        (destroyClient c { pool with totalClients := pool.totalClients - 1,
                                     staleEvictions := pool.staleEvictions + 1 })
    else
      let counted := { pool with activeClients := pool.activeClients + 1 }
      if c.isValid then
        (some { c with poolLeased := true }, { counted with available := rest })
      else
        tryAcquireFromQueue cfg clock rest
          (destroyClient c { counted with totalClients := counted.totalClients - 1,
                                          activeClients := counted.activeClients - 1 })

/-- `acquire_connection`.  With a full pool and no idle client the caller waits
(`none`); after the wait, `waited`, it takes what the queue gives or creates a
client of its own.  The wait ends in an exception, which changes nothing, or with
an idle client in the queue. -/
def acquireConnection (cfg : PoolConfig) (clock : ℕ → ℕ) (waited : Bool)
    (pool : HttpClientPool) : Option HttpClient × HttpClientPool :=
  if waited = true ∧ pool.available = [] then (none, pool)
  else
    match tryAcquireFromQueue cfg clock pool.available pool with
    | (some c, pool') => (some c, pool')
    | (none, pool') =>
      if cfg.maxPoolSize ≤ pool'.totalClients ∧ waited = false then (none, pool')
      else
        (some { HttpClient.create (clock 0) with
            serial := pool'.created + 1, poolLeased := true },
          { pool' with created := pool'.created + 1,
                       totalClients := pool'.totalClients + 1,
                       activeClients := pool'.activeClients + 1 })

/-- `release_connection`. -/
def releaseConnection (cfg : PoolConfig) (now : ℕ) (c : HttpClient) (pool : HttpClientPool) :
    HttpClientPool :=
  let pool := { pool with activeClients := pool.activeClients - 1 }
  let c := { c with poolLeased := false }
  if c.isValid = false then
    destroyClient c { pool with totalClients := pool.totalClients - 1 }
  else if pool.available.length < cfg.maxPoolSize.toNat then
    { pool with available := pool.available ++ [c.touch now] }
  else destroyClient c { pool with totalClients := pool.totalClients - 1 }

@[simp] theorem destroyClient_available (c : HttpClient) (pool : HttpClientPool) :
    (destroyClient c pool).available = pool.available := by
  unfold destroyClient
  split <;> rfl

/-! ## Where clients come from -/

/-- **The clients of the queue.**  The client handed out is an idle one, with
its transports as they were; the clients left are idle ones. -/
theorem tryAcquireFromQueue_mem (cfg : PoolConfig) (clock : ℕ → ℕ) (clients : List HttpClient)
    (pool : HttpClientPool) :
    (∀ c, (tryAcquireFromQueue cfg clock clients pool).1 = some c →
      ∃ c' ∈ clients, HttpClient.SameTransports c' c) ∧
    (∀ c ∈ (tryAcquireFromQueue cfg clock clients pool).2.available, c ∈ clients) := by
  induction clients generalizing pool with
  | nil => simp [tryAcquireFromQueue]
  | cons d rest ih =>
    have hskip : ∀ p : HttpClientPool,
        (∀ c, (tryAcquireFromQueue cfg clock rest p).1 = some c →
          ∃ c' ∈ d :: rest, HttpClient.SameTransports c' c) ∧
        (∀ c ∈ (tryAcquireFromQueue cfg clock rest p).2.available, c ∈ d :: rest) := by
      intro p
      obtain ⟨hgiven, hleft⟩ := ih p
      refine ⟨fun c hc => ?_, fun c hc => List.mem_cons_of_mem d (hleft c hc)⟩
      obtain ⟨c', hmem, hsame⟩ := hgiven c hc
      exact ⟨c', List.mem_cons_of_mem d hmem, hsame⟩
    unfold tryAcquireFromQueue
    split
    · exact hskip _
    · simp only
      split
      · refine ⟨fun c hc => ?_, fun c hc => List.mem_cons_of_mem d hc⟩
        rw [← Option.some.inj hc]
        exact ⟨d, List.mem_cons_self, fun _ => rfl⟩
      · exact hskip _

/-- An acquired client is an idle one or has no transport yet. -/
theorem acquireConnection_mem (cfg : PoolConfig) (clock : ℕ → ℕ) (waited : Bool)
    (pool : HttpClientPool) :
    (∀ c, (acquireConnection cfg clock waited pool).1 = some c →
      (∃ c' ∈ pool.available, HttpClient.SameTransports c' c) ∨ ∀ b, c.transport b = none) ∧
    (∀ c ∈ (acquireConnection cfg clock waited pool).2.available, c ∈ pool.available) := by
  have hqueue := tryAcquireFromQueue_mem cfg clock pool.available pool
  unfold acquireConnection
  split
  · exact ⟨fun c hc => absurd hc (by simp), fun c hc => hc⟩
  cases hq : tryAcquireFromQueue cfg clock pool.available pool with
  | mk given pool' =>
    rw [hq] at hqueue
    obtain ⟨hgiven, hleft⟩ := hqueue
    cases given with
    | some c => exact ⟨fun c' hc' => Or.inl (hgiven c' hc'), hleft⟩
    | none =>
      split
      · next hpair =>
        exact absurd (congrArg Prod.fst hpair) (by simp)
      · next pool'' hpair =>
        obtain rfl : pool' = pool'' := congrArg Prod.snd hpair
        split
        · exact ⟨fun c hc => absurd hc (by simp), hleft⟩
        · refine ⟨fun c hc => Or.inr fun b => ?_, hleft⟩
          rw [← Option.some.inj hc]
          cases b <;> rfl

/-- A released client is kept with its transports, or destroyed. -/
theorem releaseConnection_mem (cfg : PoolConfig) (now : ℕ) (c : HttpClient)
    (pool : HttpClientPool) :
    ∀ d ∈ (releaseConnection cfg now c pool).available,
      d ∈ pool.available ∨ HttpClient.SameTransports c d := by
  intro d hd
  unfold releaseConnection at hd
  simp only at hd
  split at hd
  · exact Or.inl (by simpa using hd)
  · split at hd
    · rcases List.mem_append.mp hd with hd | hd
      · exact Or.inl hd
      · rw [List.mem_singleton.mp hd]
        exact Or.inr fun _ => rfl
    · exact Or.inl (by simpa using hd)

end HttpClientPool
end Http
end HttpDataDiod
