import HttpDataDiod.Lib.Transition
import HttpDataDiod.Proxy.DuplicateDetector

/-!
# Expiry in the duplicate detector

A call of `record` reads the clock before it takes the mutex, so the calls may take the mutex
in another order than that of their readings.  The age of an entry is the unsigned difference
of the reading and of the time the entry was last seen: an entry that was seen after the
reading, by a call that overtook this one, is older than any TTL.  One call that was overtaken
by a millisecond drops every body and counter that were seen in between.

* `detectorStep`: calls that read the clock and take the mutex later.
* `NotSeenLater`: what a call finds was not seen after its reading.
* `expirations_idle_iff`: entries expire only after their TTL exactly in the runs of which all
  calls do so.
* `overtaken_call_expires`: a call that is overtaken.
-/

namespace HttpDataDiod
namespace Proxy

open ByteText Transition

/-- `EvictionReason`. -/
inductive EvictionReason where
  | bodyTtl
  | bodyCap
  | clientTtl
  | clientCap
  deriving DecidableEq

/-- The options of a validated configuration, of which all numbers are of type `int`. -/
structure ValidatedOptions extends DetectorOptions where
  maxEntries_pos : 0 < maxEntries
  ttlMs_lt : ttlMs < 2147483648
  perClientTtlMs_lt : perClientTtlMs < 2147483648

/-! ## Calls and their readings -/

/-- `TimeUtils::steady_ms`, of a clock in nanoseconds. -/
def steadyMs (clock : ℕ) : UInt64 := UInt64.ofNat (clock / 1000000)

/-- A call of `record` that has read the clock. -/
structure PendingRecord where
  now : UInt64
  clientId : Bytes
  bodyHash : Bytes
  body : Bytes

/-- An entry that was dropped as expired, with the reading of the call that dropped it. -/
structure Expiration where
  reason : EvictionReason
  now : UInt64
  lastSeenMs : UInt64
  deriving DecidableEq

/-- The clock, the calls in front of the mutex, the detector, and what has expired so far. -/
structure DetectorState where
  clock : ℕ
  pending : List PendingRecord
  detector : DuplicateDetector
  expirations : List Expiration

/-- The clock moves on, a call reads it, or a call takes the mutex. -/
inductive DetectorEvent where
  | tick (ns : ℕ)
  | read (clientId bodyHash body : Bytes)
  | lock (i : ℕ)

/-- What a call drops: the bodies of `evict_expired_locked` and the counters of
`evict_expired_clients_locked`. -/
def expirationsOf (o : DetectorOptions) (now : UInt64) (d : DuplicateDetector) : List Expiration :=
  if o.enabled = false then []
  else
    ((d.entries.filter fun e => o.ttlMs < now - e.2.lastSeenMs).map fun e =>
      ⟨.bodyTtl, now, e.2.lastSeenMs⟩) ++
    if o.perClientTtlMs = 0 then []
    else (d.perClientCount.filter fun c => o.perClientTtlMs < now - c.2.lastSeenMs).map fun c =>
      ⟨.clientTtl, now, c.2.lastSeenMs⟩

/-- One step.  The clock counts in 64 bits, with a sign. -/
def detectorStep (o : DetectorOptions) (s : DetectorState) : DetectorEvent → Option DetectorState
  | .tick ns =>
    if s.clock + ns < 9223372036854775808 then some { s with clock := s.clock + ns } else none
  | .read clientId bodyHash body =>
    some { s with pending := s.pending ++ [⟨steadyMs s.clock, clientId, bodyHash, body⟩] }
  | .lock i =>
    (s.pending[i]?).map fun call =>
      { s with
        pending := s.pending.eraseIdx i
        detector := (s.detector.record o call.now call.clientId call.bodyHash call.body).detector
        expirations := expirationsOf o call.now s.detector ++ s.expirations }

/-- A new detector. -/
def initialDetector : DetectorState where
  clock := 0
  pending := []
  detector := .empty
  expirations := []

/-- The TTL of an expiration. -/
def ttlOf (o : DetectorOptions) : EvictionReason → UInt64
  | .bodyTtl | .bodyCap => o.ttlMs
  | .clientTtl | .clientCap => o.perClientTtlMs

/-- What has expired was idle for longer than its TTL. -/
def ExpiredAfterTtl (o : DetectorOptions) (s : DetectorState) : Prop :=
  ∀ x ∈ s.expirations, x.lastSeenMs.toNat + (ttlOf o x.reason).toNat + 1 ≤ x.now.toNat

/-! ## The condition -/

/-- A call that takes the mutex finds no body that was seen after its reading, nor a counter,
if counters expire. -/
def NotSeenLater (o : DetectorOptions) (s : DetectorState) : DetectorEvent → Prop
  | .lock i => ∀ call ∈ s.pending[i]?, o.enabled = true →
      (∀ e ∈ s.detector.entries, e.2.lastSeenMs ≤ call.now) ∧
      (o.perClientTtlMs ≠ 0 → ∀ c ∈ s.detector.perClientCount, c.2.lastSeenMs ≤ call.now)
  | .tick _ | .read .. => True

/-! ## Ages -/

/-- The age of an entry that was not seen later. -/
theorem lt_sub_iff {ttl now last : UInt64} (h : last ≤ now) :
    ttl < now - last ↔ last.toNat + ttl.toNat + 1 ≤ now.toNat := by
  have hle := UInt64.le_iff_toNat_le.mp h
  rw [UInt64.lt_iff_toNat_lt, UInt64.toNat_sub_of_le _ _ h]
  omega

/-- **An entry that was seen later** is older than any TTL. -/
theorem lt_sub_of_lt {ttl now last : UInt64} (h : now < last)
    (hlast : last.toNat < 9223372036854775808) (httl : ttl.toNat < 2147483648) :
    ttl < now - last := by
  have hlt := UInt64.lt_iff_toNat_lt.mp h
  rw [UInt64.lt_iff_toNat_lt, UInt64.toNat_sub]
  omega

variable {o : DetectorOptions} {now : UInt64} {d : DuplicateDetector} {x : Expiration}

theorem mem_expirationsOf :
    x ∈ expirationsOf o now d ↔ o.enabled = true ∧
      ((∃ e ∈ d.entries, o.ttlMs < now - e.2.lastSeenMs ∧ x = ⟨.bodyTtl, now, e.2.lastSeenMs⟩) ∨
        (o.perClientTtlMs ≠ 0 ∧ ∃ c ∈ d.perClientCount,
          o.perClientTtlMs < now - c.2.lastSeenMs ∧ x = ⟨.clientTtl, now, c.2.lastSeenMs⟩)) := by
  unfold expirationsOf
  cases henabled : o.enabled with
  | false => simp
  | true =>
    by_cases httl : o.perClientTtlMs = 0
    · simp [httl, eq_comm, and_assoc]
    · simp [httl, eq_comm, and_assoc]

/-! ## What a delivery leaves of the times -/

namespace DuplicateDetector

variable {clientId bodyHash body : Bytes}

theorem mem_modify {α : Type} {key : Bytes} {f : α → α} {pairs : List (Bytes × α)}
    {p : Bytes × α} (h : p ∈ modify key f pairs) :
    p ∈ pairs ∨ ∃ value, (key, value) ∈ pairs ∧ p = (key, f value) := by
  obtain ⟨⟨k, value⟩, hmem, rfl⟩ := List.mem_map.mp h
  by_cases hk : k = key
  · subst hk
    exact .inr ⟨value, hmem, if_pos rfl⟩
  · rw [if_neg hk]
    exact .inl hmem

/-- An entry was there before, or was seen now. -/
theorem lastSeen_of_mem_record {e : Bytes × DetectorEntry}
    (h : e ∈ (record o now clientId bodyHash body d).detector.entries) :
    e ∈ d.entries ∨ e.2.lastSeenMs = now := by
  unfold record at h
  split at h
  · exact .inl h
  · simp only at h
    split at h
    · rcases List.mem_append.mp h with h | h
      · left
        split at h
        · exact evictExpired_subset (evictLowestCount_subset _ h)
        · exact evictExpired_subset h
      · rw [List.mem_singleton.mp h]
        exact .inr rfl
    · rcases mem_modify h with h | ⟨value, -, rfl⟩
      · exact .inl (evictExpired_subset h)
      · exact .inr rfl

theorem evictExpiredClients_subset (clients : List (Bytes × ClientCount)) :
    evictExpiredClients o now clients ⊆ clients := by
  unfold evictExpiredClients
  split
  · exact List.Subset.refl _
  · exact List.filter_sublist.subset

theorem evictOldestClient_subset (clients : List (Bytes × ClientCount)) :
    evictOldestClient clients ⊆ clients := by
  unfold evictOldestClient
  split
  · exact List.erase_subset
  · exact List.nil_subset _

/-- And so was a counter. -/
theorem lastSeen_of_mem_countClient {clients : List (Bytes × ClientCount)}
    {c : Bytes × ClientCount} (h : c ∈ (countClient o now clientId clients).1) :
    c ∈ clients ∨ c.2.lastSeenMs = now := by
  unfold countClient at h
  split at h
  · simp only at h
    rcases mem_modify h with h | ⟨value, -, rfl⟩
    · exact .inl h
    · exact .inr rfl
  · rcases List.mem_append.mp h with h | h
    · left
      split at h
      · exact evictOldestClient_subset _ h
      · exact h
    · rw [List.mem_singleton.mp h]
      exact .inr rfl

theorem lastSeen_of_mem_record_clients {c : Bytes × ClientCount}
    (h : c ∈ (record o now clientId bodyHash body d).detector.perClientCount) :
    c ∈ d.perClientCount ∨ c.2.lastSeenMs = now := by
  unfold record at h
  split at h
  · exact .inl h
  · simp only at h
    split at h
    · exact .inl (evictExpiredClients_subset _ h)
    · rcases lastSeen_of_mem_countClient h with h | h
      · exact .inl (evictExpiredClients_subset _ h)
      · exact .inr h

end DuplicateDetector

/-! ## Runs -/

/-- All times are those of a clock of 63 bits. -/
structure TimesBounded (s : DetectorState) : Prop where
  clock : s.clock < 9223372036854775808
  pending : ∀ call ∈ s.pending, call.now.toNat < 9223372036854775808
  entries : ∀ e ∈ s.detector.entries, e.2.lastSeenMs.toNat < 9223372036854775808
  clients : ∀ c ∈ s.detector.perClientCount, c.2.lastSeenMs.toNat < 9223372036854775808

theorem timesBounded_initial : TimesBounded initialDetector where
  clock := by decide
  pending := nofun
  entries := nofun
  clients := nofun

theorem toNat_steadyMs_lt {clock : ℕ} (h : clock < 9223372036854775808) :
    (steadyMs clock).toNat < 9223372036854775808 := by
  have hle : clock / 1000000 < 18446744073709551616 := by omega
  rw [steadyMs, UInt64.toNat_ofNat_of_lt' hle]
  omega

theorem TimesBounded.step {s s' : DetectorState} {e : DetectorEvent} (h : TimesBounded s)
    (hstep : detectorStep o s e = some s') : TimesBounded s' := by
  cases e with
  | tick ns =>
    simp only [detectorStep] at hstep
    split at hstep
    · rename_i hclock
      obtain rfl := Option.some.inj hstep
      exact { h with clock := hclock }
    · cases hstep
  | read clientId bodyHash body =>
    obtain rfl := Option.some.inj hstep
    refine { h with pending := fun call hcall => ?_ }
    rcases List.mem_append.mp hcall with hcall | hcall
    · exact h.pending call hcall
    · rw [List.mem_singleton.mp hcall]
      exact toNat_steadyMs_lt h.clock
  | lock i =>
    obtain ⟨call, hcall, rfl⟩ := Option.map_eq_some_iff.mp hstep
    have hnow := h.pending call (List.mem_of_getElem? hcall)
    refine ⟨h.clock, fun c hc => h.pending c (List.mem_of_mem_eraseIdx hc), fun e he => ?_,
      fun c hc => ?_⟩
    · rcases DuplicateDetector.lastSeen_of_mem_record he with he | he
      · exact h.entries e he
      · rw [he]
        exact hnow
    · rcases DuplicateDetector.lastSeen_of_mem_record_clients hc with hc | hc
      · exact h.clients c hc
      · rw [hc]
        exact hnow

/-- A call that finds nothing of later drops only what is older than its TTL. -/
theorem ExpiredAfterTtl.step {s s' : DetectorState} {e : DetectorEvent} (h : ExpiredAfterTtl o s)
    (hseen : NotSeenLater o s e) (hstep : detectorStep o s e = some s') :
    ExpiredAfterTtl o s' := by
  cases e with
  | tick ns =>
    simp only [detectorStep] at hstep
    split at hstep
    · obtain rfl := Option.some.inj hstep
      exact h
    · cases hstep
  | read clientId bodyHash body =>
    obtain rfl := Option.some.inj hstep
    exact h
  | lock i =>
    obtain ⟨call, hcall, rfl⟩ := Option.map_eq_some_iff.mp hstep
    intro x hx
    rcases List.mem_append.mp hx with hx | hx
    · obtain ⟨henabled, hdropped⟩ := mem_expirationsOf.mp hx
      obtain ⟨hentries, hclients⟩ := hseen call hcall henabled
      rcases hdropped with ⟨e, he, hage, rfl⟩ | ⟨httl, c, hc, hage, rfl⟩
      · exact (lt_sub_iff (hentries e he)).mp hage
      · exact (lt_sub_iff (hclients httl c hc)).mp hage
    · exact h x hx

/-- And a call after which this holds has found nothing of later. -/
theorem notSeenLater_of_expiredAfterTtl {o : ValidatedOptions} {s s' : DetectorState}
    {e : DetectorEvent} (hbounded : TimesBounded s)
    (hstep : detectorStep o.toDetectorOptions s e = some s')
    (h : ExpiredAfterTtl o.toDetectorOptions s') : NotSeenLater o.toDetectorOptions s e := by
  cases e with
  | tick ns => trivial
  | read clientId bodyHash body => trivial
  | lock i =>
    intro call hcall henabled
    obtain ⟨call', hcall', rfl⟩ := Option.map_eq_some_iff.mp hstep
    obtain rfl : call = call' := Option.some.inj (hcall.symm.trans hcall')
    have hdropped : ∀ x ∈ expirationsOf o.toDetectorOptions call.now s.detector, _ :=
      fun x hx => h x (List.mem_append_left _ hx)
    constructor
    · intro e he
      by_contra hlater
      have hage := lt_sub_of_lt (UInt64.not_le.mp hlater) (hbounded.entries e he)
        (UInt64.lt_iff_toNat_lt.mp o.ttlMs_lt)
      have hidle := hdropped _ (mem_expirationsOf.mpr ⟨henabled, .inl ⟨e, he, hage, rfl⟩⟩)
      have hlt := UInt64.lt_iff_toNat_lt.mp (UInt64.not_le.mp hlater)
      simp only at hidle
      omega
    · intro httl c hc
      by_contra hlater
      have hage := lt_sub_of_lt (UInt64.not_le.mp hlater) (hbounded.clients c hc)
        (UInt64.lt_iff_toNat_lt.mp o.perClientTtlMs_lt)
      have hidle := hdropped _ (mem_expirationsOf.mpr ⟨henabled, .inr ⟨httl, c, hc, hage, rfl⟩⟩)
      have hlt := UInt64.lt_iff_toNat_lt.mp (UInt64.not_le.mp hlater)
      simp only at hidle
      omega

/-- **Bodies and counters expire only after their TTL** exactly in the runs in which no call
finds one that was seen after its reading of the clock. -/
theorem expirations_idle_iff (o : ValidatedOptions) (events : List DetectorEvent) :
    Always (detectorStep o.toDetectorOptions) (ExpiredAfterTtl o.toDetectorOptions)
        initialDetector events ↔
      StepsMeet (detectorStep o.toDetectorOptions) (NotSeenLater o.toDetectorOptions)
        initialDetector events := by
  constructor
  · refine stepsMeet_of_always (P := TimesBounded) (fun s e s' h _ hstep => h.step hstep)
      (fun s e s' h hstep hidle => notSeenLater_of_expiredAfterTtl h hstep hidle)
      (fun s e hnone => ?_) timesBounded_initial
    cases e with
    | tick ns => trivial
    | read clientId bodyHash body => trivial
    | lock i =>
      rw [NotSeenLater, Option.map_eq_none_iff.mp hnone]
      exact nofun
  · refine always_of_stepsMeet (fun s e s' h hseen hstep => ExpiredAfterTtl.step h hseen hstep)
      (fun s h => h) ?_
    exact nofun

/-- The default options. -/
def defaultOptions : ValidatedOptions where
  enabled := true
  maxEntries := 1000
  ttlMs := 60000
  maxBodyBytes := 500
  perClientMaxEntries := 1000
  perClientTtlMs := 1800000
  maxEntries_pos := by decide
  ttlMs_lt := by decide
  perClientTtlMs_lt := by decide

/-- Two calls read the clock, the second a millisecond after the first, and the second takes
the mutex first. -/
def overtakenCall : List DetectorEvent :=
  [.read [1] [1] [], .tick 1000000, .read [2] [2] [], .lock 1, .lock 0]

/-- **The call that was overtaken** drops the body of the other one, as idle for a minute. -/
theorem overtaken_call_expires :
    ¬ ∀ (o : ValidatedOptions) (events : List DetectorEvent),
      Always (detectorStep o.toDetectorOptions) (ExpiredAfterTtl o.toDetectorOptions)
        initialDetector events := by
  intro hall
  have hrun : ((run (detectorStep defaultOptions.toDetectorOptions) initialDetector
      overtakenCall).map DetectorState.expirations) = some [⟨.bodyTtl, 0, 1⟩] := by decide +kernel
  obtain ⟨s, hs, hexpirations⟩ := Option.map_eq_some_iff.mp hrun
  have hidle := always_iff.mp (hall defaultOptions overtakenCall) _ [] s (List.append_nil _).symm hs
    ⟨.bodyTtl, 0, 1⟩ (by rw [hexpirations]; exact List.mem_cons_self)
  exact absurd hidle (by decide)

end Proxy
end HttpDataDiod
