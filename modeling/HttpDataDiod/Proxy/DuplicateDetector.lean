import HttpDataDiod.Lib.ByteText
import Mathlib.Data.List.MinMax
import Mathlib.Data.Prod.Lex

/-!
# The duplicate detector

Model of `DuplicateDetector` of `duplicate_detector.cpp`: the bodies that were seen, by
their digests, with the times and the number of their deliveries, and a counter for each
client.  A map is the list of its pairs.  Times are 64-bit, and so is their difference: an
entry that was seen after `now` is as old as an entry can be.

* `record`: one delivery.
* `knows`: the digest is that of a live entry.
* `isDuplicate_record`: a delivery is a duplicate exactly when its digest is known.
* `mem_keys_record`: the digests afterwards.
* `knows_record`: what was recorded is known, at least for the moment.
-/

namespace HttpDataDiod
namespace Proxy

open ByteText

/-- `DuplicateDetector::Options`, as far as `record` reads them. -/
structure DetectorOptions where
  enabled : Bool
  maxEntries : ℕ
  ttlMs : UInt64
  maxBodyBytes : ℕ
  perClientMaxEntries : ℕ
  perClientTtlMs : UInt64

/-- `DuplicateDetector::Entry`. -/
structure DetectorEntry where
  body : Bytes
  clientIds : List Bytes
  firstSeenMs : UInt64
  lastSeenMs : UInt64
  count : ℕ
  deriving DecidableEq

/-- `DuplicateDetector::ClientCount`. -/
structure ClientCount where
  count : ℕ
  lastSeenMs : UInt64
  deriving DecidableEq

/-- `DuplicateDetector::State`. -/
structure DuplicateDetector where
  entries : List (Bytes × DetectorEntry)
  perClientCount : List (Bytes × ClientCount)

namespace DuplicateDetector

/-- A detector that has seen nothing. -/
def empty : DuplicateDetector := { entries := [], perClientCount := [] }

/-- `find` of a map. -/
def lookup {α : Type} (key : Bytes) (pairs : List (Bytes × α)) : Option α :=
  (pairs.find? fun p => p.1 = key).map Prod.snd

/-- The map with the value of a key changed. -/
def modify {α : Type} (key : Bytes) (f : α → α) (pairs : List (Bytes × α)) : List (Bytes × α) :=
  pairs.map fun p => if p.1 = key then (p.1, f p.2) else p

variable (o : DetectorOptions)

/-- `evict_expired_clients_locked`. -/
def evictExpiredClients (now : UInt64) (clients : List (Bytes × ClientCount)) :
    List (Bytes × ClientCount) :=
  if o.perClientTtlMs = 0 then clients
  else clients.filter fun c => ¬ o.perClientTtlMs < now - c.2.lastSeenMs

/-- `evict_expired_locked`. -/
def evictExpired (now : UInt64) (d : DuplicateDetector) : DuplicateDetector where
  entries := d.entries.filter fun e => ¬ o.ttlMs < now - e.2.lastSeenMs
  perClientCount := evictExpiredClients o now d.perClientCount

/-- `evict_oldest_client_locked`. -/
def evictOldestClient (clients : List (Bytes × ClientCount)) : List (Bytes × ClientCount) :=
  match clients.argmin fun c => c.2.lastSeenMs.toNat with
  | some victim => clients.erase victim
  | none => []

/-- `evict_lowest_count_locked`: the smallest count, the oldest entry among ties. -/
def evictLowestCount (entries : List (Bytes × DetectorEntry)) : List (Bytes × DetectorEntry) :=
  match entries.argmin fun e => toLex (e.2.count, e.2.firstSeenMs.toNat) with
  | some victim => entries.erase victim
  | none => []

/-- The entry of the first delivery of a body. -/
def firstEntry (now : UInt64) (clientId body : Bytes) : DetectorEntry where
  body := if body.length ≤ o.maxBodyBytes then body else []
  clientIds := [clientId]
  firstSeenMs := now
  lastSeenMs := now
  count := 1

/-- The entry after a further delivery. -/
def repeatEntry (now : UInt64) (clientId body : Bytes) (entry : DetectorEntry) :
    DetectorEntry where
  body := if entry.body = [] ∧ body.length ≤ o.maxBodyBytes then body else entry.body
  clientIds := entry.clientIds.insert clientId
  firstSeenMs := entry.firstSeenMs
  lastSeenMs := now
  count := entry.count + 1

/-- The counters after a duplicate of a client, with the client's own. -/
def countClient (now : UInt64) (clientId : Bytes) (clients : List (Bytes × ClientCount)) :
    List (Bytes × ClientCount) × ℕ :=
  match lookup clientId clients with
  | some client =>
    (modify clientId (fun c => { count := c.count + 1, lastSeenMs := now }) clients,
      client.count + 1)
  | none =>
    let clients :=
      if 0 < o.perClientMaxEntries ∧ o.perClientMaxEntries ≤ clients.length then
        evictOldestClient clients
      else clients
    (clients ++ [(clientId, { count := 1, lastSeenMs := now })], 1)

/-- What `record` comes to. -/
structure Recorded where
  detector : DuplicateDetector
  isDuplicate : Bool
  clientTotalCount : ℕ

/-- `record`. -/
def record (now : UInt64) (clientId bodyHash body : Bytes) (d : DuplicateDetector) : Recorded :=
  if o.enabled = false then { detector := d, isDuplicate := false, clientTotalCount := 0 }
  else
    let d := evictExpired o now d
    match lookup bodyHash d.entries with
    | none =>
      let entries :=
        if o.maxEntries ≤ d.entries.length then evictLowestCount d.entries else d.entries
      { detector :=
          { d with entries := entries ++ [(bodyHash, firstEntry o now clientId body)] },
        isDuplicate := false, clientTotalCount := 0 }
    | some _ =>
      let counted := countClient o now clientId d.perClientCount
      { detector :=
          { entries := modify bodyHash (repeatEntry o now clientId body) d.entries,
            perClientCount := counted.1 },
        isDuplicate := true, clientTotalCount := counted.2 }

/-- A live entry has the digest. -/
def knows (now : UInt64) (bodyHash : Bytes) (d : DuplicateDetector) : Bool :=
  (lookup bodyHash (evictExpired o now d).entries).isSome

/-! ## What a delivery leaves -/

section Maps

variable {α : Type} {key : Bytes} {pairs : List (Bytes × α)}

theorem isSome_lookup_iff : (lookup key pairs).isSome = true ↔ key ∈ pairs.map Prod.fst := by
  rw [lookup, Option.isSome_map, List.find?_isSome, List.mem_map]
  simp only [decide_eq_true_eq]

theorem keys_modify (f : α → α) : (modify key f pairs).map Prod.fst = pairs.map Prod.fst := by
  rw [modify, List.map_map]
  refine List.map_congr_left fun p _ => ?_
  show (if p.1 = key then (p.1, f p.2) else p).1 = p.1
  split <;> rfl

end Maps

variable {o} {now : UInt64} {clientId bodyHash body : Bytes} {d : DuplicateDetector}

theorem evictLowestCount_subset (entries : List (Bytes × DetectorEntry)) :
    evictLowestCount entries ⊆ entries := by
  unfold evictLowestCount
  split
  · exact List.erase_subset
  · exact List.nil_subset _

theorem evictExpired_subset : (evictExpired o now d).entries ⊆ d.entries :=
  fun _ h => List.mem_of_mem_filter h

/-- **When a delivery is a duplicate.** -/
theorem isDuplicate_record (henabled : o.enabled = true) :
    (record o now clientId bodyHash body d).isDuplicate = knows o now bodyHash d := by
  unfold record knows
  rw [if_neg (by rw [henabled]; decide)]
  dsimp only
  cases lookup bodyHash (evictExpired o now d).entries with
  | none => rfl
  | some entry => rfl

/-- **The digests after a delivery**: those before, and its own. -/
theorem mem_keys_record {key : Bytes}
    (h : key ∈ (record o now clientId bodyHash body d).detector.entries.map Prod.fst) :
    key = bodyHash ∨ key ∈ d.entries.map Prod.fst := by
  have hexpired : ∀ {entries : List (Bytes × DetectorEntry)},
      entries ⊆ (evictExpired o now d).entries → key ∈ entries.map Prod.fst →
      key ∈ d.entries.map Prod.fst := fun hsub hkey =>
    List.map_subset _ (List.Subset.trans hsub evictExpired_subset) hkey
  unfold record at h
  split at h
  · exact Or.inr h
  · dsimp only at h
    split at h
    · rw [List.map_append, List.mem_append, List.map_singleton, List.mem_singleton] at h
      rcases h with h | h
      · right
        split at h
        · exact hexpired (evictLowestCount_subset _) h
        · exact hexpired (List.Subset.refl _) h
      · exact Or.inl h
    · rw [keys_modify] at h
      exact Or.inr (hexpired (List.Subset.refl _) h)

/-- **What was recorded is known**: no time has passed. -/
theorem knows_record (henabled : o.enabled = true)
    (hfirst : knows o now bodyHash d = false) :
    knows o now bodyHash (record o now clientId bodyHash body d).detector = true := by
  have hlive : ¬ o.ttlMs < now - now := by
    rw [UInt64.sub_self]
    exact UInt64.not_lt_zero
  unfold knows at hfirst ⊢
  rw [isSome_lookup_iff]
  unfold record
  rw [if_neg (by rw [henabled]; decide)]
  dsimp only
  cases hlookup : lookup bodyHash (evictExpired o now d).entries with
  | some entry =>
    rw [hlookup] at hfirst
    exact absurd hfirst (by simp)
  | none =>
    refine List.mem_map.mpr ⟨(bodyHash, firstEntry o now clientId body), ?_, rfl⟩
    refine List.mem_filter.mpr ⟨List.mem_append_right _ List.mem_cons_self, ?_⟩
    exact decide_eq_true hlive

end DuplicateDetector
end Proxy
end HttpDataDiod
