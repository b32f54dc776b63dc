import HttpDataDiod.Lib.LinkedMap
import HttpDataDiod.Proxy.DuplicateExpiry
import HttpDataDiod.Proxy.DuplicateReport

/-!
# The books of the duplicate detector

The detector forgets bodies for two reasons, because they were idle for too long and because
it is full, and tells its eviction sink each time.  When the clock readings come in order, every
first delivery is still tracked or was reported.

* `recordReports`: what `record` tells the sink.
* `bookStep`: deliveries in the order of their readings, with a log of their outcomes.
* `liveSince`: the last delivery of a body, unless the body was evicted to make room since.
* `books_balanced`: the bounds, the conservation of first deliveries, when a delivery is a
  duplicate, who is evicted, and what the report says.
-/

namespace HttpDataDiod
namespace Proxy

open ByteText Transition DuplicateDetector

/-! ## The eviction sink -/

/-- `report_evictions`: no eviction is not reported. -/
def reportEvictions (reason : EvictionReason) (count : ℕ) : List (EvictionReason × ℕ) :=
  if count = 0 then [] else [(reason, count)]

/-- The reports of `evict_expired_locked`. -/
def expiryReports (o : DetectorOptions) (now : UInt64) (d : DuplicateDetector) :
    List (EvictionReason × ℕ) :=
  reportEvictions .bodyTtl (d.entries.countP fun e => o.ttlMs < now - e.2.lastSeenMs) ++
    if o.perClientTtlMs = 0 then []
    else reportEvictions .clientTtl
      (d.perClientCount.countP fun c => o.perClientTtlMs < now - c.2.lastSeenMs)

/-- The body that `evict_lowest_count_locked` drops for a new one, if the detector is full. -/
def capVictim (o : DetectorOptions) (bodyHash : Bytes) (d : DuplicateDetector) :
    Option (Bytes × DetectorEntry) :=
  match lookup bodyHash d.entries with
  | some _ => none
  | none =>
    if o.maxEntries ≤ d.entries.length then
      d.entries.argmin fun e => toLex (e.2.count, e.2.firstSeenMs.toNat)
    else none

/-- The report of `evict_oldest_client_locked`. -/
def clientCapReports (o : DetectorOptions) (clientId bodyHash : Bytes) (d : DuplicateDetector) :
    List (EvictionReason × ℕ) :=
  match lookup bodyHash d.entries, lookup clientId d.perClientCount with
  | some _, none =>
    if 0 < o.perClientMaxEntries ∧ o.perClientMaxEntries ≤ d.perClientCount.length ∧
        d.perClientCount ≠ [] then
      reportEvictions .clientCap 1
    else []
  | _, _ => []

/-- What `record` tells the sink. -/
def recordReports (o : DetectorOptions) (now : UInt64) (clientId bodyHash : Bytes)
    (d : DuplicateDetector) : List (EvictionReason × ℕ) :=
  if o.enabled = false then []
  else
    expiryReports o now d ++
      reportEvictions .bodyCap ((capVictim o bodyHash (evictExpired o now d)).toList.length) ++
      clientCapReports o clientId bodyHash (evictExpired o now d)

/-- The evictions that were reported for a reason. -/
def reported (reason : EvictionReason) (reports : List (EvictionReason × ℕ)) : ℕ :=
  ((reports.filter fun r => r.1 = reason).map Prod.snd).sum

/-! ## Deliveries -/

/-- A call of `record` with its reading of the clock. -/
structure RecordCall where
  now : UInt64
  clientId : Bytes
  bodyHash : Bytes
  body : Bytes

/-- The outcome of a call: the bodies that were tracked behind the expiry, and those of them
that were dropped to make room. -/
structure RecordLog where
  now : UInt64
  bodyHash : Bytes
  isDuplicate : Bool
  tracked : List (Bytes × DetectorEntry)
  evicted : List (Bytes × DetectorEntry)

/-- The detector, the last reading, the outcomes so far, the newest first, and the reports. -/
structure BookState where
  detector : DuplicateDetector
  last : UInt64
  log : List RecordLog
  reports : List (EvictionReason × ℕ)

/-- The outcome of a call. -/
def logOf (o : DetectorOptions) (call : RecordCall) (d : DuplicateDetector) : RecordLog where
  now := call.now
  bodyHash := call.bodyHash
  isDuplicate := (d.record o call.now call.clientId call.bodyHash call.body).isDuplicate
  tracked := (d.evictExpired o call.now).entries
  evicted := (d.evictExpired o call.now).entries.filter fun e =>
    e.1 ∉ (d.record o call.now call.clientId call.bodyHash call.body).detector.entries.map Prod.fst

/-- One call.  The handler calls `record` only when the detection is enabled, and the readings
come in order. -/
def bookStep (o : DetectorOptions) (s : BookState) (call : RecordCall) : Option BookState :=
  if o.enabled = true ∧ s.last ≤ call.now then
    some
      { detector := (s.detector.record o call.now call.clientId call.bodyHash call.body).detector
        last := call.now
        log := logOf o call s.detector :: s.log
        reports := recordReports o call.now call.clientId call.bodyHash s.detector ++ s.reports }
  else none

/-- A new detector. -/
def initialBooks : BookState where
  detector := .empty
  last := 0
  log := []
  reports := []

/-- The reading of the last delivery of a body, unless the body was evicted to make room
since then. -/
def liveSince (bodyHash : Bytes) : List RecordLog → Option UInt64
  | [] => none
  | l :: log =>
    if l.bodyHash = bodyHash then some l.now
    else if bodyHash ∈ l.evicted.map Prod.fst then none
    else liveSince bodyHash log

/-! ## The bodies behind the expiry -/

variable {o : DetectorOptions} {now : UInt64} {clientId bodyHash body key : Bytes}
  {d : DuplicateDetector}

/-- What is tracked behind the expiry. -/
theorem mem_evictExpired (hseen : ∀ e ∈ d.entries, e.2.lastSeenMs ≤ now)
    {e : Bytes × DetectorEntry} :
    e ∈ (d.evictExpired o now).entries ↔
      e ∈ d.entries ∧ now.toNat ≤ e.2.lastSeenMs.toNat + o.ttlMs.toNat := by
  rw [evictExpired, List.mem_filter, decide_eq_true_eq]
  constructor
  · rintro ⟨he, hlive⟩
    rw [lt_sub_iff (hseen e he)] at hlive
    exact ⟨he, by omega⟩
  · rintro ⟨he, hlive⟩
    rw [lt_sub_iff (hseen e he)]
    exact ⟨he, by omega⟩

/-- The bodies that expire and those that stay. -/
theorem length_evictExpired (o : DetectorOptions) (now : UInt64) (d : DuplicateDetector) :
    (d.entries.countP fun e => o.ttlMs < now - e.2.lastSeenMs) +
      (d.evictExpired o now).entries.length = d.entries.length := by
  have hsplit := List.length_eq_countP_add_countP (l := d.entries)
    (fun e => decide (o.ttlMs < now - e.2.lastSeenMs))
  have hrest : (d.evictExpired o now).entries.length =
      d.entries.countP fun e => decide (¬ decide (o.ttlMs < now - e.2.lastSeenMs) = true) := by
    rw [List.countP_eq_length_filter, evictExpired]
    simp only [decide_eq_true_eq]
  omega

theorem keys_nodup_evictExpired (hnodup : (d.entries.map Prod.fst).Nodup) (o : DetectorOptions)
    (now : UInt64) :
    ((d.evictExpired o now).entries.map Prod.fst).Nodup :=
  hnodup.sublist (List.filter_sublist.map _)

/-! ## The body that makes room -/

/-- The detector is full, and the body is none of the tracked ones. -/
theorem capVictim_eq_some {v : Bytes × DetectorEntry} (h : capVictim o bodyHash d = some v) :
    lookup bodyHash d.entries = none ∧ o.maxEntries ≤ d.entries.length ∧
      d.entries.argmin (fun e => toLex (e.2.count, e.2.firstSeenMs.toNat)) = some v := by
  unfold capVictim at h
  cases hlookup : lookup bodyHash d.entries with
  | some e => simp [hlookup] at h
  | none =>
    simp only [hlookup] at h
    split at h
    · exact ⟨rfl, ‹_›, h⟩
    · cases h

/-- **The victim has the smallest count**, and is the oldest among ties. -/
theorem capVictim_minimal {v e : Bytes × DetectorEntry} (h : capVictim o bodyHash d = some v)
    (he : e ∈ d.entries) :
    v.2.count < e.2.count ∨ (v.2.count = e.2.count ∧ v.2.firstSeenMs ≤ e.2.firstSeenMs) := by
  obtain ⟨-, -, hargmin⟩ := capVictim_eq_some h
  have hle := List.le_of_mem_argmin he hargmin
  rcases (Prod.Lex.toLex_le_toLex).mp hle with hlt | ⟨heq, hle⟩
  · exact .inl hlt
  · exact .inr ⟨heq, UInt64.le_iff_toNat_le.mpr hle⟩

theorem capVictim_mem {v : Bytes × DetectorEntry} (h : capVictim o bodyHash d = some v) :
    v ∈ d.entries :=
  List.argmin_mem (capVictim_eq_some h).2.2

/-- The entries with a first delivery, of which one was dropped to make room. -/
theorem entries_record_of_new (henabled : o.enabled = true) (hmax : 0 < o.maxEntries)
    (hnew : lookup bodyHash (d.evictExpired o now).entries = none) (clientId body : Bytes) :
    (d.record o now clientId bodyHash body).isDuplicate = false ∧
      (d.record o now clientId bodyHash body).detector.perClientCount =
        (d.evictExpired o now).perClientCount ∧
      (d.record o now clientId bodyHash body).detector.entries =
        ((capVictim o bodyHash (d.evictExpired o now)).elim (d.evictExpired o now).entries
            fun v => (d.evictExpired o now).entries.erase v) ++
          [(bodyHash, firstEntry o now clientId body)] := by
  unfold record capVictim
  rw [if_neg (Bool.ne_false_iff.mpr henabled)]
  simp only [hnew]
  refine ⟨trivial, trivial, ?_⟩
  congr 1
  by_cases hfull : o.maxEntries ≤ (d.evictExpired o now).entries.length
  · rw [if_pos hfull, if_pos hfull, evictLowestCount]
    split
    · rename_i hvictim
      rw [hvictim]
      rfl
    · rename_i hnone
      rw [List.argmin_eq_none] at hnone
      rw [hnone, List.length_nil] at hfull
      omega
  · rw [if_neg hfull, if_neg hfull]
    rfl

/-- The entries with a further delivery. -/
theorem entries_record_of_known (henabled : o.enabled = true) {e : DetectorEntry}
    (hknown : lookup bodyHash (d.evictExpired o now).entries = some e) (clientId body : Bytes) :
    (d.record o now clientId bodyHash body).isDuplicate = true ∧
      (d.record o now clientId bodyHash body).detector.perClientCount =
        (countClient o now clientId (d.evictExpired o now).perClientCount).1 ∧
      (d.record o now clientId bodyHash body).detector.entries =
        modify bodyHash (repeatEntry o now clientId body) (d.evictExpired o now).entries := by
  unfold record
  rw [if_neg (Bool.ne_false_iff.mpr henabled)]
  simp only [hknown]
  exact ⟨trivial, trivial, trivial⟩

/-! ## What a delivery does -/

/-- A new body finds room when nothing has to be dropped. -/
theorem length_lt_of_capVictim_eq_none (hmax : 0 < o.maxEntries)
    (hnew : lookup bodyHash d.entries = none) (h : capVictim o bodyHash d = none) :
    d.entries.length < o.maxEntries := by
  by_contra hfull
  simp only [capVictim, hnew] at h
  rw [if_pos (not_lt.mp hfull), List.argmin_eq_none] at h
  rw [h, List.length_nil] at hfull
  exact hfull hmax

theorem capVictim_of_known {e : DetectorEntry} (hknown : lookup bodyHash d.entries = some e) :
    capVictim o bodyHash d = none := by
  simp only [capVictim, hknown]

/-- The bodies after a delivery, from those behind the expiry. -/
structure Delivered (o : DetectorOptions) (now : UInt64) (bodyHash : Bytes)
    (tracked : List (Bytes × DetectorEntry)) (victim : Option (Bytes × DetectorEntry))
    (isDuplicate : Bool) (entries : List (Bytes × DetectorEntry)) : Prop where
  isDuplicate_iff : isDuplicate = true ↔ bodyHash ∈ tracked.map Prod.fst
  nodup : (entries.map Prod.fst).Nodup
  own : ∃ e, (bodyHash, e) ∈ entries
  seen : ∀ e ∈ entries, e.1 = bodyHash → e.2.lastSeenMs = now
  mem_iff : ∀ e : Bytes × DetectorEntry, e.1 ≠ bodyHash →
    (e ∈ entries ↔ e ∈ tracked ∧ victim ≠ some e)
  victim_ne : ∀ v ∈ victim, v.1 ≠ bodyHash
  length : entries.length + victim.toList.length = tracked.length + if isDuplicate then 0 else 1
  length_le : tracked.length ≤ o.maxEntries → entries.length ≤ o.maxEntries

/-- The bodies that stay when room is made. -/
theorem mem_room (hnodup : (d.entries.map Prod.fst).Nodup) {e : Bytes × DetectorEntry} :
    e ∈ (capVictim o bodyHash d).elim d.entries (fun v => d.entries.erase v) ↔
      e ∈ d.entries ∧ capVictim o bodyHash d ≠ some e := by
  cases hvictim : capVictim o bodyHash d with
  | none => simp
  | some v =>
    rw [Option.elim_some, hnodup.of_map.mem_erase_iff, and_comm, ne_comm, ne_eq, ne_eq,
      Option.some.injEq]

theorem length_room (o : DetectorOptions) (bodyHash : Bytes) (d : DuplicateDetector) :
    ((capVictim o bodyHash d).elim d.entries (fun v => d.entries.erase v)).length +
      (capVictim o bodyHash d).toList.length = d.entries.length := by
  cases hvictim : capVictim o bodyHash d with
  | none => rfl
  | some v =>
    have hmem := capVictim_mem hvictim
    have hpos := List.length_pos_of_mem hmem
    rw [Option.elim_some, List.length_erase_of_mem hmem, Option.toList_some, List.length_singleton]
    omega

theorem delivered_of_new (henabled : o.enabled = true) (hmax : 0 < o.maxEntries)
    (hnodup : (d.entries.map Prod.fst).Nodup)
    (hnew : lookup bodyHash (d.evictExpired o now).entries = none) :
    Delivered o now bodyHash (d.evictExpired o now).entries
      (capVictim o bodyHash (d.evictExpired o now))
      (d.record o now clientId bodyHash body).isDuplicate
      (d.record o now clientId bodyHash body).detector.entries := by
  obtain ⟨hfirst, -, hentries⟩ :=
    entries_record_of_new henabled hmax hnew clientId body
  have hnotkey : bodyHash ∉ (d.evictExpired o now).entries.map Prod.fst :=
    LinkedMap.lookup_eq_none_iff.mp hnew
  have hnodup' := keys_nodup_evictExpired hnodup o now
  have hroom := length_room o bodyHash (d.evictExpired o now)
  have hsublist : ((capVictim o bodyHash (d.evictExpired o now)).elim
      (d.evictExpired o now).entries fun v => (d.evictExpired o now).entries.erase v).Sublist
      (d.evictExpired o now).entries := by
    cases capVictim o bodyHash (d.evictExpired o now) with
    | none => exact List.Sublist.refl _
    | some v => exact List.erase_sublist
  have hmem : ∀ e : Bytes × DetectorEntry,
      e ∈ (d.record o now clientId bodyHash body).detector.entries ↔
        (e ∈ (d.evictExpired o now).entries ∧
          capVictim o bodyHash (d.evictExpired o now) ≠ some e) ∨
        e = (bodyHash, firstEntry o now clientId body) := by
    intro e
    rw [hentries, List.mem_append, mem_room hnodup', List.mem_singleton]
  refine ⟨?_, ?_, ⟨_, (hmem _).mpr (.inr rfl)⟩, ?_, ?_, ?_, ?_, ?_⟩
  · rw [hfirst]
    exact ⟨Bool.noConfusion, fun h => absurd h hnotkey⟩
  · rw [hentries, List.map_append, List.nodup_append']
    refine ⟨hnodup'.sublist (hsublist.map _), List.nodup_singleton _, ?_⟩
    rw [List.map_singleton, List.disjoint_singleton]
    exact fun h => hnotkey ((hsublist.map _).subset h)
  · intro e he hkey
    rcases (hmem e).mp he with ⟨he, -⟩ | rfl
    · exact absurd (List.mem_map.mpr ⟨e, he, hkey⟩) hnotkey
    · rfl
  · intro e hkey
    rw [hmem e, or_iff_left]
    rintro rfl
    exact hkey rfl
  · intro v hv hkey
    exact hnotkey (List.mem_map.mpr ⟨v, capVictim_mem hv, hkey⟩)
  · rw [hfirst, hentries, List.length_append, List.length_singleton, if_neg Bool.noConfusion]
    omega
  · intro hle
    rw [hentries, List.length_append, List.length_singleton]
    cases hvictim : capVictim o bodyHash (d.evictExpired o now) with
    | none => exact length_lt_of_capVictim_eq_none hmax hnew hvictim
    | some v =>
      rw [hvictim, Option.toList_some, List.length_singleton] at hroom
      omega

theorem delivered_of_known (henabled : o.enabled = true)
    (hnodup : (d.entries.map Prod.fst).Nodup) {known : DetectorEntry}
    (hknown : lookup bodyHash (d.evictExpired o now).entries = some known) :
    Delivered o now bodyHash (d.evictExpired o now).entries
      (capVictim o bodyHash (d.evictExpired o now))
      (d.record o now clientId bodyHash body).isDuplicate
      (d.record o now clientId bodyHash body).detector.entries := by
  obtain ⟨hduplicate, -, hentries⟩ :=
    entries_record_of_known henabled hknown clientId body
  have hmem : (bodyHash, known) ∈ (d.evictExpired o now).entries := LinkedMap.mem_of_lookup hknown
  rw [capVictim_of_known hknown, hduplicate, hentries]
  refine ⟨?_, ?_, ?_, ?_, ?_, nofun, ?_, ?_⟩
  · exact iff_of_true rfl (List.mem_map.mpr ⟨_, hmem, rfl⟩)
  · rw [keys_modify]
    exact keys_nodup_evictExpired hnodup o now
  · exact ⟨repeatEntry o now clientId body known,
      LinkedMap.mem_modify.mpr (.inr ⟨known, hmem, rfl⟩)⟩
  · intro e he hkey
    rcases LinkedMap.mem_modify.mp he with ⟨-, hne⟩ | ⟨value, -, rfl⟩
    · exact absurd hkey hne
    · rfl
  · intro e hkey
    constructor
    · intro he
      rcases LinkedMap.mem_modify.mp he with ⟨he, -⟩ | ⟨value, -, rfl⟩
      · exact ⟨he, nofun⟩
      · exact absurd rfl hkey
    · rintro ⟨he, -⟩
      exact LinkedMap.mem_modify.mpr (.inl ⟨he, hkey⟩)
  · exact LinkedMap.length_modify _ _ _
  · intro hle
    exact (LinkedMap.length_modify _ _ _).trans_le hle

/-- **What a delivery does to the bodies.** -/
theorem delivered_record (henabled : o.enabled = true) (hmax : 0 < o.maxEntries)
    (hnodup : (d.entries.map Prod.fst).Nodup) (now : UInt64) (clientId bodyHash body : Bytes) :
    Delivered o now bodyHash (d.evictExpired o now).entries
      (capVictim o bodyHash (d.evictExpired o now))
      (d.record o now clientId bodyHash body).isDuplicate
      (d.record o now clientId bodyHash body).detector.entries := by
  cases hlookup : lookup bodyHash (d.evictExpired o now).entries with
  | none => exact delivered_of_new henabled hmax hnodup hlookup
  | some known => exact delivered_of_known henabled hnodup hlookup

/-- **What is gone behind a delivery** is the body that made room. -/
theorem mem_evicted {call : RecordCall} (henabled : o.enabled = true) (hmax : 0 < o.maxEntries)
    (hnodup : (d.entries.map Prod.fst).Nodup) {e : Bytes × DetectorEntry} :
    e ∈ (logOf o call d).evicted ↔
      capVictim o call.bodyHash (d.evictExpired o call.now) = some e := by
  have hdelivered := delivered_record henabled hmax hnodup call.now call.clientId call.bodyHash
    call.body
  have hnodup' := keys_nodup_evictExpired hnodup o call.now
  rw [logOf, List.mem_filter, decide_eq_true_eq]
  constructor
  · rintro ⟨he, hgone⟩
    by_contra hvictim
    by_cases hkey : e.1 = call.bodyHash
    · obtain ⟨own, hown⟩ := hdelivered.own
      exact hgone (List.mem_map.mpr ⟨_, hown, hkey.symm⟩)
    · exact hgone (List.mem_map.mpr ⟨e, (hdelivered.mem_iff e hkey).mpr ⟨he, hvictim⟩, rfl⟩)
  · intro hvictim
    have hkey := hdelivered.victim_ne e hvictim
    refine ⟨capVictim_mem hvictim, fun hmem => ?_⟩
    obtain ⟨e', he', heq⟩ := List.mem_map.mp hmem
    obtain ⟨htracked, hne⟩ := (hdelivered.mem_iff e' (by rw [heq]; exact hkey)).mp he'
    obtain rfl := List.inj_on_of_nodup_map hnodup' htracked (capVictim_mem hvictim) heq
    exact hne hvictim

/-! ## The counters of the clients -/

theorem length_countClient_le {clients : List (Bytes × ClientCount)}
    (hpos : 0 < o.perClientMaxEntries) (hle : clients.length ≤ o.perClientMaxEntries) :
    (countClient o now clientId clients).1.length ≤ o.perClientMaxEntries := by
  unfold countClient
  split
  · simp only [DuplicateDetector.modify, List.length_map]
    exact hle
  · rw [List.length_append, List.length_singleton]
    split
    · rename_i hfull
      -- One of the counters makes room for the new one.
      rw [evictOldestClient]
      split
      · rename_i victim hvictim
        rw [List.length_erase_of_mem (List.argmin_mem hvictim)]
        have := List.length_pos_of_mem (List.argmin_mem hvictim)
        omega
      · rw [List.length_nil]
        omega
    · rename_i hroom
      have hlt := not_le.mp fun h => hroom ⟨hpos, h⟩
      omega

theorem length_evictExpiredClients_le (o : DetectorOptions) (now : UInt64)
    (clients : List (Bytes × ClientCount)) :
    (evictExpiredClients o now clients).length ≤ clients.length := by
  unfold evictExpiredClients
  split
  · exact le_rfl
  · exact List.length_filter_le _ _

/-- **The clients are no more than their cap.** -/
theorem length_clients_record (henabled : o.enabled = true) (hmax : 0 < o.maxEntries)
    (hpos : 0 < o.perClientMaxEntries)
    (hle : d.perClientCount.length ≤ o.perClientMaxEntries) :
    (d.record o now clientId bodyHash body).detector.perClientCount.length ≤
      o.perClientMaxEntries := by
  have hexpired : (d.evictExpired o now).perClientCount.length ≤ o.perClientMaxEntries :=
    (length_evictExpiredClients_le o now d.perClientCount).trans hle
  cases hlookup : lookup bodyHash (d.evictExpired o now).entries with
  | none =>
    rw [(entries_record_of_new henabled hmax hlookup clientId body).2.1]
    exact hexpired
  | some known =>
    rw [(entries_record_of_known henabled hlookup clientId body).2.1]
    exact length_countClient_le hpos hexpired

/-! ## The reports -/

theorem reported_append (reason : EvictionReason) (reports reports' : List (EvictionReason × ℕ)) :
    reported reason (reports ++ reports') = reported reason reports + reported reason reports' := by
  rw [reported, List.filter_append, List.map_append, List.sum_append]
  rfl

theorem reported_reportEvictions (reason reason' : EvictionReason) (count : ℕ) :
    reported reason (reportEvictions reason' count) = if reason' = reason then count else 0 := by
  unfold reportEvictions
  by_cases hzero : count = 0
  · simp [reported, hzero]
  · by_cases hreason : reason' = reason
    · simp [reported, hzero, hreason]
    · simp [reported, hzero, hreason]

/-- Counters are reported for themselves. -/
theorem reported_clientCapReports (reason : EvictionReason) (hreason : reason ≠ .clientCap) :
    reported reason (clientCapReports o clientId bodyHash d) = 0 := by
  unfold clientCapReports
  split
  · split
    · rw [reported_reportEvictions, if_neg hreason.symm]
    · rfl
  · rfl

theorem reported_expiryReports (reason : EvictionReason) (hreason : reason ≠ .clientTtl) :
    reported reason (expiryReports o now d) =
      if .bodyTtl = reason then d.entries.countP fun e => o.ttlMs < now - e.2.lastSeenMs
      else 0 := by
  rw [expiryReports, reported_append, reported_reportEvictions]
  have hclients : reported reason (if o.perClientTtlMs = 0 then []
      else reportEvictions .clientTtl
        (d.perClientCount.countP fun c => o.perClientTtlMs < now - c.2.lastSeenMs)) = 0 := by
    split
    · rfl
    · rw [reported_reportEvictions, if_neg hreason.symm]
  rw [hclients, Nat.add_zero]

/-- **The bodies that a call reports**: those that have expired, and the one that made room. -/
theorem reported_recordReports (henabled : o.enabled = true) (now : UInt64)
    (clientId bodyHash : Bytes) (d : DuplicateDetector) :
    reported .bodyTtl (recordReports o now clientId bodyHash d) =
        (d.entries.countP fun e => o.ttlMs < now - e.2.lastSeenMs) ∧
      reported .bodyCap (recordReports o now clientId bodyHash d) =
        (capVictim o bodyHash (d.evictExpired o now)).toList.length := by
  unfold recordReports
  rw [if_neg (Bool.ne_false_iff.mpr henabled)]
  constructor
  · rw [reported_append, reported_append, reported_reportEvictions,
      reported_clientCapReports _ EvictionReason.noConfusion,
      reported_expiryReports _ EvictionReason.noConfusion, if_pos rfl,
      if_neg EvictionReason.noConfusion, Nat.add_zero]
  · rw [reported_append, reported_append, reported_reportEvictions,
      reported_clientCapReports _ EvictionReason.noConfusion,
      reported_expiryReports _ EvictionReason.noConfusion, if_pos rfl,
      if_neg EvictionReason.noConfusion, Nat.zero_add, Nat.add_zero]

/-! ## The invariant -/

/-- A call was answered as it should be, in view of the calls before it: a duplicate is a body
that is tracked, which is one that was recorded, was never idle for longer than the TTL and
was not evicted since.  What was evicted has the smallest count, and is the oldest among ties. -/
structure AnsweredRight (o : DetectorOptions) (l : RecordLog) (before : List RecordLog) : Prop where
  tracked : l.isDuplicate = true ↔ l.bodyHash ∈ l.tracked.map Prod.fst
  recorded : l.isDuplicate = true ↔
    ∃ t, liveSince l.bodyHash before = some t ∧ l.now.toNat ≤ t.toNat + o.ttlMs.toNat
  minimal : ∀ v ∈ l.evicted, v ∈ l.tracked ∧ ∀ e ∈ l.tracked,
    v.2.count < e.2.count ∨ (v.2.count = e.2.count ∧ v.2.firstSeenMs ≤ e.2.firstSeenMs)

/-- All calls were. -/
def LogRight (o : DetectorOptions) : List RecordLog → Prop
  | [] => True
  | l :: before => AnsweredRight o l before ∧ LogRight o before

/-- The bounds, the balance, and what the log knows of the bodies that are tracked. -/
structure BookInv (o : DetectorOptions) (s : BookState) : Prop where
  nodup : (s.detector.entries.map Prod.fst).Nodup
  entries_le : s.detector.entries.length ≤ o.maxEntries
  clients_le : 0 < o.perClientMaxEntries →
    s.detector.perClientCount.length ≤ o.perClientMaxEntries
  seen : ∀ e ∈ s.detector.entries, e.2.lastSeenMs ≤ s.last
  live : ∀ e ∈ s.detector.entries, liveSince e.1 s.log = some e.2.lastSeenMs
  tracked : ∀ key t, liveSince key s.log = some t →
    (∃ e, (key, e) ∈ s.detector.entries ∧ e.lastSeenMs = t) ∨
      t.toNat + o.ttlMs.toNat < s.last.toNat
  balance : (s.log.countP fun l => l.isDuplicate = false) =
    s.detector.entries.length + reported .bodyTtl s.reports + reported .bodyCap s.reports
  log : LogRight o s.log

theorem bookInv_initial (o : DetectorOptions) : BookInv o initialBooks where
  nodup := List.nodup_nil
  entries_le := Nat.zero_le _
  clients_le := fun _ => Nat.zero_le _
  seen := nofun
  live := nofun
  tracked := nofun
  balance := rfl
  log := trivial

/-- A call that is made. -/
theorem bookStep_eq_some {s s' : BookState} {call : RecordCall} (h : bookStep o s call = some s') :
    o.enabled = true ∧ s.last ≤ call.now ∧
      s' =
        { detector := (s.detector.record o call.now call.clientId call.bodyHash call.body).detector
          last := call.now
          log := logOf o call s.detector :: s.log
          reports :=
            recordReports o call.now call.clientId call.bodyHash s.detector ++ s.reports } := by
  unfold bookStep at h
  split at h
  · rename_i hcall
    exact ⟨hcall.1, hcall.2, (Option.some.inj h).symm⟩
  · cases h

/-- The bodies behind the expiry are the ones of which the last delivery is recent. -/
theorem BookInv.mem_tracked_iff {s : BookState} {call : RecordCall} (h : BookInv o s)
    (hnow : s.last ≤ call.now) :
    key ∈ (s.detector.evictExpired o call.now).entries.map Prod.fst ↔
      ∃ t, liveSince key s.log = some t ∧ call.now.toNat ≤ t.toNat + o.ttlMs.toNat := by
  have hseen : ∀ e ∈ s.detector.entries, e.2.lastSeenMs ≤ call.now :=
    fun e he => UInt64.le_trans (h.seen e he) hnow
  rw [List.mem_map]
  constructor
  · rintro ⟨e, he, rfl⟩
    obtain ⟨he, hlive⟩ := (mem_evictExpired hseen).mp he
    exact ⟨e.2.lastSeenMs, h.live e he, hlive⟩
  · rintro ⟨t, ht, hlive⟩
    rcases h.tracked key t ht with ⟨e, he, rfl⟩ | hidle
    · exact ⟨(key, e), (mem_evictExpired hseen).mpr ⟨he, hlive⟩, rfl⟩
    · have hle := UInt64.le_iff_toNat_le.mp hnow
      omega

/-- The call is answered as it should be. -/
theorem BookInv.answeredRight {s : BookState} {call : RecordCall} (h : BookInv o s)
    (henabled : o.enabled = true) (hmax : 0 < o.maxEntries) (hnow : s.last ≤ call.now) :
    AnsweredRight o (logOf o call s.detector) s.log where
  tracked := (delivered_record henabled hmax h.nodup _ _ _ _).isDuplicate_iff
  recorded := (delivered_record henabled hmax h.nodup _ _ _ _).isDuplicate_iff.trans
    (h.mem_tracked_iff hnow)
  minimal := by
    intro v hv
    rw [mem_evicted henabled hmax h.nodup] at hv
    exact ⟨capVictim_mem hv, fun e he => capVictim_minimal hv he⟩

/-- Another body than that of the call. -/
theorem liveSince_logOf_of_ne {call : RecordCall} {log : List RecordLog}
    (hkey : key ≠ call.bodyHash) :
    liveSince key (logOf o call d :: log) =
      if key ∈ (logOf o call d).evicted.map Prod.fst then none else liveSince key log :=
  if_neg hkey.symm

theorem liveSince_logOf_self {call : RecordCall} {log : List RecordLog} :
    liveSince call.bodyHash (logOf o call d :: log) = some call.now :=
  if_pos rfl

/-- The log knows when a body that is tracked was delivered. -/
theorem BookInv.live_record {s : BookState} {call : RecordCall} (h : BookInv o s)
    (henabled : o.enabled = true) (hmax : 0 < o.maxEntries) {e : Bytes × DetectorEntry}
    (he : e ∈ (s.detector.record o call.now call.clientId call.bodyHash
      call.body).detector.entries) :
    liveSince e.1 (logOf o call s.detector :: s.log) = some e.2.lastSeenMs := by
  have hdelivered := delivered_record henabled hmax h.nodup call.now call.clientId call.bodyHash
    call.body
  by_cases hkey : e.1 = call.bodyHash
  · rw [hkey, hdelivered.seen e he hkey]
    exact liveSince_logOf_self
  · obtain ⟨htracked, -⟩ := (hdelivered.mem_iff e hkey).mp he
    -- The body is there behind the call, so it is not one that the call has evicted.
    have hkept : e.1 ∉ (logOf o call s.detector).evicted.map Prod.fst := by
      intro hgone
      obtain ⟨e', he', heq⟩ := List.mem_map.mp hgone
      refine of_decide_eq_true (List.mem_filter.mp he').2 ?_
      rw [heq]
      exact List.mem_map.mpr ⟨e, he, rfl⟩
    rw [liveSince_logOf_of_ne hkey, if_neg hkept]
    exact h.live e (evictExpired_subset htracked)

/-- And a body that the log knows is tracked, or has expired. -/
theorem BookInv.tracked_record {s : BookState} {call : RecordCall} {t : UInt64}
    (h : BookInv o s) (henabled : o.enabled = true) (hmax : 0 < o.maxEntries)
    (hnow : s.last ≤ call.now)
    (ht : liveSince key (logOf o call s.detector :: s.log) = some t) :
    (∃ e, (key, e) ∈ (s.detector.record o call.now call.clientId call.bodyHash
        call.body).detector.entries ∧ e.lastSeenMs = t) ∨
      t.toNat + o.ttlMs.toNat < call.now.toNat := by
  have hdelivered := delivered_record henabled hmax h.nodup call.now call.clientId call.bodyHash
    call.body
  have hseen : ∀ e ∈ s.detector.entries, e.2.lastSeenMs ≤ call.now :=
    fun e he => UInt64.le_trans (h.seen e he) hnow
  by_cases hkey : key = call.bodyHash
  · subst hkey
    obtain rfl : call.now = t := Option.some.inj (liveSince_logOf_self.symm.trans ht)
    obtain ⟨e, he⟩ := hdelivered.own
    exact .inl ⟨e, he, hdelivered.seen _ he rfl⟩
  · rw [liveSince_logOf_of_ne hkey] at ht
    have hkept : key ∉ (logOf o call s.detector).evicted.map Prod.fst := by
      intro hgone
      rw [if_pos hgone] at ht
      cases ht
    rw [if_neg hkept] at ht
    rcases h.tracked key t ht with ⟨e, he, rfl⟩ | hidle
    · by_cases hlive : call.now.toNat ≤ e.lastSeenMs.toNat + o.ttlMs.toNat
      · refine .inl ⟨e, (hdelivered.mem_iff _ hkey).mpr ⟨?_, fun hvictim => hkept ?_⟩, rfl⟩
        · exact (mem_evictExpired hseen).mpr ⟨he, hlive⟩
        · exact List.mem_map.mpr ⟨_, (mem_evicted henabled hmax h.nodup).mpr hvictim, rfl⟩
      · exact .inr (not_le.mp hlive)
    · exact .inr (hidle.trans_le (UInt64.le_iff_toNat_le.mp hnow))

/-- The books balance behind a call. -/
theorem BookInv.balance_record {s : BookState} {call : RecordCall} (h : BookInv o s)
    (henabled : o.enabled = true) (hmax : 0 < o.maxEntries) :
    ((logOf o call s.detector :: s.log).countP fun l => l.isDuplicate = false) =
      (s.detector.record o call.now call.clientId call.bodyHash
          call.body).detector.entries.length +
        reported .bodyTtl
          (recordReports o call.now call.clientId call.bodyHash s.detector ++ s.reports) +
        reported .bodyCap
          (recordReports o call.now call.clientId call.bodyHash s.detector ++ s.reports) := by
  have hlength := (delivered_record henabled hmax h.nodup call.now call.clientId call.bodyHash
    call.body).length
  have hexpired := length_evictExpired o call.now s.detector
  obtain ⟨httl, hcap⟩ := reported_recordReports henabled call.now call.clientId call.bodyHash
    s.detector
  have hbalance := h.balance
  rw [List.countP_cons, reported_append, reported_append, httl, hcap]
  show _ + (if decide ((s.detector.record o call.now call.clientId call.bodyHash
    call.body).isDuplicate = false) = true then 1 else 0) = _
  cases hduplicate : (s.detector.record o call.now call.clientId call.bodyHash
      call.body).isDuplicate with
  | true =>
    rw [hduplicate, if_pos rfl] at hlength
    rw [if_neg (of_decide_eq_false rfl)]
    omega
  | false =>
    rw [hduplicate, if_neg Bool.noConfusion] at hlength
    rw [if_pos (decide_eq_true rfl)]
    omega

/-- **One call** keeps the books. -/
theorem BookInv.step {s s' : BookState} {call : RecordCall} (h : BookInv o s)
    (hmax : 0 < o.maxEntries) (hstep : bookStep o s call = some s') : BookInv o s' := by
  obtain ⟨henabled, hnow, rfl⟩ := bookStep_eq_some hstep
  have hdelivered := delivered_record henabled hmax h.nodup call.now call.clientId call.bodyHash
    call.body
  have hlength : (s.detector.evictExpired o call.now).entries.length ≤ o.maxEntries := by
    have := length_evictExpired o call.now s.detector
    have := h.entries_le
    omega
  constructor
  case nodup => exact hdelivered.nodup
  case entries_le => exact hdelivered.length_le hlength
  case clients_le =>
    intro hpos
    exact length_clients_record henabled hmax hpos (h.clients_le hpos)
  case seen =>
    intro e he
    by_cases hkey : e.1 = call.bodyHash
    · rw [hdelivered.seen e he hkey]
      exact UInt64.le_refl _
    · have hold := evictExpired_subset ((hdelivered.mem_iff e hkey).mp he).1
      exact UInt64.le_trans (h.seen e hold) hnow
  case live => exact fun e he => h.live_record henabled hmax he
  case tracked => exact fun k t ht => h.tracked_record henabled hmax hnow ht
  case balance => exact h.balance_record henabled hmax
  case log => exact ⟨h.answeredRight henabled hmax hnow, h.log⟩

/-! ## The books -/

/-- The books: what is tracked is within the caps, every first delivery is tracked or was
reported, all calls were answered as they should be, and the report is right. -/
structure BooksBalance (o : DetectorOptions) (sorting : Sorting) (topN : ℕ) (s : BookState) :
    Prop where
  entries_le : s.detector.entries.length ≤ o.maxEntries
  clients_le : 0 < o.perClientMaxEntries →
    s.detector.perClientCount.length ≤ o.perClientMaxEntries
  balance : (s.log.countP fun l => l.isDuplicate = false) =
    s.detector.entries.length + reported .bodyTtl s.reports + reported .bodyCap s.reports
  log : LogRight o s.log
  report : ReportRight o sorting topN s.detector

/-- **The books of the detector**, over all runs in which the readings come in order. -/
theorem books_balanced (o : ValidatedOptions) (sorting : Sorting) (topN : ℕ)
    (calls : List RecordCall) :
    Always (bookStep o.toDetectorOptions) (BooksBalance o.toDetectorOptions sorting topN)
      initialBooks calls := by
  refine always_of_step (P := BookInv o.toDetectorOptions)
    (fun s call s' h hstep => h.step o.maxEntries_pos hstep) (fun s h => ?_)
    (bookInv_initial _) calls
  exact ⟨h.entries_le, h.clients_le, h.balance, h.log, reportRight _ sorting topN s.detector⟩

end Proxy
end HttpDataDiod
