import HttpDataDiod.Sql.PostgresPool

/-!
# Every connection goes back to the pool

The threads keep a contract: whoever holds a slot is alone in changing it, acts on its own
connection only, and has given the slot back when its call returns.  The outlines of the
programs follow their branches, among them the failures of the connect and the early
returns of `execute_query` and `ping`.

* `PoolInv`: the slots add up, and no connection is in two places.
* `pooling`: the contract.
* `outline_body`: every call ends with what it began with.
* `pool_sound`: the pool in every state of every run.
-/

namespace HttpDataDiod
namespace Sql

open Interleaving Transition LinkedMap PostgresPool

variable {T : Type} [DecidableEq T]

/-! ## The contract -/

/-- The connection that an action is about. -/
def PgAction.conn : PgAction → Option PGconn
  | status c => some c
  | checkOut c => some c
  | finish c => some c
  | pushIdle c => some c
  | setStatementTimeout c => some c
  | execParams c => some c
  | selectOne c => some c
  | _ => none

/-- The connections of some leases. -/
def leasedConns (leases : List (T × Lease)) : List PGconn := leases.filterMap fun e => e.2.conn

/-- The slots add up, and no connection is in two places. -/
structure PoolInv (poolMax : ℕ) (s : PostgresPool T) : Prop where
  nodup : (s.leases.map Prod.fst).Nodup
  total : s.total = s.idle.length + s.leases.length
  bounded : s.total ≤ poolMax
  saturated : s.saturated = false
  conns_nodup : (s.idle ++ leasedConns s.leases).Nodup
  conns_live : ∀ c ∈ s.idle ++ leasedConns s.leases, c ∈ s.live
  counts : ∀ t, s.released t ≤ s.acquired t ∧ s.acquired t ≤ 1

/-- The lease of a thread and the counts of its call. -/
structure Standing (t : T) (l : Option Lease) (acquired released : ℕ) (s : PostgresPool T) :
    Prop where
  lease : lookup s.leases t = l
  acquired : s.acquired t = acquired
  released : s.released t = released

/-- The others leave a thread's lease and counts alone. -/
structure LeavesAlone (t : T) (s s' : PostgresPool T) : Prop where
  lease : lookup s'.leases t = lookup s.leases t
  acquired : s'.acquired t = s.acquired t
  released : s'.released t = s.released t

/-- **What the threads keep.**  A thread acts only on a connection of its own, and between
two calls it has no slot and has released what it acquired. -/
def pooling (T : Type) [DecidableEq T] (poolMax : ℕ) :
    Contract T PgAction (PostgresPool T) Empty where
  inv := PoolInv poolMax
  rely := LeavesAlone
  check t a s := ∀ c ∈ a.conn, (lookup s.leases t).bind Lease.conn = some c
  idle t s := lookup s.leases t = none ∧ s.released t = s.acquired t
  condition _ _ _ _ := True
  envCondition _ _ := True

namespace Pooling

variable {poolMax : ℕ} {t u : T} {s s' : PostgresPool T} {l : Lease} {c : PGconn}

theorem stable_standing (l : Option Lease) (acquired released : ℕ) :
    (pooling T poolMax).Stable t (Standing t l acquired released) :=
  fun _ _ hs hrely =>
    ⟨hrely.lease.trans hs.lease, hrely.acquired.trans hs.acquired,
      hrely.released.trans hs.released⟩

theorem lookup_cons_of_ne (h : u ≠ t) (leases : List (T × Lease)) :
    lookup ((t, l) :: leases) u = lookup leases u := by
  rw [lookup_cons, if_neg h.symm]

theorem leavesAlone_refl (u : T) (s : PostgresPool T) : LeavesAlone u s s := ⟨rfl, rfl, rfl⟩

theorem leavesAlone_takeIdleOrReserve (h : u ≠ t) (s : PostgresPool T) :
    LeavesAlone u s (s.takeIdleOrReserve poolMax t).2 := by
  unfold PostgresPool.takeIdleOrReserve
  split
  · exact ⟨lookup_cons_of_ne h _, Function.update_of_ne h _ _, rfl⟩
  · split
    · exact leavesAlone_refl u s
    · exact ⟨lookup_cons_of_ne h _, rfl, rfl⟩

/-- **An action is about its own thread's slot.** -/
theorem leavesAlone_perform {a : PgAction} {choice : PgChoice} {r : a.Result} (h : u ≠ t)
    (hperform : performPg poolMax t a choice s = some (r, s')) : LeavesAlone u s s' := by
  have hmodify : ∀ f, lookup (modify s.leases t f) u = lookup s.leases u := fun f => by
    rw [lookup_modify, if_neg h]
  have herase : lookup (eraseKey s.leases t) u = lookup s.leases u := by
    rw [lookup_eraseKey, if_neg h]
  cases a with
  | takeIdleOrReserve =>
    obtain ⟨-, rfl⟩ := Prod.mk.inj (Option.some.inj hperform)
    exact leavesAlone_takeIdleOrReserve h s
  | createConn =>
    simp only [performPg] at hperform
    split at hperform
    · obtain ⟨-, rfl⟩ := Prod.mk.inj (Option.some.inj hperform)
      exact ⟨hmodify fun _ => .failed, rfl, rfl⟩
    · rename_i c _
      split at hperform
      · cases hperform
      · obtain ⟨-, rfl⟩ := Prod.mk.inj (Option.some.inj hperform)
        exact ⟨hmodify fun _ => .connected c, rfl, rfl⟩
  | checkOut c =>
    obtain ⟨-, rfl⟩ := Prod.mk.inj (Option.some.inj hperform)
    exact ⟨hmodify fun _ => .checkedOut c, Function.update_of_ne h _ _, rfl⟩
  | finish c =>
    obtain ⟨-, rfl⟩ := Prod.mk.inj (Option.some.inj hperform)
    exact ⟨hmodify _, rfl, rfl⟩
  | cancelSlot =>
    obtain ⟨-, rfl⟩ := Prod.mk.inj (Option.some.inj hperform)
    exact ⟨herase, rfl, rfl⟩
  | discardConn =>
    obtain ⟨-, rfl⟩ := Prod.mk.inj (Option.some.inj hperform)
    exact ⟨herase, rfl, Function.update_of_ne h _ _⟩
  | pushIdle c =>
    obtain ⟨-, rfl⟩ := Prod.mk.inj (Option.some.inj hperform)
    exact ⟨herase, rfl, Function.update_of_ne h _ _⟩
  | status c | setStatementTimeout c | execParams c | selectOne c =>
    obtain ⟨-, rfl⟩ := Prod.mk.inj (Option.some.inj hperform)
    exact leavesAlone_refl u s

/-! ### The slots -/

omit [DecidableEq T] in
theorem leasedConns_cons (e : T × Lease) (leases : List (T × Lease)) :
    leasedConns (e :: leases) = e.2.conn.toList ++ leasedConns leases := by
  unfold leasedConns
  rw [List.filterMap_cons]
  cases e.2.conn with
  | none => rfl
  | some c => rfl

omit [DecidableEq T] in
/-- The connections of a pool: that of one slot, and the others. -/
theorem perm_conns {leases rest : List (T × Lease)} (idle : List PGconn)
    (h : leases.Perm ((t, l) :: rest)) :
    (idle ++ leasedConns leases).Perm (l.conn.toList ++ (idle ++ leasedConns rest)) := by
  have hleased : (leasedConns leases).Perm (l.conn.toList ++ leasedConns rest) := by
    rw [← leasedConns_cons (t, l) rest]
    exact h.filterMap _
  refine (hleased.append_left idle).trans ?_
  rw [← List.append_assoc, ← List.append_assoc]
  exact List.perm_append_comm.append_right _

/-- The counts, with those of one call changed. -/
theorem counts_update (hinv : PoolInv poolMax s) (t : T) {acquired released : ℕ}
    (h : released ≤ acquired ∧ acquired ≤ 1) (u : T) :
    Function.update s.released t released u ≤ Function.update s.acquired t acquired u ∧
      Function.update s.acquired t acquired u ≤ 1 := by
  by_cases hu : u = t
  · subst hu
    rw [Function.update_self, Function.update_self]
    exact h
  · rw [Function.update_of_ne hu, Function.update_of_ne hu]
    exact hinv.counts u

/-- A call acquires its connection. -/
theorem counts_acquired (hinv : PoolInv poolMax s) (hacquired : s.acquired t = 0)
    (hreleased : s.released t = 0) (u : T) :
    s.released u ≤ Function.update s.acquired t (s.acquired t + 1) u ∧
      Function.update s.acquired t (s.acquired t + 1) u ≤ 1 := by
  have hle : s.released t ≤ s.acquired t + 1 ∧ s.acquired t + 1 ≤ 1 := by omega
  have hcounts := counts_update hinv t hle u
  rw [Function.update_eq_self] at hcounts
  exact hcounts

/-- A thread takes an idle connection, reserves a slot, or finds the pool exhausted. -/
theorem inv_takeIdleOrReserve (hinv : PoolInv poolMax s) (hs : Standing t none 0 0 s) :
    PoolInv poolMax (s.takeIdleOrReserve poolMax t).2 := by
  have hnodup : ∀ l, (((t, l) :: s.leases).map Prod.fst).Nodup := fun l =>
    List.nodup_cons.mpr ⟨lookup_eq_none_iff.mp hs.lease, hinv.nodup⟩
  have htotal := hinv.total
  unfold PostgresPool.takeIdleOrReserve
  split
  · rename_i c hc
    obtain ⟨front, hidle⟩ := List.getLast?_eq_some_iff.mp hc
    rw [hidle, List.dropLast_concat]
    rw [hidle, List.length_append, List.length_singleton] at htotal
    -- The connection moves from the idle ones to the slot.
    have hconns : (front ++ leasedConns ((t, Lease.checkedOut c) :: s.leases)) =
        s.idle ++ leasedConns s.leases := by
      rw [hidle, leasedConns_cons, List.append_assoc]
      rfl
    refine ⟨hnodup _, ?_, hinv.bounded, hinv.saturated, ?_, ?_,
      counts_acquired hinv hs.acquired hs.released⟩
    · simp only [List.length_cons]
      omega
    · exact hconns ▸ hinv.conns_nodup
    · exact hconns ▸ hinv.conns_live
  · split
    · exact hinv
    · rename_i hroom
      refine ⟨hnodup _, ?_, not_le.mp hroom, hinv.saturated, hinv.conns_nodup, hinv.conns_live,
        hinv.counts⟩
      simp only [List.length_cons]
      omega

/-- The slot of a thread changes its lease. -/
theorem inv_modify (hinv : PoolInv poolMax s) (hlease : lookup s.leases t = some l)
    (f : Lease → Lease) {live : List PGconn} {acquired : T → ℕ}
    (hnodup : ((f l).conn.toList ++ (s.idle ++ leasedConns (eraseKey s.leases t))).Nodup)
    (hlive : ∀ c ∈ (f l).conn.toList ++ (s.idle ++ leasedConns (eraseKey s.leases t)), c ∈ live)
    (hcounts : ∀ u, s.released u ≤ acquired u ∧ acquired u ≤ 1) :
    PoolInv poolMax { s with
      leases := modify s.leases t f
      live := live
      acquired := acquired } := by
  have hperm := perm_conns s.idle (modify_perm hinv.nodup hlease f)
  refine ⟨?_, ?_, hinv.bounded, hinv.saturated, hperm.nodup_iff.mpr hnodup, ?_, hcounts⟩
  · rw [keys_modify]
    exact hinv.nodup
  · rw [length_modify]
    exact hinv.total
  · exact fun c hc => hlive c (hperm.mem_iff.mp hc)

/-- The connections that are not the thread's. -/
theorem conns_of_lease (hinv : PoolInv poolMax s) (hlease : lookup s.leases t = some l) :
    (l.conn.toList ++ (s.idle ++ leasedConns (eraseKey s.leases t))).Nodup ∧
      ∀ c ∈ l.conn.toList ++ (s.idle ++ leasedConns (eraseKey s.leases t)), c ∈ s.live := by
  have hperm := perm_conns s.idle (perm_cons_eraseKey hinv.nodup hlease)
  exact ⟨hperm.nodup_iff.mp hinv.conns_nodup, fun c hc => hinv.conns_live c (hperm.mem_iff.mpr hc)⟩

/-- A slot is given back: there is one to be counted down. -/
theorem inv_giveSlotBack (hinv : PoolInv poolMax s) (hlease : lookup s.leases t = some l) :
    PoolInv poolMax (s.giveSlotBack t) := by
  obtain ⟨hnodup, hlive⟩ := conns_of_lease hinv hlease
  have hlength := length_eraseKey hinv.nodup
    (isSome_lookup_iff.mp (by rw [hlease]; rfl) : t ∈ s.leases.map Prod.fst)
  have htotal := hinv.total
  have hbounded := hinv.bounded
  have hpos : 0 < s.total := by omega
  refine ⟨nodup_eraseKey hinv.nodup t, ?_, ?_, ?_, ?_, ?_, hinv.counts⟩
  · simp only [giveSlotBack]
    rw [if_pos hpos]
    omega
  · simp only [giveSlotBack]
    rw [if_pos hpos]
    omega
  · simp only [giveSlotBack]
    rw [hinv.saturated, decide_eq_false (by omega)]
    rfl
  · exact (List.nodup_append'.mp hnodup).2.1
  · exact fun c hc => hlive c (List.mem_append_right _ hc)

/-- A connection goes back to the idle ones. -/
theorem inv_pushIdle (hinv : PoolInv poolMax s)
    (hlease : lookup s.leases t = some (.checkedOut c)) :
    PoolInv poolMax { s with idle := s.idle ++ [c], leases := eraseKey s.leases t } := by
  obtain ⟨hnodup, hlive⟩ := conns_of_lease hinv hlease
  have hlength := length_eraseKey hinv.nodup
    (isSome_lookup_iff.mp (by rw [hlease]; rfl) : t ∈ s.leases.map Prod.fst)
  have htotal := hinv.total
  have hperm : (s.idle ++ [c] ++ leasedConns (eraseKey s.leases t)).Perm
      (c :: (s.idle ++ leasedConns (eraseKey s.leases t))) := by
    rw [List.append_assoc]
    exact List.perm_middle
  refine ⟨nodup_eraseKey hinv.nodup t, ?_, hinv.bounded, hinv.saturated,
    hperm.nodup_iff.mpr hnodup, fun p hp => hlive p (hperm.mem_iff.mp hp), hinv.counts⟩
  simp only [List.length_append, List.length_singleton]
  omega

/-! ### The actions -/

/-- The rule of an action, of which the frame is known. -/
theorem rule {P : PostgresPool T → Prop} {a : PgAction} {Q : a.Result → PostgresPool T → Prop}
    (hcheck : ∀ s, P s → ∀ c ∈ a.conn, (lookup s.leases t).bind Lease.conn = some c)
    (hstable : ∀ r, (pooling T poolMax).Stable t (Q r))
    (hkeeps : ∀ s choice r s', PoolInv poolMax s → P s →
      performPg poolMax t a choice s = some (r, s') → PoolInv poolMax s' ∧ Q r s') :
    ActionRule (poolSystem T poolMax) (pooling T poolMax) t P a Q where
  check s _ hs := hcheck s hs
  stable := hstable
  keeps heads s choice r s' hinv hs _ _ hperform := by
    obtain ⟨hinv', hQ⟩ := hkeeps s choice r s' hinv hs hperform
    exact ⟨hinv', fun u hu => leavesAlone_perform hu hperform, hQ⟩

/-- Where the critical section of `try_acquire_conn` leads. -/
def afterTake (t : T) : Acquired → PostgresPool T → Prop
  | .idle c => Standing t (some (.checkedOut c)) 1 0
  | .exhausted => Standing t none 0 0
  | .reserved => Standing t (some .connecting) 0 0

theorem rule_take :
    ActionRule (poolSystem T poolMax) (pooling T poolMax) t (Standing t none 0 0)
      .takeIdleOrReserve (afterTake t) := by
  refine rule (fun s _ c hc => nomatch hc) (fun r => ?_) fun s choice r s' hinv hs hperform => ?_
  · cases r with
    | idle c => exact stable_standing _ _ _
    | exhausted => exact stable_standing _ _ _
    | reserved => exact stable_standing _ _ _
  · have hinv' := inv_takeIdleOrReserve hinv hs
    have htaken : s.takeIdleOrReserve poolMax t = (r, s') := Option.some.inj hperform
    rw [htaken] at hinv'
    refine ⟨hinv', ?_⟩
    unfold PostgresPool.takeIdleOrReserve at htaken
    split at htaken
    · obtain ⟨rfl, rfl⟩ := Prod.mk.inj htaken
      refine ⟨?_, ?_, hs.released⟩
      · rw [lookup_cons, if_pos rfl]
      · show Function.update s.acquired t (s.acquired t + 1) t = 1
        rw [Function.update_self, hs.acquired]
    · split at htaken
      · obtain ⟨rfl, rfl⟩ := Prod.mk.inj htaken
        exact hs
      · obtain ⟨rfl, rfl⟩ := Prod.mk.inj htaken
        refine ⟨?_, hs.acquired, hs.released⟩
        rw [lookup_cons, if_pos rfl]

/-- Where the connect leads. -/
def afterConnect (t : T) : Option PGconn → PostgresPool T → Prop
  | none => Standing t (some .failed) 0 0
  | some c => Standing t (some (.connected c)) 0 0

theorem rule_createConn :
    ActionRule (poolSystem T poolMax) (pooling T poolMax) t (Standing t (some .connecting) 0 0)
      .createConn (afterConnect t) := by
  refine rule (fun s _ c hc => nomatch hc) (fun r => ?_) fun s choice r s' hinv hs hperform => ?_
  · cases r with
    | none => exact stable_standing _ _ _
    | some c => exact stable_standing _ _ _
  · obtain ⟨hnodup, hlive⟩ := conns_of_lease hinv hs.lease
    simp only [performPg] at hperform
    split at hperform
    · obtain ⟨rfl, rfl⟩ := Prod.mk.inj (Option.some.inj hperform)
      refine ⟨inv_modify hinv hs.lease (fun _ => .failed) hnodup hlive hinv.counts, ?_,
        hs.acquired, hs.released⟩
      show lookup (modify s.leases t fun _ => Lease.failed) t = _
      rw [lookup_modify, if_pos rfl, hs.lease]
      rfl
    · split at hperform
      · cases hperform
      · rename_i c _ hfresh
        obtain ⟨rfl, rfl⟩ := Prod.mk.inj (Option.some.inj hperform)
        refine ⟨inv_modify hinv hs.lease (fun _ => .connected c) ?_ ?_ hinv.counts, ?_,
          hs.acquired, hs.released⟩
        · exact List.nodup_cons.mpr ⟨fun hmem => hfresh (hlive c hmem), hnodup⟩
        · intro p hp
          rcases List.mem_cons.mp hp with rfl | hp
          · exact List.mem_cons_self
          · exact List.mem_cons_of_mem _ (hlive p hp)
        · show lookup (modify s.leases t fun _ => Lease.connected c) t = _
          rw [lookup_modify, if_pos rfl, hs.lease]
          rfl

/-- The calls of libpq that change nothing of the pool. -/
def isQuiet : PgAction → Bool
  | .status _ => true
  | .setStatementTimeout _ => true
  | .execParams _ => true
  | .selectOne _ => true
  | _ => false

/-- Such a call, on the thread's own connection. -/
theorem rule_quiet {a : PgAction} {acquired released : ℕ} (hquiet : isQuiet a = true)
    (hconn : a.conn = l.conn) :
    ActionRule (poolSystem T poolMax) (pooling T poolMax) t (Standing t (some l) acquired released)
      a fun _ => Standing t (some l) acquired released := by
  refine rule (fun s hs c hc => ?_) (fun _ => stable_standing _ _ _)
    fun s choice r s' hinv hs hperform => ?_
  · rw [hs.lease, Option.bind_some, ← hconn]
    exact hc
  · obtain rfl : s' = s := by
      cases a with
      | status c | setStatementTimeout c | execParams c | selectOne c =>
        exact (Prod.mk.inj (Option.some.inj hperform)).2.symm
      | _ => cases hquiet
    exact ⟨hinv, hs⟩

theorem rule_checkOut :
    ActionRule (poolSystem T poolMax) (pooling T poolMax) t
      (Standing t (some (.connected c)) 0 0) (.checkOut c)
      fun _ => Standing t (some (.checkedOut c)) 1 0 := by
  refine rule (fun s hs p hp => ?_) (fun _ => stable_standing _ _ _)
    fun s choice r s' hinv hs hperform => ?_
  · rw [hs.lease]
    exact hp
  · obtain ⟨hnodup, hlive⟩ := conns_of_lease hinv hs.lease
    obtain ⟨-, rfl⟩ := Prod.mk.inj (Option.some.inj hperform)
    refine ⟨inv_modify hinv hs.lease (fun _ => .checkedOut c) hnodup hlive
      (counts_acquired hinv hs.acquired hs.released), ?_, ?_, hs.released⟩
    · show lookup (modify s.leases t fun _ => Lease.checkedOut c) t = _
      rw [lookup_modify, if_pos rfl, hs.lease]
      rfl
    · show Function.update s.acquired t (s.acquired t + 1) t = 1
      rw [Function.update_self, hs.acquired]

/-- `PQfinish` of the thread's own connection. -/
theorem rule_finish {acquired released : ℕ} (hconn : l.conn = some c) :
    ActionRule (poolSystem T poolMax) (pooling T poolMax) t (Standing t (some l) acquired released)
      (.finish c) fun _ => Standing t (some l.finish) acquired released := by
  refine rule (fun s hs p hp => ?_) (fun _ => stable_standing _ _ _)
    fun s choice r s' hinv hs hperform => ?_
  · rw [hs.lease, Option.bind_some, hconn]
    exact hp
  · obtain ⟨hnodup, hlive⟩ := conns_of_lease hinv hs.lease
    rw [hconn] at hnodup hlive
    obtain ⟨-, rfl⟩ := Prod.mk.inj (Option.some.inj hperform)
    have hnone : l.finish.conn = none := by
      cases l <;> rfl
    refine ⟨inv_modify hinv hs.lease Lease.finish ?_ ?_ hinv.counts, ?_, hs.acquired, hs.released⟩
    · rw [hnone]
      exact (List.nodup_cons.mp hnodup).2
    · rw [hnone]
      intro p hp
      refine List.mem_filter.mpr ⟨hlive p (List.mem_cons_of_mem _ hp), decide_eq_true ?_⟩
      rintro rfl
      exact (List.nodup_cons.mp hnodup).1 hp
    · show lookup (modify s.leases t Lease.finish) t = _
      rw [lookup_modify, if_pos rfl, hs.lease]
      rfl

theorem rule_cancelSlot :
    ActionRule (poolSystem T poolMax) (pooling T poolMax) t (Standing t (some .failed) 0 0)
      .cancelSlot fun _ => Standing t none 0 0 := by
  refine rule (fun s _ c hc => nomatch hc) (fun _ => stable_standing _ _ _)
    fun s choice r s' hinv hs hperform => ?_
  obtain ⟨-, rfl⟩ := Prod.mk.inj (Option.some.inj hperform)
  refine ⟨inv_giveSlotBack hinv hs.lease, ?_, hs.acquired, hs.released⟩
  show lookup (eraseKey s.leases t) t = none
  rw [lookup_eraseKey, if_pos rfl]

/-- The count of a release. -/
theorem inv_countReleased (hinv : PoolInv poolMax s) (hacquired : s.acquired t = 1)
    (hreleased : s.released t = 0) : PoolInv poolMax (s.countReleased t) := by
  refine { hinv with counts := fun u => ?_ }
  have hle : s.released t + 1 ≤ s.acquired t ∧ s.acquired t ≤ 1 := by omega
  have hcounts := counts_update hinv t hle u
  rw [Function.update_eq_self] at hcounts
  exact hcounts

theorem rule_discardConn :
    ActionRule (poolSystem T poolMax) (pooling T poolMax) t (Standing t (some .finished) 1 0)
      .discardConn fun _ => Standing t none 1 1 := by
  refine rule (fun s _ c hc => nomatch hc) (fun _ => stable_standing _ _ _)
    fun s choice r s' hinv hs hperform => ?_
  obtain ⟨-, rfl⟩ := Prod.mk.inj (Option.some.inj hperform)
  refine ⟨inv_countReleased (inv_giveSlotBack hinv hs.lease) hs.acquired hs.released, ?_,
    hs.acquired, ?_⟩
  · show lookup (eraseKey s.leases t) t = none
    rw [lookup_eraseKey, if_pos rfl]
  · show Function.update s.released t (s.released t + 1) t = 1
    rw [Function.update_self, hs.released]

theorem rule_pushIdle :
    ActionRule (poolSystem T poolMax) (pooling T poolMax) t
      (Standing t (some (.checkedOut c)) 1 0) (.pushIdle c) fun _ => Standing t none 1 1 := by
  refine rule (fun s hs p hp => ?_) (fun _ => stable_standing _ _ _)
    fun s choice r s' hinv hs hperform => ?_
  · rw [hs.lease]
    exact hp
  · obtain ⟨-, rfl⟩ := Prod.mk.inj (Option.some.inj hperform)
    refine ⟨inv_countReleased (inv_pushIdle hinv hs.lease) hs.acquired hs.released, ?_,
      hs.acquired, ?_⟩
    · show lookup (eraseKey s.leases t) t = none
      rw [lookup_eraseKey, if_pos rfl]
    · show Function.update s.released t (s.released t + 1) t = 1
      rw [Function.update_self, hs.released]

/-! ### The programs -/

/-- What a caller of `try_acquire_conn` is left with. -/
def afterAcquire (t : T) : Option PGconn → PostgresPool T → Prop
  | none => Standing t none 0 0
  | some c => Standing t (some (.checkedOut c)) 1 0

theorem outline_tryAcquireConn :
    Outline (poolSystem T poolMax) (pooling T poolMax) t (Standing t none 0 0) tryAcquireConn
      (afterAcquire t) := by
  refine .bind (.perform rule_take) fun r => ?_
  cases r with
  | idle c => exact .pure fun _ hs => hs
  | exhausted => exact .pure fun _ hs => hs
  | reserved =>
    refine .bind (.perform rule_createConn) fun made => ?_
    cases made with
    | none => exact .bind (.perform rule_cancelSlot) fun _ => .pure fun _ hs => hs
    | some c =>
      refine .bind (.perform (rule_quiet rfl rfl)) fun ok => ?_
      cases ok with
      | true => exact .bind (.perform rule_checkOut) fun _ => .pure fun _ hs => hs
      | false =>
        exact .bind (.perform (rule_finish rfl)) fun _ =>
          .bind (.perform rule_cancelSlot) fun _ => .pure fun _ hs => hs

theorem outline_releaseConn (c : PGconn) :
    Outline (poolSystem T poolMax) (pooling T poolMax) t (Standing t (some (.checkedOut c)) 1 0)
      (releaseConn c) fun _ => Standing t none 1 1 := by
  refine .bind (.perform (rule_quiet rfl rfl)) fun ok => ?_
  cases ok with
  | true => exact .perform rule_pushIdle
  | false => exact .bind (.perform (rule_finish rfl)) fun _ => .perform rule_discardConn

/-- A call that releases its connection and returns. -/
theorem outline_releaseConn_return {α : Type} (c : PGconn) (x : α) :
    Outline (poolSystem T poolMax) (pooling T poolMax) t (Standing t (some (.checkedOut c)) 1 0)
      (do
        releaseConn c
        return x)
      fun _ => (pooling T poolMax).idle t :=
  .bind (outline_releaseConn c) fun _ =>
    .pure fun _ hs => ⟨hs.lease, hs.released.trans hs.acquired.symm⟩

/-- A call that was given no connection returns. -/
theorem outline_return {α : Type} (x : α) :
    Outline (poolSystem T poolMax) (pooling T poolMax) t (Standing t none 0 0)
      (return x : PgProg α) fun _ => (pooling T poolMax).idle t :=
  .pure fun _ hs => ⟨hs.lease, hs.released.trans hs.acquired.symm⟩

theorem outline_init :
    Outline (poolSystem T poolMax) (pooling T poolMax) t (Standing t none 0 0) init
      fun _ => (pooling T poolMax).idle t := by
  refine .bind outline_tryAcquireConn fun conn => ?_
  cases conn with
  | none => exact outline_return false
  | some c => exact outline_releaseConn_return c true

theorem outline_executeQuery :
    Outline (poolSystem T poolMax) (pooling T poolMax) t (Standing t none 0 0) executeQuery
      fun _ => (pooling T poolMax).idle t := by
  refine .bind outline_tryAcquireConn fun conn => ?_
  cases conn with
  | none => exact outline_return _
  | some c =>
    refine .bind (.perform (rule_quiet rfl rfl)) fun timeoutError => ?_
    split
    · exact outline_releaseConn_return c _
    · refine .bind (.perform (rule_quiet rfl rfl)) fun res => ?_
      split
      · exact outline_releaseConn_return c _
      · split
        · exact outline_releaseConn_return c _
        · exact outline_releaseConn_return c _

theorem outline_ping :
    Outline (poolSystem T poolMax) (pooling T poolMax) t (Standing t none 0 0) ping
      fun _ => (pooling T poolMax).idle t := by
  refine .bind outline_tryAcquireConn fun conn => ?_
  cases conn with
  | none => exact outline_return _
  | some c =>
    refine .bind (.perform (rule_quiet rfl rfl)) fun timeoutError => ?_
    split
    · exact outline_releaseConn_return c _
    · exact .bind (.perform (rule_quiet rfl rfl)) fun ok => outline_releaseConn_return c ok

/-- **Every call ends with what it began with.** -/
theorem outline_body (call : PgCall) :
    Outline (poolSystem T poolMax) (pooling T poolMax) t (Standing t none 0 0) call.body
      fun _ => (pooling T poolMax).idle t := by
  cases call with
  | init => exact .bind outline_init fun _ => .pure fun _ hs => hs
  | executeQuery => exact .bind outline_executeQuery fun _ => .pure fun _ hs => hs
  | ping => exact .bind outline_ping fun _ => .pure fun _ hs => hs

theorem kept : (pooling T poolMax).Kept (poolSystem T poolMax) where
  idle_stable t s s' hs hrely :=
    ⟨hrely.lease.trans hs.1, hrely.released.trans (hs.2.trans hrely.acquired.symm)⟩
  start t call s p s' hinv hidle hstart := by
    obtain ⟨rfl, rfl⟩ := Prod.mk.inj (Option.some.inj hstart)
    refine ⟨{ hinv with counts := counts_update hinv t ⟨le_rfl, Nat.zero_le _⟩ }, fun u hu => ?_,
      Standing t none 0 0, stable_standing _ _ _, ?_, outline_body call⟩
    · exact ⟨rfl, Function.update_of_ne hu _ _, Function.update_of_ne hu _ _⟩
    · exact ⟨hidle.1, Function.update_self _ _ _, Function.update_self _ _ _⟩
  env e := e.elim

end Pooling

/-! ## Runs -/

/-- The configurations of the pool. -/
abbrev PoolConfig (T : Type) := Config T PgAction PgAction.Result (PostgresPool T)

/-- A new pool, with no call under way. -/
def newPool (T : Type) : PoolConfig T where
  shared :=
    { idle := []
      total := 0
      leases := []
      live := []
      saturated := false
      acquired := fun _ => 0
      released := fun _ => 0 }
  thread := fun _ => .done ()

/-- The pool is as it should be: `m_total` counts the idle connections, those that are
checked out and the slots that are reserved, and is within the limit; no guarded decrement
has found it at zero; a call has released what it acquired when it returns, and never more;
a connection that is checked out is not idle and is nobody else's, and a thread acts on its
own connection only. -/
structure PoolSound (poolMax : ℕ) (c : PoolConfig T) : Prop where
  total : c.shared.total = c.shared.idle.length +
    (c.shared.leases.countP fun e => e.2.out) + c.shared.leases.countP fun e => e.2.reserved
  bounded : c.shared.total ≤ poolMax
  unsaturated : c.shared.saturated = false
  released : ∀ t, c.heads t = none →
    lookup c.shared.leases t = none ∧ c.shared.released t = c.shared.acquired t
  once : ∀ t, c.shared.released t ≤ c.shared.acquired t ∧ c.shared.acquired t ≤ 1
  idle_nodup : c.shared.idle.Nodup
  notIdle : ∀ t conn, (t, Lease.checkedOut conn) ∈ c.shared.leases → conn ∉ c.shared.idle
  exclusive : ∀ t u conn, (t, Lease.checkedOut conn) ∈ c.shared.leases →
    (u, Lease.checkedOut conn) ∈ c.shared.leases → t = u
  own : ∀ t a, c.heads t = some a → ∀ conn ∈ a.conn,
    (lookup c.shared.leases t).bind Lease.conn = some conn

variable {poolMax : ℕ}

omit [DecidableEq T] in
theorem poolInv_newPool : PoolInv poolMax (newPool T).shared where
  nodup := List.nodup_nil
  total := rfl
  bounded := Nat.zero_le _
  saturated := rfl
  conns_nodup := List.nodup_nil
  conns_live := nofun
  counts _ := ⟨le_rfl, Nat.zero_le _⟩

theorem good_newPool : (pooling T poolMax).Good (poolSystem T poolMax) (newPool T) where
  inv := poolInv_newPool
  outline t := ⟨(pooling T poolMax).idle t, Pooling.kept.idle_stable t, ⟨rfl, rfl⟩, fun _ hs => hs⟩

omit [DecidableEq T] in
/-- A slot is reserved, or that of a connection that is checked out. -/
theorem length_leases (leases : List (T × Lease)) :
    leases.length =
      (leases.countP fun e => e.2.out) + leases.countP fun e => e.2.reserved := by
  rw [Nat.add_comm, List.length_eq_countP_add_countP (fun e : T × Lease => e.2.reserved)]
  congr 2
  funext e
  rw [Lease.out]
  cases e.2.reserved with
  | true => rfl
  | false => rfl

/-- The places of a connection that is checked out. -/
theorem PoolInv.exclusive {s : PostgresPool T} (hinv : PoolInv poolMax s) {t u : T} {conn : PGconn}
    (ht : (t, Lease.checkedOut conn) ∈ s.leases) :
    conn ∉ s.idle ∧ ((u, Lease.checkedOut conn) ∈ s.leases → t = u) := by
  have hlookup := lookup_of_mem hinv.nodup ht
  obtain ⟨hnodup, -⟩ := Pooling.conns_of_lease hinv hlookup
  have hother : conn ∉ s.idle ++ leasedConns (eraseKey s.leases t) := (List.nodup_cons.mp hnodup).1
  refine ⟨fun hidle => hother (List.mem_append_left _ hidle), fun hu => ?_⟩
  by_contra hne
  refine hother (List.mem_append_right _ (List.mem_filterMap.mpr
    ⟨_, mem_eraseKey.mpr ⟨hu, Ne.symm hne⟩, rfl⟩))

theorem poolSound_of_good {c : PoolConfig T}
    (h : (pooling T poolMax).Good (poolSystem T poolMax) c) : PoolSound poolMax c := by
  have hinv : PoolInv poolMax c.shared := h.inv
  constructor
  case total => rw [hinv.total, length_leases c.shared.leases, Nat.add_assoc]
  case bounded => exact hinv.bounded
  case unsaturated => exact hinv.saturated
  case released => exact fun t ht => h.idle ht
  case once => exact hinv.counts
  case idle_nodup => exact (List.nodup_append'.mp hinv.conns_nodup).1
  case notIdle => exact fun t conn ht => (hinv.exclusive (u := t) ht).1
  case exclusive => exact fun t u conn ht hu => (hinv.exclusive ht).2 hu
  case own => exact fun t a ha => h.check ha

/-- **The pool of the PostgreSQL executor is sound** in every run of any number of threads,
whatever connects, health checks and statements fail. -/
theorem pool_sound (T : Type) [DecidableEq T] (poolMax : ℕ)
    (events : List (Event T PgChoice PgCall Empty)) :
    Always (poolSystem T poolMax).step (PoolSound poolMax) (newPool T) events := by
  refine always_of_step (P := (pooling T poolMax).Good (poolSystem T poolMax))
    (fun c e c' h hstep => ?_) (fun c h => poolSound_of_good h) good_newPool events
  refine Contract.good_step Pooling.kept h ?_ hstep
  cases e with
  | start t call => trivial
  | act t choice => exact fun _ _ => trivial
  | env e => exact e.elim

end Sql
end HttpDataDiod
