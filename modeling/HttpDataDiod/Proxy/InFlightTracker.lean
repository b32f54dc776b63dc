import HttpDataDiod.Lib.Counting
import HttpDataDiod.Lib.Transition
import Mathlib.Algebra.Order.BigOperators.Group.Finset

/-!
# The in-flight requests at shutdown

`InFlightTracker` counts the requests in sixteen shards, and in `m_active` the shards with a
request.  A guard adds itself to its shard, and if it has found the shard empty, in a later
step, the shard to `m_active`; its destructor does the reverse.  Between the two steps the shard
has a request and is not counted.  Another guard that comes to the same shard then finds it not
empty and is done, so that `wait_for_completion` may find `m_active` at zero while that guard is
alive.

* `trackerStep`: the atomic operations, in any order.
* `TrackerInv`: the balance of `m_active`.
* `active_counts`: in every run it does not underflow, and counts the shards with a request
  whenever no guard is between two steps.
* `tracking_complete`: in runs in which no guard overtakes the first one of its shard,
  `wait_for_completion` returns true only without guards.
* `wait_misses_guard`: with one that does.
-/

namespace HttpDataDiod
namespace Proxy

open Counting Transition

/-! ## Guards -/

/-- `g_shard_count`. -/
def shardCount : ℕ := 16

instance : NeZero shardCount := ⟨by decide⟩

/-- Where a `RequestGuard` is: before the `fetch_add` of `increment`; behind it, with what it
returned; before the `fetch_add` of `m_active`; constructed; between the two operations of
`decrement`; destroyed. -/
inductive GuardPhase where
  | entered
  | counted (prev : ℕ)
  | registering
  | live
  | unregistering
  | gone
  deriving DecidableEq

/-- A guard and its shard.  Moving a guard does not change it. -/
structure Guard where
  shard : Fin shardCount
  phase : GuardPhase
  deriving DecidableEq

/-- `InFlightTracker::State`, with the guards. -/
structure TrackerState where
  inFlight : Fin shardCount → ℕ
  total : Fin shardCount → ℕ
  active : ℕ
  guards : List Guard

/-- `fetch_sub` of an unsigned integer. -/
def fetchSub (x : ℕ) : ℕ := if x = 0 then 2 ^ 64 - 1 else x - 1

/-- A guard is made by a thread, or does its next atomic operation; that of a guard that is alive
is the first one of its destructor. -/
inductive TrackerEvent where
  | track (shard : Fin shardCount)
  | advance (i : ℕ)

namespace TrackerState

/-- The state with the guard `i` in another phase. -/
def setPhase (s : TrackerState) (i : ℕ) (g : Guard) (phase : GuardPhase) : TrackerState :=
  { s with guards := s.guards.set i { g with phase } }

/-- The operations of `increment` and `decrement`. -/
def advance (s : TrackerState) (i : ℕ) (g : Guard) : Option TrackerState :=
  match g.phase with
  | .entered =>
    some { s.setPhase i g (.counted (s.inFlight g.shard)) with
      inFlight := Function.update s.inFlight g.shard (s.inFlight g.shard + 1) }
  | .counted prev =>
    some { s.setPhase i g (if prev = 0 then .registering else .live) with
      total := Function.update s.total g.shard (s.total g.shard + 1) }
  | .registering => some { s.setPhase i g .live with active := s.active + 1 }
  | .live =>
    some { s.setPhase i g (if s.inFlight g.shard = 1 then .unregistering else .gone) with
      inFlight := Function.update s.inFlight g.shard (fetchSub (s.inFlight g.shard)) }
  | .unregistering => some { s.setPhase i g .gone with active := fetchSub s.active }
  | .gone => none

/-- The predicate on which `wait_for_completion` waits. -/
def waitObserves (s : TrackerState) : Bool := s.active = 0

end TrackerState

/-- One atomic operation. -/
def trackerStep (s : TrackerState) : TrackerEvent → Option TrackerState
  | .track shard => some { s with guards := s.guards ++ [⟨shard, .entered⟩] }
  | .advance i => s.guards[i]?.bind (s.advance i)

/-- Before the first request. -/
def initialTracker : TrackerState where
  inFlight := fun _ => 0
  total := fun _ => 0
  active := 0
  guards := []

/-! ## What the counters should say -/

namespace GuardPhase

/-- The guard is in the count of its shard. -/
def isCounted : GuardPhase → Bool
  | .counted _ => true
  | .registering => true
  | .live => true
  | _ => false

/-- The guard has found its shard empty, and has not added it to `m_active`. -/
def pendingAdd : GuardPhase → Bool
  | .counted prev => prev = 0
  | .registering => true
  | _ => false

/-- The guard has left its shard empty, and has not taken it from `m_active`. -/
def pendingSub : GuardPhase → Bool
  | .unregistering => true
  | _ => false

/-- The guard is between the first and the last operation of `increment` or `decrement`. -/
def inProgress : GuardPhase → Bool
  | .counted _ => true
  | .registering => true
  | .unregistering => true
  | _ => false

end GuardPhase

/-- The number of shards with a request. -/
def nonEmptyShards (inFlight : Fin shardCount → ℕ) : ℕ :=
  ∑ shard, if inFlight shard = 0 then 0 else 1

/-- `m_active` does not underflow at the next operation of any guard, and says how many shards
have a request whenever nothing is in progress. -/
structure ActiveCounts (s : TrackerState) : Prop where
  no_underflow : ∀ g ∈ s.guards, g.phase = .unregistering → 0 < s.active
  quiet : (∀ g ∈ s.guards, g.phase.inProgress = false) → s.active = nonEmptyShards s.inFlight

/-- And if `wait_for_completion` returns true now, no guard is alive. -/
structure TrackingComplete (s : TrackerState) : Prop extends ActiveCounts s where
  wait_sound : s.waitObserves = true → ∀ g ∈ s.guards, g.phase ≠ .live

/-- A guard does not overtake: no guard adds itself to a shard while the one that has found the
shard empty has not added it to `m_active`. -/
def NotOvertaking (s : TrackerState) : TrackerEvent → Prop
  | .track _ => True
  | .advance i => ∀ g ∈ s.guards[i]?, g.phase = .entered →
      ∀ first ∈ s.guards, first.shard = g.shard → first.phase.pendingAdd = false

instance (s : TrackerState) : DecidablePred (NotOvertaking s)
  | .track _ => .isTrue trivial
  | .advance _ => inferInstanceAs (Decidable (∀ g ∈ _, _))

/-! ## The balance -/

/-- How many guards of a shard are in certain phases. -/
def onShard (p : GuardPhase → Bool) (shard : Fin shardCount) (guards : List Guard) : ℕ :=
  guards.countP fun g => p g.phase && g.shard = shard

/-- How many guards are in certain phases. -/
def inPhase (p : GuardPhase → Bool) (guards : List Guard) : ℕ :=
  guards.countP fun g => p g.phase

/-- What the operations keep: the counts of the shards are those of the guards, at most one guard
of a shard is about to add it to `m_active`, and `m_active` is right but for the guards that are
about to change it. -/
structure TrackerInv (s : TrackerState) : Prop where
  counts : ∀ shard, s.inFlight shard = onShard GuardPhase.isCounted shard s.guards
  first : ∀ shard, onShard GuardPhase.pendingAdd shard s.guards ≤ 1
  balance : s.active + inPhase GuardPhase.pendingAdd s.guards =
    nonEmptyShards s.inFlight + inPhase GuardPhase.pendingSub s.guards

/-- One for a shard with a request. -/
def occupied (count : ℕ) : ℕ := if count = 0 then 0 else 1

theorem nonEmptyShards_update (inFlight : Fin shardCount → ℕ) (shard : Fin shardCount)
    (count : ℕ) :
    nonEmptyShards (Function.update inFlight shard count) + occupied (inFlight shard) =
      nonEmptyShards inFlight + occupied count :=
  sum_update_add occupied inFlight shard count

variable {s s' : TrackerState} {guards : List Guard} {i : ℕ} {g : Guard}

theorem onShard_set (p : GuardPhase → Bool) (hg : guards[i]? = some g) (phase : GuardPhase)
    (shard : Fin shardCount) :
    onShard p shard (guards.set i { g with phase }) +
        (p g.phase && decide (g.shard = shard)).toNat =
      onShard p shard guards + (p phase && decide (g.shard = shard)).toNat :=
  countP_set (fun g : Guard => p g.phase && decide (g.shard = shard)) hg { g with phase }

theorem inPhase_set (p : GuardPhase → Bool) (hg : guards[i]? = some g) (phase : GuardPhase) :
    inPhase p (guards.set i { g with phase }) + (p g.phase).toNat =
      inPhase p guards + (p phase).toNat :=
  countP_set (fun g : Guard => p g.phase) hg { g with phase }

/-- Guards that are about to add their shard are counted there. -/
theorem onShard_pendingAdd_le (shard : Fin shardCount) (guards : List Guard) :
    onShard GuardPhase.pendingAdd shard guards ≤ onShard GuardPhase.isCounted shard guards := by
  refine List.countP_mono_left fun g _ h => ?_
  rw [Bool.and_eq_true] at h ⊢
  refine ⟨?_, h.2⟩
  cases hphase : g.phase with
  | counted prev => rfl
  | registering => rfl
  | _ => rw [hphase] at h; exact absurd h.1 Bool.false_ne_true

/-- Every guard is on one shard. -/
theorem inPhase_eq_sum (p : GuardPhase → Bool) (guards : List Guard) :
    inPhase p guards = ∑ shard, onShard p shard guards := by
  induction guards with
  | nil => simp [inPhase, onShard]
  | cons g guards ih =>
    have hone : ∑ shard, (p g.phase && decide (g.shard = shard)).toNat = (p g.phase).toNat := by
      rw [Finset.sum_eq_single g.shard]
      · simp
      · intro shard _ hne
        simp [Ne.symm hne]
      · exact fun hnot => absurd (Finset.mem_univ _) hnot
    have hcons : ∀ shard, onShard p shard (g :: guards) =
        onShard p shard guards + (p g.phase && decide (g.shard = shard)).toNat :=
      fun shard => countP_cons_toNat _ g guards
    have hconsPhase : inPhase p (g :: guards) = inPhase p guards + (p g.phase).toNat :=
      countP_cons_toNat _ g guards
    rw [hconsPhase, ih, Finset.sum_congr rfl fun shard _ => hcons shard,
      Finset.sum_add_distrib, hone]

namespace TrackerInv

/-- One guard goes into another phase. -/
theorem set (h : TrackerInv s) (hg : s.guards[i]? = some g) {phase : GuardPhase}
    {count active : ℕ} {total : Fin shardCount → ℕ}
    (hcount : count + g.phase.isCounted.toNat = s.inFlight g.shard + phase.isCounted.toNat)
    (hfirst : phase.pendingAdd = true → g.phase.pendingAdd = true ∨ s.inFlight g.shard = 0)
    (hactive : active + phase.pendingAdd.toNat + g.phase.pendingSub.toNat +
        occupied (s.inFlight g.shard) =
      s.active + g.phase.pendingAdd.toNat + phase.pendingSub.toNat + occupied count) :
    TrackerInv
      { inFlight := Function.update s.inFlight g.shard count
        total := total
        active := active
        guards := s.guards.set i { g with phase } } where
  counts := by
    intro shard
    have hset := onShard_set GuardPhase.isCounted hg phase shard
    have hold := h.counts shard
    show Function.update s.inFlight g.shard count shard = onShard _ _ (s.guards.set i _)
    by_cases hshard : g.shard = shard
    · subst hshard
      rw [Function.update_self]
      simp only [decide_true, Bool.and_true] at hset
      omega
    · rw [Function.update_of_ne (Ne.symm hshard)]
      simp only [decide_eq_false hshard, Bool.and_false] at hset
      omega
  first := by
    intro shard
    have hset := onShard_set GuardPhase.pendingAdd hg phase shard
    have hold := h.first shard
    have hle := onShard_pendingAdd_le shard s.guards
    have hcounts := h.counts shard
    show onShard _ _ (s.guards.set i _) ≤ 1
    by_cases hshard : g.shard = shard
    · subst hshard
      simp only [decide_true, Bool.and_true] at hset
      cases hpending : phase.pendingAdd with
      | false =>
        rw [hpending, Bool.toNat_false] at hset
        omega
      | true =>
        rw [hpending, Bool.toNat_true] at hset
        rcases hfirst hpending with hsame | hempty
        · rw [hsame, Bool.toNat_true] at hset
          omega
        · omega
    · simp only [decide_eq_false hshard, Bool.and_false] at hset
      omega
  balance := by
    have hadd := inPhase_set GuardPhase.pendingAdd hg phase
    have hsub := inPhase_set GuardPhase.pendingSub hg phase
    have hshards := nonEmptyShards_update s.inFlight g.shard count
    have hold := h.balance
    show active + inPhase _ (s.guards.set i _) = nonEmptyShards (Function.update s.inFlight _ _) +
      inPhase _ (s.guards.set i _)
    omega

/-- A guard goes into another phase, and its shard keeps its count. -/
theorem setPhase (h : TrackerInv s) (hg : s.guards[i]? = some g) {phase : GuardPhase} {active : ℕ}
    {total : Fin shardCount → ℕ} (hcount : g.phase.isCounted = phase.isCounted)
    (hfirst : phase.pendingAdd = true → g.phase.pendingAdd = true)
    (hactive : active + phase.pendingAdd.toNat + g.phase.pendingSub.toNat =
      s.active + g.phase.pendingAdd.toNat + phase.pendingSub.toNat) :
    TrackerInv
      { inFlight := s.inFlight
        total := total
        active := active
        guards := s.guards.set i { g with phase } } := by
  have hset : TrackerInv
      { inFlight := Function.update s.inFlight g.shard (s.inFlight g.shard)
        total := total
        active := active
        guards := s.guards.set i { g with phase } } :=
    h.set hg (by rw [hcount]) (fun hpending => .inl (hfirst hpending)) (by rw [hactive])
  rwa [Function.update_eq_self] at hset

theorem onShard_le (h : TrackerInv s) (shard : Fin shardCount) :
    onShard GuardPhase.pendingAdd shard s.guards ≤ occupied (s.inFlight shard) := by
  have hfirst := h.first shard
  have hle := onShard_pendingAdd_le shard s.guards
  rw [← h.counts shard] at hle
  unfold occupied
  split
  · omega
  · exact hfirst

/-- Guards that are about to add their shards do so for different shards with requests. -/
theorem pendingAdd_le (h : TrackerInv s) :
    inPhase GuardPhase.pendingAdd s.guards ≤ nonEmptyShards s.inFlight := by
  rw [inPhase_eq_sum]
  exact Finset.sum_le_sum fun shard _ => h.onShard_le shard

/-- A shard that is about to be taken from `m_active` is still counted there. -/
theorem active_pos (h : TrackerInv s) (hg : g ∈ s.guards) (hphase : g.phase = .unregistering) :
    0 < s.active := by
  have hpos : 0 < inPhase GuardPhase.pendingSub s.guards :=
    List.countP_pos_iff.mpr ⟨g, hg, by rw [hphase]; rfl⟩
  have hle := h.pendingAdd_le
  have hbalance := h.balance
  omega

/-- A new guard is nowhere counted. -/
theorem track (h : TrackerInv s) (shard : Fin shardCount) :
    TrackerInv { s with guards := s.guards ++ [⟨shard, .entered⟩] } := by
  have honShard : ∀ (p : GuardPhase → Bool) (other : Fin shardCount), p .entered = false →
      onShard p other (s.guards ++ [⟨shard, .entered⟩]) = onShard p other s.guards := by
    intro p other hp
    simp [onShard, List.countP_append, hp]
  have hinPhase : ∀ p : GuardPhase → Bool, p .entered = false →
      inPhase p (s.guards ++ [⟨shard, .entered⟩]) = inPhase p s.guards := by
    intro p hp
    simp [inPhase, List.countP_append, hp]
  refine ⟨fun other => ?_, fun other => ?_, ?_⟩
  · exact (h.counts other).trans (honShard _ other rfl).symm
  · exact (honShard _ other rfl).trans_le (h.first other)
  · show s.active + inPhase _ _ = nonEmptyShards s.inFlight + inPhase _ _
    rw [hinPhase _ rfl, hinPhase _ rfl]
    exact h.balance

/-- A guard that is counted makes its shard non-empty. -/
theorem inFlight_pos (h : TrackerInv s) (hg : g ∈ s.guards) (hphase : g.phase.isCounted = true) :
    0 < s.inFlight g.shard := by
  rw [h.counts]
  exact List.countP_pos_iff.mpr ⟨g, hg, by simp [hphase]⟩

theorem advance (h : TrackerInv s) (hg : s.guards[i]? = some g)
    (hs' : s.advance i g = some s') : TrackerInv s' := by
  have hmem := List.mem_of_getElem? hg
  unfold TrackerState.advance at hs'
  cases hphase : g.phase with
  | entered =>
    simp only [hphase, TrackerState.setPhase] at hs'
    obtain rfl := Option.some.inj hs'
    refine h.set hg ?_ ?_ ?_
    · rw [hphase]
      rfl
    · exact fun hzero => .inr (of_decide_eq_true hzero)
    · rw [hphase]
      by_cases hzero : s.inFlight g.shard = 0
      · simp [GuardPhase.pendingAdd, GuardPhase.pendingSub, occupied, hzero]
      · simp [GuardPhase.pendingAdd, GuardPhase.pendingSub, occupied, hzero]
  | counted prev =>
    simp only [hphase, TrackerState.setPhase] at hs'
    obtain rfl := Option.some.inj hs'
    by_cases hprev : prev = 0
    · rw [if_pos hprev]
      refine h.setPhase hg ?_ ?_ ?_
      · rw [hphase]
        rfl
      · exact fun _ => by simp [hphase, GuardPhase.pendingAdd, hprev]
      · simp [hphase, GuardPhase.pendingAdd, GuardPhase.pendingSub, hprev]
    · rw [if_neg hprev]
      refine h.setPhase hg ?_ (fun hpending => by cases hpending) ?_
      · rw [hphase]
        rfl
      · simp [hphase, GuardPhase.pendingAdd, GuardPhase.pendingSub, hprev]
  | registering =>
    simp only [hphase, TrackerState.setPhase] at hs'
    obtain rfl := Option.some.inj hs'
    refine h.setPhase hg ?_ (fun hpending => by cases hpending) ?_
    · rw [hphase]
      rfl
    · rw [hphase]
      rfl
  | live =>
    simp only [hphase, TrackerState.setPhase] at hs'
    obtain rfl := Option.some.inj hs'
    have hpos := h.inFlight_pos hmem (by rw [hphase]; rfl)
    have hfetch : fetchSub (s.inFlight g.shard) + 1 = s.inFlight g.shard := by
      rw [fetchSub, if_neg hpos.ne']
      omega
    by_cases hone : s.inFlight g.shard = 1
    · rw [if_pos hone]
      refine h.set hg ?_ (fun hpending => by cases hpending) ?_
      · rw [hphase]
        exact hfetch
      · rw [hphase]
        simp [GuardPhase.pendingAdd, GuardPhase.pendingSub, occupied, fetchSub, hone]
    · rw [if_neg hone]
      refine h.set hg ?_ (fun hpending => by cases hpending) ?_
      · rw [hphase]
        exact hfetch
      · have hleft : fetchSub (s.inFlight g.shard) ≠ 0 := by omega
        rw [hphase]
        simp [GuardPhase.pendingAdd, GuardPhase.pendingSub, occupied, hleft, hpos.ne']
  | unregistering =>
    simp only [hphase, TrackerState.setPhase] at hs'
    obtain rfl := Option.some.inj hs'
    have hpos := h.active_pos hmem hphase
    refine h.setPhase hg ?_ (fun hpending => by cases hpending) ?_
    · rw [hphase]
      rfl
    · rw [hphase, fetchSub, if_neg hpos.ne']
      show s.active - 1 + 0 + 1 = s.active + 0 + 0
      omega
  | gone =>
    simp only [hphase] at hs'
    cases hs'

theorem step {e : TrackerEvent} (h : TrackerInv s) (hs' : trackerStep s e = some s') :
    TrackerInv s' := by
  cases e with
  | track shard =>
    obtain rfl := Option.some.inj hs'
    exact h.track shard
  | advance i =>
    obtain ⟨g, hg, hadvance⟩ := Option.bind_eq_some_iff.mp hs'
    exact h.advance hg hadvance

theorem initial : TrackerInv initialTracker where
  counts := fun _ => rfl
  first := fun _ => Nat.zero_le _
  balance := by
    show 0 + 0 = ∑ _ : Fin shardCount, 0 + 0
    simp

/-- Without operations in progress nothing is pending. -/
theorem inPhase_eq_zero {p : GuardPhase → Bool}
    (hp : ∀ phase, p phase = true → phase.inProgress = true)
    (hquiet : ∀ g ∈ guards, g.phase.inProgress = false) : inPhase p guards = 0 := by
  refine List.countP_eq_zero.mpr fun g hg hpg => ?_
  exact Bool.false_ne_true ((hquiet g hg).symm.trans (hp g.phase hpg))

theorem activeCounts (h : TrackerInv s) : ActiveCounts s := by
  refine ⟨fun g hg hphase => h.active_pos hg hphase, fun hquiet => ?_⟩
  have hadd : inPhase GuardPhase.pendingAdd s.guards = 0 :=
    inPhase_eq_zero (fun phase hp => by cases phase <;> first | rfl | cases hp) hquiet
  have hsub : inPhase GuardPhase.pendingSub s.guards = 0 :=
    inPhase_eq_zero (fun phase hp => by cases phase <;> first | rfl | cases hp) hquiet
  have hbalance := h.balance
  omega

end TrackerInv

/-- In every run. -/
theorem active_counts (es : List TrackerEvent) :
    Always trackerStep ActiveCounts initialTracker es :=
  always_of_step (fun _ _ _ h hs' => TrackerInv.step h hs') (fun _ h => h.activeCounts)
    TrackerInv.initial es

/-! ## Guards that do not overtake -/

/-- A guard that is about to add its shard to `m_active` is alone there. -/
def Alone (s : TrackerState) : Prop :=
  ∀ first ∈ s.guards, first.phase.pendingAdd = true → s.inFlight first.shard = 1

/-- Beside a guard that is alive another one makes two. -/
theorem TrackerInv.two_le (h : TrackerInv s) {first : Guard} (hfirst : first ∈ s.guards)
    (hpending : first.phase.pendingAdd = true) (hg : g ∈ s.guards) (hlive : g.phase = .live)
    (hshard : first.shard = g.shard) : 2 ≤ s.inFlight g.shard := by
  have hadd : 0 < onShard GuardPhase.pendingAdd g.shard s.guards :=
    List.countP_pos_iff.mpr ⟨first, hfirst, by simp [hpending, hshard]⟩
  have halive : 0 < onShard (fun phase => phase = .live) g.shard s.guards :=
    List.countP_pos_iff.mpr ⟨g, hg, by simp [hlive]⟩
  have hsum : onShard GuardPhase.pendingAdd g.shard s.guards +
      onShard (fun phase => phase = .live) g.shard s.guards ≤
        onShard GuardPhase.isCounted g.shard s.guards := by
    refine countP_add_countP_le (fun other => ?_) s.guards
    cases decide (other.shard = g.shard) with
    | false => simp
    | true =>
      cases other.phase with
      | counted prev =>
        have hle := Bool.toNat_le (decide (prev = 0))
        simpa [GuardPhase.pendingAdd, GuardPhase.isCounted] using hle
      | _ => simp [GuardPhase.pendingAdd, GuardPhase.isCounted]
  have hcounts := h.counts g.shard
  omega

theorem Alone.advance (h : Alone s) (hinv : TrackerInv s) (hg : s.guards[i]? = some g)
    (hfirst : g.phase = .entered → ∀ first ∈ s.guards, first.shard = g.shard →
      first.phase.pendingAdd = false)
    (hs' : s.advance i g = some s') : Alone s' := by
  have hmem := List.mem_of_getElem? hg
  intro first hmem' hpending
  unfold TrackerState.advance at hs'
  cases hphase : g.phase with
  | entered =>
    simp only [hphase, TrackerState.setPhase] at hs'
    obtain rfl := Option.some.inj hs'
    show Function.update s.inFlight g.shard (s.inFlight g.shard + 1) first.shard = 1
    rcases List.mem_or_eq_of_mem_set hmem' with hold | rfl
    · have hne : first.shard ≠ g.shard := by
        intro hshard
        exact Bool.false_ne_true ((hfirst hphase first hold hshard).symm.trans hpending)
      rw [Function.update_of_ne hne]
      exact h first hold hpending
    · have hzero : s.inFlight g.shard = 0 := of_decide_eq_true hpending
      rw [Function.update_self, hzero]
  | counted prev =>
    simp only [hphase, TrackerState.setPhase] at hs'
    obtain rfl := Option.some.inj hs'
    rcases List.mem_or_eq_of_mem_set hmem' with hold | rfl
    · exact h first hold hpending
    · refine h g hmem ?_
      by_cases hprev : prev = 0
      · simp [hphase, GuardPhase.pendingAdd, hprev]
      · simp [hprev, GuardPhase.pendingAdd] at hpending
  | registering =>
    simp only [hphase, TrackerState.setPhase] at hs'
    obtain rfl := Option.some.inj hs'
    rcases List.mem_or_eq_of_mem_set hmem' with hold | rfl
    · exact h first hold hpending
    · cases hpending
  | live =>
    simp only [hphase, TrackerState.setPhase] at hs'
    obtain rfl := Option.some.inj hs'
    show Function.update s.inFlight g.shard (fetchSub (s.inFlight g.shard)) first.shard = 1
    rcases List.mem_or_eq_of_mem_set hmem' with hold | rfl
    · have halone := h first hold hpending
      have hne : first.shard ≠ g.shard := by
        intro hshard
        have htwo := hinv.two_le hold hpending hmem hphase hshard
        rw [hshard] at halone
        omega
      rw [Function.update_of_ne hne]
      exact halone
    · by_cases hone : s.inFlight g.shard = 1
      · simp [hone, GuardPhase.pendingAdd] at hpending
      · simp [hone, GuardPhase.pendingAdd] at hpending
  | unregistering =>
    simp only [hphase, TrackerState.setPhase] at hs'
    obtain rfl := Option.some.inj hs'
    rcases List.mem_or_eq_of_mem_set hmem' with hold | rfl
    · exact h first hold hpending
    · cases hpending
  | gone =>
    simp only [hphase] at hs'
    cases hs'

theorem Alone.step {e : TrackerEvent} (h : Alone s) (hinv : TrackerInv s)
    (hfirst : NotOvertaking s e) (hs' : trackerStep s e = some s') : Alone s' := by
  cases e with
  | track shard =>
    obtain rfl := Option.some.inj hs'
    intro first hmem hpending
    rcases List.mem_append.mp hmem with hold | hnew
    · exact h first hold hpending
    · rw [List.mem_singleton.mp hnew] at hpending
      cases hpending
  | advance i =>
    obtain ⟨g, hg, hadvance⟩ := Option.bind_eq_some_iff.mp hs'
    exact h.advance hinv hg (hfirst g hg) hadvance

/-- A guard that is alive is on a shard that `m_active` counts. -/
theorem Alone.complete (h : Alone s) (hinv : TrackerInv s) : TrackingComplete s where
  toActiveCounts := hinv.activeCounts
  wait_sound := by
    intro hzero g hg hlive
    have hactive : s.active = 0 := of_decide_eq_true hzero
    have hnone : onShard GuardPhase.pendingAdd g.shard s.guards = 0 := by
      refine List.countP_eq_zero.mpr fun first hfirst hpending => ?_
      rw [Bool.and_eq_true, decide_eq_true_eq] at hpending
      have htwo := hinv.two_le hfirst hpending.1 hg hlive hpending.2
      have hone := h first hfirst hpending.1
      rw [hpending.2] at hone
      omega
    have hoccupied : occupied (s.inFlight g.shard) = 1 :=
      if_neg (hinv.inFlight_pos hg (by rw [hlive]; rfl)).ne'
    have hlt : inPhase GuardPhase.pendingAdd s.guards < nonEmptyShards s.inFlight := by
      rw [inPhase_eq_sum]
      refine Finset.sum_lt_sum (fun shard _ => hinv.onShard_le shard)
        ⟨g.shard, Finset.mem_univ _, ?_⟩
      show onShard _ _ _ < occupied (s.inFlight g.shard)
      omega
    have hbalance := hinv.balance
    omega

/-- In every run in which no guard adds itself to a shard while the guard that has found the shard
empty has not added it to `m_active`. -/
theorem tracking_complete (es : List TrackerEvent)
    (hmeet : StepsMeet trackerStep NotOvertaking initialTracker es) :
    Always trackerStep TrackingComplete initialTracker es :=
  always_of_stepsMeet (P := fun s => TrackerInv s ∧ Alone s)
    (fun _ _ _ h hfirst hs' => ⟨h.1.step hs', h.2.step h.1 hfirst hs'⟩)
    (fun _ h => h.2.complete h.1) ⟨TrackerInv.initial, fun _ hmem => nomatch hmem⟩ hmeet

/-- Two requests on one shard, the second after the first has been added. -/
theorem complete_of_two_requests :
    Always trackerStep TrackingComplete initialTracker
      [.track 0, .advance 0, .advance 0, .advance 0, .track 0, .advance 1, .advance 1] :=
  tracking_complete _
    (stepsMeet_of_stepsCheck
      (fun s e (h : decide (NotOvertaking s e) = true) => of_decide_eq_true h) (by decide +kernel))

/-- Two requests on one shard, the second while the first has found it empty and has not added it:
the second guard is complete, and `m_active` is zero. -/
theorem wait_misses_guard :
    ¬ Always trackerStep TrackingComplete initialTracker
      [.track 0, .track 0, .advance 0, .advance 1, .advance 1] := by
  intro hall
  have hrun : (run trackerStep initialTracker
      [.track 0, .track 0, .advance 0, .advance 1, .advance 1]).map
        (fun s => (s.waitObserves, s.guards)) = some (true, [⟨0, .counted 0⟩, ⟨0, .live⟩]) := by
    decide +kernel
  obtain ⟨s, hs, hpair⟩ := Option.map_eq_some_iff.mp hrun
  obtain ⟨hwait, hguards⟩ := Prod.mk.inj hpair
  have hcomplete := always_iff.mp hall _ [] s (List.append_nil _).symm hs
  exact hcomplete.wait_sound hwait ⟨0, .live⟩ (by rw [hguards]; simp) rfl

end Proxy
end HttpDataDiod
