import HttpDataDiod.Lib.Counting
import HttpDataDiod.Lib.Transition
import Mathlib.Data.List.Count
import Mathlib.Data.List.Nodup
import Mathlib.Data.List.Perm.Basic
import Mathlib.Logic.Function.Basic

/-!
# The thread pool

`ThreadPool` has a bounded queue of tasks and some worker threads.  A producer waits while the
queue is full, and gets an exception once the pool is stopped.  A worker takes up to sixteen tasks
at once, runs them outside the lock, and leaves when it is told to stop and finds the queue empty.
`shutdown` sets `m_stop` under the lock, asks every worker to stop, and joins them.

* `poolStep`: the locked sections, and the steps between them.
* `PoolInv`: what they keep.
* `PoolSafe`, `pool_safe`: the queue is bounded, tasks are taken in the order in which they came,
  and whatever was accepted has been run once when the first `shutdown` returns.
* `shutdown_returns`: which it can in every state.
-/

namespace HttpDataDiod
namespace Worker

open Transition

/-! ## Model -/

/-- `g_max_queue_per_thread`. -/
def maxQueuePerThread : ℕ := 8

/-- `g_dequeue_batch`. -/
def dequeueBatch : ℕ := 16

/-- `effective_queue_capacity`. -/
def effectiveQueueCapacity (threads maxQueueSize : ℕ) : ℕ :=
  if maxQueueSize = 0 then threads * maxQueuePerThread else maxQueueSize

/-- A call of `enqueue`: before its locked section or waiting there, with its task queued and a
future to return, or behind the exception. -/
inductive PoolCall where
  | entered
  | queued
  | threw
  deriving DecidableEq

/-- A worker: before its locked section or waiting there; with a batch that it has taken; running
the batch, of which these tasks are left; or behind its loop. -/
inductive PoolWorker where
  | waiting
  | taken (batch : List ℕ)
  | running (batch : List ℕ)
  | exited
  deriving DecidableEq

/-- A call of `shutdown`: before its locked section; asking the workers to stop; joining them;
returned behind the join, or at once. -/
inductive ShutdownCall where
  | entered
  | requesting (worker : ℕ)
  | joining (worker : ℕ)
  | finished
  | returned
  deriving DecidableEq

/-- The pool with its callers.  A task is known by the number of its call.  What was accepted,
what was taken by which worker and what was run by which worker is kept in order. -/
structure PoolState (n : ℕ) where
  tasks : List ℕ
  stop : Bool
  stopRequested : Fin n → Bool
  workers : Fin n → PoolWorker
  activeWorkers : ℕ
  calls : List PoolCall
  shutdowns : List ShutdownCall
  accepted : List ℕ
  taken : List (Fin n × ℕ)
  executed : List (Fin n × ℕ)

inductive PoolEvent (n : ℕ) where
  | enqueue
  | push (i : ℕ)
  | worker (w : Fin n)
  | shutdown
  | advance (j : ℕ)

variable {n : ℕ} (capacity : ℕ)

/-- The locked section of `enqueue`, behind its wait. -/
def pushStep (s : PoolState n) (i : ℕ) : Option (PoolState n) :=
  match s.calls[i]? with
  | some .entered =>
    if s.stop then some { s with calls := s.calls.set i .threw }
    else if s.tasks.length < capacity then
      some { s with
        calls := s.calls.set i .queued
        tasks := s.tasks ++ [i]
        accepted := s.accepted ++ [i] }
    else none
  | _ => none

/-- The locked section of a worker, behind its wait. -/
def takeStep (s : PoolState n) (w : Fin n) : Option (PoolState n) :=
  if s.stopRequested w || s.stop || !s.tasks.isEmpty then
    if (s.stopRequested w || s.stop) && s.tasks.isEmpty then
      some { s with workers := Function.update s.workers w .exited }
    else
      some { s with
        workers := Function.update s.workers w (.taken (s.tasks.take dequeueBatch))
        tasks := s.tasks.drop dequeueBatch
        taken := s.taken ++ (s.tasks.take dequeueBatch).map fun task => (w, task) }
  else none

/-- The next step of a worker. -/
def workerStep (s : PoolState n) (w : Fin n) : Option (PoolState n) :=
  match s.workers w with
  | .waiting => takeStep s w
  | .taken batch =>
    some { s with
      workers := Function.update s.workers w (.running batch)
      activeWorkers := s.activeWorkers + 1 }
  | .running (task :: batch) =>
    some { s with
      workers := Function.update s.workers w (.running batch)
      executed := s.executed ++ [(w, task)] }
  | .running [] =>
    some { s with
      workers := Function.update s.workers w .waiting
      activeWorkers := s.activeWorkers - 1 }
  | .exited => none

/-- The next step of a call of `shutdown`. -/
def shutdownStep (s : PoolState n) (j : ℕ) : Option (PoolState n) :=
  match s.shutdowns[j]? with
  | some .entered =>
    if s.stop then some { s with shutdowns := s.shutdowns.set j .returned }
    else some { s with stop := true, shutdowns := s.shutdowns.set j (.requesting 0) }
  | some (.requesting k) =>
    if h : k < n then
      some { s with
        stopRequested := Function.update s.stopRequested ⟨k, h⟩ true
        shutdowns := s.shutdowns.set j (.requesting (k + 1)) }
    else some { s with shutdowns := s.shutdowns.set j (.joining 0) }
  | some (.joining k) =>
    if h : k < n then
      if s.workers ⟨k, h⟩ = .exited then
        some { s with shutdowns := s.shutdowns.set j (.joining (k + 1)) }
      else none
    else some { s with shutdowns := s.shutdowns.set j .finished }
  | _ => none

/-- One step of a producer, a worker or a call of `shutdown`. -/
def poolStep (s : PoolState n) : PoolEvent n → Option (PoolState n)
  | .enqueue => some { s with calls := s.calls ++ [.entered] }
  | .push i => pushStep capacity s i
  | .worker w => workerStep s w
  | .shutdown => some { s with shutdowns := s.shutdowns ++ [.entered] }
  | .advance j => shutdownStep s j

/-- The constructor. -/
def createPool : PoolState n where
  tasks := []
  stop := false
  stopRequested := fun _ => false
  workers := fun _ => .waiting
  activeWorkers := 0
  calls := []
  shutdowns := []
  accepted := []
  taken := []
  executed := []

/-! ## What holds of a state -/

/-- The queue is bounded; tasks are taken in the order in which they were accepted, and each by
one worker; a task is there exactly for each call that returns a future; a task is run at most
once; and when the first call of `shutdown` has returned, every one of them has been run. -/
structure PoolSafe (s : PoolState n) : Prop where
  bounded : s.tasks.length ≤ capacity
  fifo : s.accepted = s.taken.map Prod.snd ++ s.tasks
  accepted_nodup : s.accepted.Nodup
  accepted_iff : ∀ i, i ∈ s.accepted ↔ s.calls[i]? = some .queued
  executed_nodup : (s.executed.map Prod.snd).Nodup
  executed_subset : ∀ e ∈ s.executed, e ∈ s.taken
  drained : .finished ∈ s.shutdowns → s.tasks = [] ∧
    ∀ i, s.calls[i]? = some .queued → (s.executed.map Prod.snd).count i = 1

/-! ## The invariant -/

/-- The tasks in the hands of a worker. -/
def PoolWorker.batch : PoolWorker → List ℕ
  | .taken batch => batch
  | .running batch => batch
  | _ => []

/-- What the steps keep: every task that was accepted is in the queue or was taken, every task
that a worker has taken is in its hands or was run by it, workers leave only a stopped pool whose
queue is empty, and `shutdown` has joined what it says. -/
structure PoolInv (s : PoolState n) : Prop where
  bounded : s.tasks.length ≤ capacity
  fifo : s.accepted = s.taken.map Prod.snd ++ s.tasks
  accepted_nodup : s.accepted.Nodup
  accepted_iff : ∀ i, i ∈ s.accepted ↔ s.calls[i]? = some .queued
  work : ∀ w task,
    s.executed.count (w, task) + (s.workers w).batch.count task = s.taken.count (w, task)
  requested : ∀ w, s.stopRequested w = true → s.stop = true
  exited : ∀ w, s.workers w = .exited → s.stop = true ∧ s.tasks = []
  stopping : ∀ call ∈ s.shutdowns, call ≠ .entered → s.stop = true
  joining : ∀ k, .joining k ∈ s.shutdowns → ∀ w : Fin n, w.val < k → s.workers w = .exited
  finished : .finished ∈ s.shutdowns → ∀ w, s.workers w = .exited

namespace PoolInv

variable {capacity} {s s' : PoolState n} {i j : ℕ} {w : Fin n}

theorem create : PoolInv capacity (createPool : PoolState n) where
  bounded := Nat.zero_le _
  fifo := rfl
  accepted_nodup := List.nodup_nil
  accepted_iff := fun i => by simp [createPool]
  work := fun _ _ => rfl
  requested := fun _ h => by cases h
  exited := fun _ h => by cases h
  stopping := fun _ h => by cases h
  joining := fun _ h => by cases h
  finished := fun h => by cases h

/-- A new call of `enqueue`. -/
theorem enqueue (h : PoolInv capacity s) :
    PoolInv capacity { s with calls := s.calls ++ [.entered] } where
  bounded := h.bounded
  fifo := h.fifo
  accepted_nodup := h.accepted_nodup
  accepted_iff := by
    intro i
    rw [h.accepted_iff i]
    rcases Nat.lt_trichotomy i s.calls.length with hlt | heq | hgt
    · rw [List.getElem?_append_left hlt]
    · subst heq
      simp
    · rw [List.getElem?_eq_none (by omega), List.getElem?_eq_none (by simp; omega)]
  work := h.work
  requested := h.requested
  exited := h.exited
  stopping := h.stopping
  joining := h.joining
  finished := h.finished

/-- A call that was not accepted keeps the others as they are. -/
theorem accepted_iff_set (h : PoolInv capacity s) {call : PoolCall}
    (hcall : s.calls[i]? = some .entered) (k : ℕ) :
    (s.calls.set i call)[k]? = some .queued ↔
      k ∈ s.accepted ∨ k = i ∧ call = .queued := by
  rw [List.getElem?_set, h.accepted_iff k]
  by_cases hk : i = k
  · subst hk
    have hlt := (List.getElem?_eq_some_iff.mp hcall).1
    rw [if_pos rfl, if_pos hlt, hcall]
    simp
  · rw [if_neg hk]
    have hne : ¬ (k = i ∧ call = .queued) := fun heq => hk heq.1.symm
    simp [hne]

/-- The locked section of `enqueue`. -/
theorem push (h : PoolInv capacity s) (hs' : pushStep capacity s i = some s') :
    PoolInv capacity s' := by
  unfold pushStep at hs'
  split at hs'
  · next hcall =>
    have hnot : i ∉ s.accepted := by
      rw [h.accepted_iff i, hcall]
      exact fun heq => by cases heq
    split at hs'
    · obtain rfl := Option.some.inj hs'
      refine { h with accepted_iff := fun k => ?_ }
      show k ∈ s.accepted ↔ (s.calls.set i .threw)[k]? = _
      rw [h.accepted_iff_set hcall k]
      simp
    · next hrunning =>
      split at hs'
      · next hroom =>
        obtain rfl := Option.some.inj hs'
        refine { h with
          bounded := ?_, fifo := ?_, accepted_nodup := ?_, accepted_iff := fun k => ?_,
          exited := fun w hw => absurd (h.exited w hw).1 hrunning }
        · show (s.tasks ++ [i]).length ≤ capacity
          rw [List.length_append]
          exact hroom
        · show s.accepted ++ [i] = s.taken.map Prod.snd ++ (s.tasks ++ [i])
          rw [h.fifo, List.append_assoc]
        · show (s.accepted ++ [i]).Nodup
          refine List.nodup_append.mpr ⟨h.accepted_nodup, List.nodup_singleton i, ?_⟩
          rintro a ha b hb rfl
          exact hnot (List.mem_singleton.mp hb ▸ ha)
        · show k ∈ s.accepted ++ [i] ↔ (s.calls.set i .queued)[k]? = _
          rw [h.accepted_iff_set hcall k]
          simp
      · cases hs'
  · cases hs'

/-- What one worker takes or runs does not count for another. -/
theorem count_append_map (l : List (Fin n × ℕ)) (tasks : List ℕ) {w' : Fin n} (hne : w' ≠ w)
    (task : ℕ) : (l ++ tasks.map fun t => (w, t)).count (w', task) = l.count (w', task) := by
  have hnot : (w', task) ∉ tasks.map fun t => (w, t) := by
    intro hmem
    obtain ⟨t, -, heq⟩ := List.mem_map.mp hmem
    exact hne (Prod.mk.inj heq).1.symm
  rw [List.count_append, List.count_eq_zero_of_not_mem hnot, Nat.add_zero]

/-- A worker that does not leave is as gone as before. -/
theorem exited_update {workers : Fin n → PoolWorker} {worker : PoolWorker}
    (hw : workers w ≠ .exited) (hworker : worker ≠ .exited) (w' : Fin n) :
    Function.update workers w worker w' = .exited ↔ workers w' = .exited := by
  by_cases heq : w' = w
  · subst heq
    rw [Function.update_self]
    exact ⟨fun h => absurd h hworker, fun h => absurd h hw⟩
  · rw [Function.update_of_ne heq]

/-- What changes for the tasks in the hands of one worker. -/
theorem work_update (h : PoolInv capacity s) {worker : PoolWorker}
    {taken executed : List (Fin n × ℕ)}
    (hself : ∀ task, executed.count (w, task) + worker.batch.count task = taken.count (w, task))
    (hother : ∀ w' task, w' ≠ w → executed.count (w', task) = s.executed.count (w', task) ∧
      taken.count (w', task) = s.taken.count (w', task)) (w' : Fin n) (task : ℕ) :
    executed.count (w', task) + (Function.update s.workers w worker w').batch.count task =
      taken.count (w', task) := by
  by_cases heq : w' = w
  · subst heq
    rw [Function.update_self]
    exact hself task
  · rw [Function.update_of_ne heq, (hother w' task heq).1, (hother w' task heq).2]
    exact h.work w' task

/-- A worker that stays goes on with what it has. -/
theorem goOn (h : PoolInv capacity s) {worker : PoolWorker} {activeWorkers : ℕ}
    (hw : s.workers w ≠ .exited) (hworker : worker ≠ .exited)
    (hbatch : worker.batch = (s.workers w).batch) :
    PoolInv capacity { s with
      workers := Function.update s.workers w worker, activeWorkers := activeWorkers } :=
  { h with
    work := h.work_update (fun task => by rw [hbatch]; exact h.work w task)
      fun _ _ _ => ⟨rfl, rfl⟩
    exited := fun w' hw' => h.exited w' ((exited_update hw hworker w').mp hw')
    joining := fun k hk w' hlt => (exited_update hw hworker w').mpr (h.joining k hk w' hlt)
    finished := fun hfinished w' => (exited_update hw hworker w').mpr (h.finished hfinished w') }

/-- The locked section of a worker. -/
theorem take (h : PoolInv capacity s) (hw : s.workers w = .waiting)
    (hs' : takeStep s w = some s') : PoolInv capacity s' := by
  have hstays : s.workers w ≠ .exited := by rw [hw]; exact PoolWorker.noConfusion
  unfold takeStep at hs'
  split at hs'
  · split at hs'
    · next hleaves =>
      rw [Bool.and_eq_true, List.isEmpty_iff] at hleaves
      obtain rfl := Option.some.inj hs'
      have hstop : s.stop = true := by
        rcases Bool.or_eq_true_iff.mp hleaves.1 with hrequested | hstop
        · exact h.requested w hrequested
        · exact hstop
      have hexited : ∀ w', s.workers w' = .exited →
          Function.update s.workers w .exited w' = .exited := by
        intro w' hw'
        by_cases heq : w' = w
        · rw [heq, Function.update_self]
        · rw [Function.update_of_ne heq, hw']
      refine { h with
        work := h.work_update (fun task => ?_) fun _ _ _ => ⟨rfl, rfl⟩
        exited := fun _ _ => ⟨hstop, hleaves.2⟩
        joining := fun k hk w' hlt => hexited w' (h.joining k hk w' hlt)
        finished := fun hfinished w' => hexited w' (h.finished hfinished w') }
      have hwork := h.work w task
      rw [hw] at hwork
      exact hwork
    · obtain rfl := Option.some.inj hs'
      have hgone : ∀ w', Function.update s.workers w
          (.taken (s.tasks.take dequeueBatch)) w' = .exited ↔ s.workers w' = .exited :=
        exited_update hstays PoolWorker.noConfusion
      refine { h with
        bounded := ?_, fifo := ?_, work := h.work_update (fun task => ?_) fun w' task hne => ?_
        exited := fun w' hw' => ?_
        joining := fun k hk w' hlt => (hgone w').mpr (h.joining k hk w' hlt)
        finished := fun hfinished w' => (hgone w').mpr (h.finished hfinished w') }
      · show (s.tasks.drop dequeueBatch).length ≤ capacity
        rw [List.length_drop]
        exact Nat.le_trans (Nat.sub_le _ _) h.bounded
      · show s.accepted = (s.taken ++ _).map Prod.snd ++ s.tasks.drop dequeueBatch
        rw [List.map_append, List.map_map, List.append_assoc, h.fifo]
        congr 1
        simp [Function.comp_def]
      · have hwork := h.work w task
        rw [hw] at hwork
        rw [List.count_append, ← hwork,
          List.count_map_of_injective _ _ (fun _ _ heq => (Prod.mk.inj heq).2)]
        rfl
      · exact ⟨rfl, count_append_map s.taken (s.tasks.take dequeueBatch) hne task⟩
      · obtain ⟨hstop, htasks⟩ := h.exited w' ((hgone w').mp hw')
        refine ⟨hstop, ?_⟩
        show s.tasks.drop dequeueBatch = []
        rw [htasks, List.drop_nil]
  · cases hs'

/-- A step of a worker. -/
theorem worker (h : PoolInv capacity s) (hs' : workerStep s w = some s') :
    PoolInv capacity s' := by
  unfold workerStep at hs'
  cases hw : s.workers w with
  | waiting =>
    rw [hw] at hs'
    exact h.take hw hs'
  | taken batch =>
    rw [hw] at hs'
    obtain rfl := Option.some.inj hs'
    refine h.goOn ?_ PoolWorker.noConfusion ?_
    · rw [hw]
      exact PoolWorker.noConfusion
    · rw [hw]
      rfl
  | running batch =>
    rw [hw] at hs'
    have hstays : s.workers w ≠ .exited := by rw [hw]; exact PoolWorker.noConfusion
    cases batch with
    | nil =>
      obtain rfl := Option.some.inj hs'
      refine h.goOn hstays PoolWorker.noConfusion ?_
      rw [hw]
      rfl
    | cons task batch =>
      obtain rfl := Option.some.inj hs'
      have hgone : ∀ w', Function.update s.workers w (.running batch) w' = .exited ↔
          s.workers w' = .exited :=
        exited_update hstays PoolWorker.noConfusion
      refine { h with
        work := h.work_update (fun t => ?_) fun w' t hne => ⟨?_, rfl⟩
        exited := fun w' hw' => h.exited w' ((hgone w').mp hw')
        joining := fun k hk w' hlt => (hgone w').mpr (h.joining k hk w' hlt)
        finished := fun hfinished w' => (hgone w').mpr (h.finished hfinished w') }
      · have hwork := h.work w t
        rw [hw] at hwork
        simp only [PoolWorker.batch, List.count_cons] at hwork
        rw [List.count_append, ← hwork, List.count_singleton]
        by_cases ht : task = t
        · subst ht
          simp [PoolWorker.batch]
          omega
        · simp [PoolWorker.batch, ht]
      · exact count_append_map s.executed [task] hne t
  | exited =>
    rw [hw] at hs'
    cases hs'

/-- A call of `shutdown` goes on. -/
theorem setShutdown (h : PoolInv capacity s) {call : ShutdownCall} {stop : Bool}
    {stopRequested : Fin n → Bool} (hstop : stop = true)
    (hjoining : ∀ k, call = .joining k → ∀ w : Fin n, w.val < k → s.workers w = .exited)
    (hfinished : call = .finished → ∀ w, s.workers w = .exited) :
    PoolInv capacity { s with
      stop := stop, stopRequested := stopRequested, shutdowns := s.shutdowns.set j call } :=
  { h with
    requested := fun _ _ => hstop
    exited := fun w hw => ⟨hstop, (h.exited w hw).2⟩
    stopping := fun _ _ _ => hstop
    joining := by
      intro k hk
      rcases List.mem_or_eq_of_mem_set hk with hold | hnew
      · exact h.joining k hold
      · exact hjoining k hnew.symm
    finished := by
      intro hmem
      rcases List.mem_or_eq_of_mem_set hmem with hold | hnew
      · exact h.finished hold
      · exact hfinished hnew.symm }

theorem shutdown (h : PoolInv capacity s) (hs' : shutdownStep s j = some s') :
    PoolInv capacity s' := by
  unfold shutdownStep at hs'
  split at hs'
  · split at hs'
    · next hstop =>
      obtain rfl := Option.some.inj hs'
      exact h.setShutdown hstop (fun _ heq => by cases heq) fun heq => by cases heq
    · obtain rfl := Option.some.inj hs'
      exact h.setShutdown rfl (fun _ heq => by cases heq) fun heq => by cases heq
  · next k hcall =>
    have hstop := h.stopping _ (List.mem_of_getElem? hcall) ShutdownCall.noConfusion
    split at hs'
    · obtain rfl := Option.some.inj hs'
      exact h.setShutdown hstop (fun _ heq => by cases heq) fun heq => by cases heq
    · obtain rfl := Option.some.inj hs'
      refine h.setShutdown hstop (fun k' heq w hlt => ?_) fun heq => by cases heq
      obtain rfl := ShutdownCall.joining.inj heq
      exact absurd hlt (Nat.not_lt_zero _)
  · next k hcall =>
    have hstop := h.stopping _ (List.mem_of_getElem? hcall) ShutdownCall.noConfusion
    have hjoined := h.joining k (List.mem_of_getElem? hcall)
    split at hs'
    · next hk =>
      split at hs'
      · next hexited =>
        obtain rfl := Option.some.inj hs'
        refine h.setShutdown hstop (fun k' heq w hlt => ?_) fun heq => by cases heq
        obtain rfl := ShutdownCall.joining.inj heq
        rcases Nat.lt_succ_iff_lt_or_eq.mp hlt with hbefore | heq'
        · exact hjoined w hbefore
        · rw [← hexited]
          exact congrArg s.workers (Fin.ext heq')
      · cases hs'
    · next hall =>
      obtain rfl := Option.some.inj hs'
      refine h.setShutdown hstop (fun _ heq => by cases heq) fun _ w => hjoined w ?_
      omega
  · cases hs'

theorem step {e : PoolEvent n} (h : PoolInv capacity s) (hs' : poolStep capacity s e = some s') :
    PoolInv capacity s' := by
  cases e with
  | enqueue =>
    obtain rfl := Option.some.inj hs'
    exact h.enqueue
  | push i => exact h.push hs'
  | worker w => exact h.worker hs'
  | shutdown =>
    obtain rfl := Option.some.inj hs'
    have hnew : ∀ call, call ∈ s.shutdowns ++ [.entered] → call ≠ .entered →
        call ∈ s.shutdowns := by
      intro call hmem hne
      rcases List.mem_append.mp hmem with hold | hlast
      · exact hold
      · exact absurd (List.mem_singleton.mp hlast) hne
    exact { h with
      stopping := fun call hcall hne => h.stopping call (hnew call hcall hne) hne
      joining := fun k hk => h.joining k (hnew _ hk ShutdownCall.noConfusion)
      finished := fun hk => h.finished (hnew _ hk ShutdownCall.noConfusion) }
  | advance j => exact h.shutdown hs'

/-- What was run was taken by the same worker, and so often. -/
theorem executed_subperm (h : PoolInv capacity s) : s.executed.Subperm s.taken := by
  refine List.subperm_ext_iff.mpr fun e _ => ?_
  have hwork : s.executed.count e + (s.workers e.1).batch.count e.2 = s.taken.count e :=
    h.work e.1 e.2
  omega

theorem taken_nodup (h : PoolInv capacity s) : (s.taken.map Prod.snd).Nodup := by
  have hnodup := h.accepted_nodup
  rw [h.fifo] at hnodup
  exact (List.nodup_append.mp hnodup).1

theorem executed_nodup (h : PoolInv capacity s) : (s.executed.map Prod.snd).Nodup := by
  obtain ⟨l, hperm, hsub⟩ := h.executed_subperm
  exact (hperm.map Prod.snd).nodup_iff.mp (h.taken_nodup.sublist (hsub.map _))

/-- When all workers are gone, everything was run. -/
theorem drained (h : PoolInv capacity s) (hn : 0 < n) (hexited : ∀ w, s.workers w = .exited) :
    s.tasks = [] ∧ ∀ i, s.calls[i]? = some .queued → (s.executed.map Prod.snd).count i = 1 := by
  have htasks : s.tasks = [] := (h.exited ⟨0, hn⟩ (hexited _)).2
  have hperm : s.executed.Perm s.taken := by
    refine List.perm_iff_count.mpr fun e => ?_
    have hwork := h.work e.1 e.2
    rw [hexited] at hwork
    exact hwork
  refine ⟨htasks, fun i hcall => ?_⟩
  have haccepted : s.accepted = s.taken.map Prod.snd := by
    rw [h.fifo, htasks, List.append_nil]
  rw [(hperm.map Prod.snd).count_eq, ← haccepted]
  exact List.count_eq_one_of_mem h.accepted_nodup ((h.accepted_iff i).mpr hcall)

theorem safe (h : PoolInv capacity s) (hn : 0 < n) : PoolSafe capacity s where
  bounded := h.bounded
  fifo := h.fifo
  accepted_nodup := h.accepted_nodup
  accepted_iff := h.accepted_iff
  executed_nodup := h.executed_nodup
  executed_subset := fun _ he => h.executed_subperm.subset he
  drained := fun hfinished => h.drained hn (h.finished hfinished)

end PoolInv

/-- For every number of workers, every bound of the queue and every order of the steps. -/
theorem pool_safe (threads maxQueueSize : ℕ) (hthreads : 0 < threads)
    (es : List (PoolEvent threads)) :
    Always (poolStep (effectiveQueueCapacity threads maxQueueSize))
      (PoolSafe (effectiveQueueCapacity threads maxQueueSize)) createPool es :=
  always_of_step (fun _ _ _ h hs' => PoolInv.step h hs') (fun _ h => h.safe hthreads)
    PoolInv.create es

/-- A task that is queued when the shutdown begins, with one worker. -/
def queuedAtShutdown : List (PoolEvent 1) :=
  [.enqueue, .push 0, .shutdown, .advance 0, .advance 0, .advance 0] ++
    List.replicate 5 (.worker ⟨0, Nat.one_pos⟩) ++ [.advance 0, .advance 0]

theorem safe_of_queuedAtShutdown :
    (run (poolStep (effectiveQueueCapacity 1 0)) createPool queuedAtShutdown).map
        (fun s => (s.shutdowns, s.executed)) = some ([.finished], [(0, 0)]) ∧
      Always (poolStep (effectiveQueueCapacity 1 0)) (PoolSafe (effectiveQueueCapacity 1 0))
        createPool queuedAtShutdown :=
  ⟨by decide +kernel, pool_safe 1 0 Nat.one_pos queuedAtShutdown⟩

/-! ## The end of a shutdown -/

variable {capacity} {s s' : PoolState n} {j : ℕ}

/-- What is left to do for a worker in a stopped pool. -/
def PoolWorker.weight : PoolWorker → ℕ
  | .waiting => 1
  | .taken batch => batch.length + 3
  | .running batch => batch.length + 2
  | .exited => 0

/-- What is left to do for a call of `shutdown`. -/
def ShutdownCall.weight (threads : ℕ) : ShutdownCall → ℕ
  | .entered => 2 * threads + 4
  | .requesting k => (threads - k) + threads + 3
  | .joining k => (threads - k) + 1
  | .finished => 0
  | .returned => 0

/-- What is left to do in the queue and for the workers. -/
def workLeft (s : PoolState n) : ℕ := 4 * s.tasks.length + ∑ w, (s.workers w).weight

theorem workLeft_update {tasks : List ℕ} {w : Fin n} {worker : PoolWorker}
    (hworker : 4 * tasks.length + worker.weight < 4 * s.tasks.length + (s.workers w).weight) :
    4 * tasks.length + ∑ w', (Function.update s.workers w worker w').weight < workLeft s := by
  have hsum := Counting.sum_update_add PoolWorker.weight s.workers w worker
  unfold workLeft
  omega

/-- In a stopped pool a worker that has not left can go on, and has less to do then. -/
theorem worker_goes_on (hstop : s.stop = true) {w : Fin n} (hw : s.workers w ≠ .exited) :
    ∃ s', workerStep s w = some s' ∧ workLeft s' < workLeft s ∧ s'.shutdowns = s.shutdowns := by
  unfold workerStep
  cases hworker : s.workers w with
  | waiting =>
    simp only [takeStep, hstop, Bool.or_true, Bool.true_or, Bool.true_and, if_true]
    cases htasks : s.tasks with
    | nil =>
      refine ⟨_, if_pos rfl, workLeft_update ?_, rfl⟩
      rw [hworker, htasks]
      exact Nat.lt_succ_self _
    | cons task tasks =>
      refine ⟨_, if_neg Bool.false_ne_true, workLeft_update ?_, rfl⟩
      have htake : 1 ≤ ((task :: tasks).take dequeueBatch).length := by
        simp [dequeueBatch]
      have hsplit : ((task :: tasks).take dequeueBatch).length +
          ((task :: tasks).drop dequeueBatch).length = (task :: tasks).length := by
        rw [← List.length_append, List.take_append_drop]
      rw [hworker, htasks]
      simp only [PoolWorker.weight]
      omega
  | taken batch =>
    refine ⟨_, rfl, workLeft_update ?_, rfl⟩
    rw [hworker]
    exact Nat.lt_succ_self _
  | running batch =>
    cases batch with
    | nil =>
      refine ⟨_, rfl, workLeft_update ?_, rfl⟩
      rw [hworker]
      exact Nat.lt_succ_self _
    | cons task batch =>
      refine ⟨_, rfl, workLeft_update ?_, rfl⟩
      rw [hworker]
      exact Nat.lt_succ_self _
  | exited => exact absurd hworker hw

/-- A call of `shutdown` that has not returned can go on, or waits for a worker that can. -/
theorem shutdown_goes_on (h : PoolInv capacity s) {call : ShutdownCall}
    (hcall : s.shutdowns[j]? = some call) (hfinished : call ≠ .finished)
    (hreturned : call ≠ .returned) :
    ∃ e s' call', poolStep capacity s e = some s' ∧ s'.shutdowns[j]? = some call' ∧
      workLeft s' + call'.weight n < workLeft s + call.weight n := by
  have hlt := (List.getElem?_eq_some_iff.mp hcall).1
  have hset : ∀ call', (s.shutdowns.set j call')[j]? = some call' :=
    fun call' => List.getElem?_set_self hlt
  have hadvance : ∀ s' call', shutdownStep s j = some s' → s'.shutdowns = s.shutdowns.set j call' →
      workLeft s' = workLeft s → call'.weight n < call.weight n →
      ∃ e s' call', poolStep capacity s e = some s' ∧ s'.shutdowns[j]? = some call' ∧
        workLeft s' + call'.weight n < workLeft s + call.weight n := by
    intro s' call' hs' hshutdowns hwork hweight
    refine ⟨.advance j, s', call', hs', by rw [hshutdowns, hset], ?_⟩
    omega
  cases call with
  | entered =>
    cases hstop : s.stop with
    | true =>
      have hs' : shutdownStep s j = some { s with shutdowns := s.shutdowns.set j .returned } := by
        simp only [shutdownStep, hcall, hstop, if_true]
      exact hadvance _ .returned hs' rfl rfl (Nat.succ_pos _)
    | false =>
      have hs' : shutdownStep s j =
          some { s with stop := true, shutdowns := s.shutdowns.set j (.requesting 0) } := by
        simp only [shutdownStep, hcall, hstop, Bool.false_eq_true, if_false]
      refine hadvance _ (.requesting 0) hs' rfl rfl ?_
      simp only [ShutdownCall.weight]
      omega
  | requesting k =>
    by_cases hk : k < n
    · have hs' : shutdownStep s j =
          some { s with
            stopRequested := Function.update s.stopRequested ⟨k, hk⟩ true
            shutdowns := s.shutdowns.set j (.requesting (k + 1)) } := by
        simp only [shutdownStep, hcall, dif_pos hk]
      refine hadvance _ (.requesting (k + 1)) hs' rfl rfl ?_
      simp only [ShutdownCall.weight]
      omega
    · have hs' : shutdownStep s j =
          some { s with shutdowns := s.shutdowns.set j (.joining 0) } := by
        simp only [shutdownStep, hcall, dif_neg hk]
      refine hadvance _ (.joining 0) hs' rfl rfl ?_
      simp only [ShutdownCall.weight]
      omega
  | joining k =>
    have hstop := h.stopping _ (List.mem_of_getElem? hcall) ShutdownCall.noConfusion
    by_cases hk : k < n
    · by_cases hexited : s.workers ⟨k, hk⟩ = .exited
      · have hs' : shutdownStep s j =
            some { s with shutdowns := s.shutdowns.set j (.joining (k + 1)) } := by
          simp only [shutdownStep, hcall, dif_pos hk, if_pos hexited]
        refine hadvance _ (.joining (k + 1)) hs' rfl rfl ?_
        simp only [ShutdownCall.weight]
        omega
      · obtain ⟨s', hs', hwork, hshutdowns⟩ := worker_goes_on hstop hexited
        refine ⟨.worker ⟨k, hk⟩, s', .joining k, hs', by rw [hshutdowns, hcall], ?_⟩
        omega
    · have hs' : shutdownStep s j = some { s with shutdowns := s.shutdowns.set j .finished } := by
        simp only [shutdownStep, hcall, dif_neg hk]
      exact hadvance _ .finished hs' rfl rfl (Nat.succ_pos _)
  | finished => exact absurd rfl hfinished
  | returned => exact absurd rfl hreturned

/-- In every state of a run every call of `shutdown` can still return. -/
theorem shutdown_returns (capacity : ℕ) (es : List (PoolEvent n)) :
    Always (poolStep capacity)
      (fun s => ∀ (j : ℕ) (call : ShutdownCall), s.shutdowns[j]? = some call →
        ∃ es' s', run (poolStep capacity) s es' = some s' ∧
          (s'.shutdowns[j]? = some .finished ∨ s'.shutdowns[j]? = some .returned))
      createPool es := by
  refine always_of_step (fun _ _ _ h hs' => PoolInv.step h hs') (fun s h j call hcall => ?_)
    PoolInv.create es
  -- by induction on what is left to do
  induction hleft : workLeft s + call.weight n using Nat.strong_induction_on
    generalizing s call with
  | _ left ih =>
    by_cases hfinished : call = .finished
    · exact ⟨[], s, rfl, .inl (hfinished ▸ hcall)⟩
    by_cases hreturned : call = .returned
    · exact ⟨[], s, rfl, .inr (hreturned ▸ hcall)⟩
    obtain ⟨e, s', call', hs', hcall', hless⟩ := shutdown_goes_on h hcall hfinished hreturned
    obtain ⟨es', t, hrun, ht⟩ := ih _ (hleft ▸ hless) s' (h.step hs') call' hcall' rfl
    exact ⟨e :: es', t, (run_cons_of_step hs' es').trans hrun, ht⟩

end Worker
end HttpDataDiod
