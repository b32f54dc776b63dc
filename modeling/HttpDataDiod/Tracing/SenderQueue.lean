import HttpDataDiod.Lib.Ticket
import HttpDataDiod.Lib.Transition

/-!
# The queue of the delivery threads

Model of `async_sender_queue.hpp`: request threads push items, one delivery thread takes
them in batches and marks each batch as processed, and `flush` waits for the count of
pending items to fall to zero.  The count goes up and down in four operations, two of which
stop at zero instead of going below it.

A step is one section under the mutex.  Every push gets a number, so that items can be
followed through the queue even where they are equal.

* `AsyncSenderQueue`: the queue, behind its mutex.
* `queueStep`: pushes, the delivery thread and `flush`, in any order.
* `queue_safe`: the count is exact, the queue is bounded, nothing is lost, doubled or
  reordered, every drop is reported, and `flush` waits for everything.
-/

namespace HttpDataDiod
namespace Tracing

open Transition Ticket

/-! ## The queue -/

/-- `OverflowPolicy`. -/
inductive OverflowPolicy where
  | dropOldest
  | dropNewest
  deriving DecidableEq

/-- `PushOutcome`. -/
structure PushOutcome where
  accepted : Bool
  dropped : Bool
  size : ℕ

/-- `TakeResult`. -/
inductive TakeResult where
  | batch
  | idle
  | stopped

/-- `AsyncSenderQueue`, behind its mutex. -/
structure AsyncSenderQueue (Item : Type) where
  maxQueueSize : ℕ
  policy : OverflowPolicy
  queue : List Item
  pending : ℕ

namespace AsyncSenderQueue

variable {Item : Type}

/-- The constructor. -/
def create (maxQueueSize : ℕ) (policy : OverflowPolicy) : AsyncSenderQueue Item where
  maxQueueSize := if maxQueueSize = 0 then 1 else maxQueueSize
  policy := policy
  queue := []
  pending := 0

/-- `push`. -/
def push (q : AsyncSenderQueue Item) (item : Item) : PushOutcome × AsyncSenderQueue Item :=
  if q.maxQueueSize ≤ q.queue.length then
    match q.policy with
    | .dropOldest =>
      ({ accepted := true, dropped := true, size := (q.queue.tail ++ [item]).length },
        { q with queue := q.queue.tail ++ [item], pending := q.pending - 1 + 1 })
    | .dropNewest => ({ accepted := false, dropped := true, size := q.queue.length }, q)
  else
    ({ accepted := true, dropped := false, size := (q.queue ++ [item]).length },
      { q with queue := q.queue ++ [item], pending := q.pending + 1 })

/-- `wait_and_take`, from the end of the wait on. -/
def waitAndTake (q : AsyncSenderQueue Item) (stopRequested : Bool) (maxBatch : ℕ)
    (drainOnStop : Bool) : TakeResult × List Item × AsyncSenderQueue Item :=
  if q.queue.isEmpty then (if stopRequested then .stopped else .idle, [], q)
  else if stopRequested && !drainOnStop then (.stopped, [], q)
  else (.batch, q.queue.take maxBatch, { q with queue := q.queue.drop maxBatch })

/-- `mark_processed`. -/
def markProcessed (q : AsyncSenderQueue Item) (count : ℕ) : AsyncSenderQueue Item :=
  { q with pending := if count ≤ q.pending then q.pending - count else 0 }

/-- `drain`. -/
def drain (q : AsyncSenderQueue Item) : List Item × AsyncSenderQueue Item :=
  (q.queue,
    { q with
      queue := []
      pending := if q.queue.length ≤ q.pending then q.pending - q.queue.length else 0 })

end AsyncSenderQueue

/-! ## The threads -/

variable {Item : Type}

/-- A call of `push`: its item, what it answered, what was in the queue in front of it or came
in with it and is not in the queue behind it, and the length it left. -/
structure PushRecord (Item : Type) where
  item : ℕ × Item
  outcome : PushOutcome
  dropped : List (ℕ × Item)
  left : ℕ

/-- The queue, the batch that the delivery thread has in hand, whether it has drained the
queue for good, the calls of `push` so far, and the items that were taken and those that were
marked as processed or drained, all in order. -/
structure QueueRun (Item : Type) where
  queue : AsyncSenderQueue (ℕ × Item)
  inHand : List (ℕ × Item)
  ended : Bool
  pushes : List (PushRecord Item)
  taken : List (ℕ × Item)
  processed : List (ℕ × Item)

/-- The sections under the mutex. -/
inductive QueueEvent (Item : Type) where
  | push (item : Item)
  | take (stopRequested : Bool) (maxBatch : ℕ) (drainOnStop : Bool)
  | markProcessed
  | drain
  | flush

/-- A new queue. -/
def initialQueue (maxQueueSize : ℕ) (policy : OverflowPolicy) : QueueRun Item where
  queue := .create maxQueueSize policy
  inHand := []
  ended := false
  pushes := []
  taken := []
  processed := []

namespace QueueRun

variable (s : QueueRun Item)

/-- The record of a push. -/
def record (item : Item) : PushRecord Item :=
  let x := (s.pushes.length, item)
  let r := s.queue.push x
  { item := x
    outcome := r.1
    dropped := without (s.queue.queue ++ [x]) r.2.queue
    left := r.2.queue.length }

/-- The items that were accepted. -/
def accepted : List (ℕ × Item) := (s.pushes.filter fun p => p.outcome.accepted).map PushRecord.item

/-- The items that were dropped because of an overflow. -/
def dropped : List (ℕ × Item) := s.pushes.flatMap PushRecord.dropped

end QueueRun

/-- One section.  The delivery thread takes a batch when it has marked the one before, and
drains the queue at the end; `flush` returns when nothing is pending. -/
def queueStep (s : QueueRun Item) : QueueEvent Item → Option (QueueRun Item)
  | .push item =>
    some { s with
      queue := (s.queue.push (s.pushes.length, item)).2
      pushes := s.pushes ++ [s.record item] }
  | .take stopRequested maxBatch drainOnStop =>
    if s.ended = false ∧ s.inHand = [] then
      let r := s.queue.waitAndTake stopRequested maxBatch drainOnStop
      some { s with queue := r.2.2, inHand := r.2.1, taken := s.taken ++ r.2.1 }
    else none
  | .markProcessed =>
    if s.ended = false then
      some { s with
        queue := s.queue.markProcessed s.inHand.length
        inHand := []
        processed := s.processed ++ s.inHand }
    else none
  | .drain =>
    if s.ended = false ∧ s.inHand = [] then
      some { s with
        queue := s.queue.drain.2
        ended := true
        taken := s.taken ++ s.queue.drain.1
        processed := s.processed ++ s.queue.drain.1 }
    else none
  | .flush => if s.queue.pending = 0 then some s else none

/-! ## Safety -/

/-- A call of `push` says what it dropped: nothing, the item itself, which was then not
accepted, or another one. -/
structure PushRecord.Reported (policy : OverflowPolicy) (p : PushRecord Item) : Prop where
  dropped_iff : p.outcome.dropped = true ↔ p.dropped ≠ []
  refused_iff : p.outcome.accepted = false ↔ p.dropped = [p.item]
  dropped_le : p.dropped.length ≤ 1
  accepted : policy = .dropOldest → p.outcome.accepted = true
  size : p.outcome.size = p.left

/-- The queue is as it should be. -/
structure QueueSafe (maxQueueSize : ℕ) (policy : OverflowPolicy) (s : QueueRun Item) : Prop where
  pending : s.queue.pending = s.queue.queue.length + s.inHand.length
  bounded : s.queue.queue.length ≤ max 1 maxQueueSize
  numbered : s.pushes.map (fun p => p.item.1) = List.range s.pushes.length
  order : without s.accepted s.dropped = s.taken ++ s.queue.queue
  reported : ∀ p ∈ s.pushes, p.Reported policy
  processed : s.taken = s.processed ++ s.inHand
  flushed : (queueStep s .flush).isSome = true → without s.accepted s.dropped = s.processed

/-! ## The operations -/

namespace AsyncSenderQueue

variable (q : AsyncSenderQueue Item)

/-- The ways through `push`. -/
theorem push_cases (hpos : 0 < q.maxQueueSize) (x : Item) :
    (q.queue.length < q.maxQueueSize ∧
      q.push x = ({ accepted := true, dropped := false, size := (q.queue ++ [x]).length },
        { q with queue := q.queue ++ [x], pending := q.pending + 1 })) ∨
    (q.maxQueueSize ≤ q.queue.length ∧ q.policy = .dropOldest ∧
      ∃ y rest, q.queue = y :: rest ∧
        q.push x = ({ accepted := true, dropped := true, size := (rest ++ [x]).length },
          { q with queue := rest ++ [x], pending := q.pending - 1 + 1 })) ∨
    (q.policy = .dropNewest ∧
      q.push x = ({ accepted := false, dropped := true, size := q.queue.length }, q)) := by
  unfold push
  split
  · next hfull =>
    right
    cases hpolicy : q.policy with
    | dropOldest =>
      left
      cases hqueue : q.queue with
      | nil =>
        rw [hqueue, List.length_nil] at hfull
        omega
      | cons y rest => exact ⟨hqueue ▸ hfull, rfl, y, rest, rfl, rfl⟩
    | dropNewest => exact .inr ⟨rfl, rfl⟩
  · next hfree => exact .inl ⟨Nat.lt_of_not_le hfree, rfl⟩

/-- The ways through `wait_and_take`: nothing is taken, or a batch is. -/
theorem waitAndTake_cases (stopRequested : Bool) (maxBatch : ℕ) (drainOnStop : Bool) :
    (∃ result, result ≠ .batch ∧
      q.waitAndTake stopRequested maxBatch drainOnStop = (result, [], q)) ∨
    q.waitAndTake stopRequested maxBatch drainOnStop =
      (.batch, q.queue.take maxBatch, { q with queue := q.queue.drop maxBatch }) := by
  unfold waitAndTake
  split
  · left
    cases stopRequested with
    | true => exact ⟨.stopped, TakeResult.noConfusion, rfl⟩
    | false => exact ⟨.idle, TakeResult.noConfusion, rfl⟩
  · split
    · exact .inl ⟨.stopped, TakeResult.noConfusion, rfl⟩
    · exact .inr rfl

/-- What is taken is the beginning of the queue. -/
theorem waitAndTake_spec (stopRequested : Bool) (maxBatch : ℕ) (drainOnStop : Bool) :
    ∃ rest, q.queue = (q.waitAndTake stopRequested maxBatch drainOnStop).2.1 ++ rest ∧
      (q.waitAndTake stopRequested maxBatch drainOnStop).2.2 = { q with queue := rest } := by
  rcases q.waitAndTake_cases stopRequested maxBatch drainOnStop with ⟨result, -, htake⟩ | htake
  · rw [htake]
    exact ⟨q.queue, rfl, rfl⟩
  · rw [htake]
    exact ⟨q.queue.drop maxBatch, (List.take_append_drop maxBatch q.queue).symm, rfl⟩

end AsyncSenderQueue

/-! ## The invariant -/

/-- What the sections keep. -/
structure QueueInv (maxQueueSize : ℕ) (policy : OverflowPolicy) (s : QueueRun Item) : Prop where
  capacity : s.queue.maxQueueSize = max 1 maxQueueSize
  policy_eq : s.queue.policy = policy
  pending : s.queue.pending = s.queue.queue.length + s.inHand.length
  bounded : s.queue.queue.length ≤ max 1 maxQueueSize
  numbered : s.pushes.map (fun p => p.item.1) = List.range s.pushes.length
  accepted : Ticketed s.accepted s.pushes.length
  dropped : ∀ x ∈ s.dropped, x.1 < s.pushes.length
  order : without s.accepted s.dropped = s.taken ++ s.queue.queue
  reported : ∀ p ∈ s.pushes, p.Reported policy
  processed : s.taken = s.processed ++ s.inHand

theorem queueInv_initial (maxQueueSize : ℕ) (policy : OverflowPolicy) :
    QueueInv maxQueueSize policy (initialQueue maxQueueSize policy : QueueRun Item) where
  capacity := by
    show (if maxQueueSize = 0 then 1 else maxQueueSize) = max 1 maxQueueSize
    split <;> omega
  policy_eq := rfl
  pending := rfl
  bounded := Nat.zero_le _
  numbered := rfl
  accepted := ticketed_nil 0
  dropped := List.forall_mem_nil _
  order := rfl
  reported := List.forall_mem_nil _
  processed := rfl

namespace QueueInv

variable {maxQueueSize : ℕ} {policy : OverflowPolicy} {s : QueueRun Item}

/-- What has come through or is queued was accepted. -/
theorem ticketed_order (h : QueueInv maxQueueSize policy s) :
    Ticketed (s.taken ++ s.queue.queue) s.pushes.length :=
  h.order ▸ h.accepted.sublist (without_sublist _ _)

theorem ticketed_queue (h : QueueInv maxQueueSize policy s) :
    Ticketed s.queue.queue s.pushes.length :=
  h.ticketed_order.sublist (List.sublist_append_right _ _)

/-- The number of the next push is new. -/
theorem notMem_dropped (h : QueueInv maxQueueSize policy s) :
    s.pushes.length ∉ s.dropped.map Prod.fst := by
  intro hmem
  obtain ⟨x, hx, heq⟩ := List.mem_map.mp hmem
  have hlt := h.dropped x hx
  omega

/-- What a push comes to, with what it really dropped. -/
theorem record_cases (h : QueueInv maxQueueSize policy s) (item : Item) :
    let x := (s.pushes.length, item)
    let q := (s.queue.push x).2
    (s.queue.queue.length < max 1 maxQueueSize ∧
      s.record item = ⟨x, ⟨true, false, q.queue.length⟩, [], q.queue.length⟩ ∧
      q = { s.queue with queue := s.queue.queue ++ [x], pending := s.queue.pending + 1 }) ∨
    (∃ y rest, s.queue.queue = y :: rest ∧
      s.record item = ⟨x, ⟨true, true, q.queue.length⟩, [y], q.queue.length⟩ ∧
      q = { s.queue with queue := rest ++ [x], pending := s.queue.pending - 1 + 1 }) ∨
    (policy = .dropNewest ∧
      s.record item = ⟨x, ⟨false, true, q.queue.length⟩, [x], q.queue.length⟩ ∧ q = s.queue) := by
  intro x q
  have hpos : 0 < s.queue.maxQueueSize := by
    rw [h.capacity]
    omega
  have hnodup : ((s.queue.queue ++ [x]).map Prod.fst).Nodup := (h.ticketed_queue.snoc item).nodup
  have hrecord : s.record item =
      ⟨x, (s.queue.push x).1, without (s.queue.queue ++ [x]) q.queue, q.queue.length⟩ := rfl
  rcases s.queue.push_cases hpos x with
    ⟨hfree, hpush⟩ | ⟨hfull, hpolicy, y, rest, hqueue, hpush⟩ | ⟨hpolicy, hpush⟩
  · left
    have hq : q = _ := congrArg Prod.snd hpush
    have hlost : without (s.queue.queue ++ [x]) q.queue = [] := by
      rw [hq, without_self]
    rw [h.capacity] at hfree
    refine ⟨hfree, ?_, hq⟩
    rw [hrecord, hlost, hpush, hq]
  · right; left
    have hq : q = _ := congrArg Prod.snd hpush
    have hlost : without (s.queue.queue ++ [x]) q.queue = [y] := by
      rw [hqueue, List.cons_append, List.map_cons, List.nodup_cons] at hnodup
      have hy : without [y] (rest ++ [x]) = [y] :=
        without_eq_self (List.forall_mem_singleton.mpr hnodup.1)
      rw [hq, hqueue, List.cons_append, ← List.singleton_append, without_append, without_self, hy]
      rfl
    refine ⟨y, rest, hqueue, ?_, hq⟩
    rw [hrecord, hlost, hpush, hq]
  · right; right
    have hq : q = s.queue := congrArg Prod.snd hpush
    have hlost : without (s.queue.queue ++ [x]) q.queue = [x] := by
      have hx : without [x] s.queue.queue = [x] :=
        without_eq_self (List.forall_mem_singleton.mpr h.ticketed_queue.fresh)
      rw [hq, without_append, without_self, hx]
      rfl
    refine ⟨h.policy_eq.symm.trans hpolicy, ?_, hq⟩
    rw [hrecord, hlost, hpush, hq]

/-- The lists of a run after a push. -/
theorem accepted_push (s : QueueRun Item) (p : PushRecord Item) (q : AsyncSenderQueue (ℕ × Item)) :
    QueueRun.accepted { s with queue := q, pushes := s.pushes ++ [p] } =
      s.accepted ++ if p.outcome.accepted then [p.item] else [] := by
  unfold QueueRun.accepted
  rw [List.filter_append, List.map_append]
  cases hp : p.outcome.accepted <;> simp [hp]

theorem dropped_push (s : QueueRun Item) (p : PushRecord Item) (q : AsyncSenderQueue (ℕ × Item)) :
    QueueRun.dropped { s with queue := q, pushes := s.pushes ++ [p] } = s.dropped ++ p.dropped := by
  unfold QueueRun.dropped
  rw [List.flatMap_append, List.flatMap_singleton]

/-- What a push has to see to: the queue it leaves, and the order with what it dropped. -/
theorem pushed (h : QueueInv maxQueueSize policy s) {item : Item} {p : PushRecord Item}
    {queue : List (ℕ × Item)} {pending : ℕ} (hitem : p.item = (s.pushes.length, item))
    (hpending : pending = queue.length + s.inHand.length)
    (hbounded : queue.length ≤ max 1 maxQueueSize)
    (hdropped : ∀ x ∈ p.dropped, x.1 < s.pushes.length + 1)
    (horder : without (s.accepted ++ if p.outcome.accepted then [p.item] else [])
      (s.dropped ++ p.dropped) = s.taken ++ queue)
    (hreported : p.Reported policy) :
    QueueInv maxQueueSize policy { s with
      queue := { s.queue with queue := queue, pending := pending }
      pushes := s.pushes ++ [p] } where
  capacity := h.capacity
  policy_eq := h.policy_eq
  pending := hpending
  bounded := hbounded
  numbered := by
    rw [List.map_append, h.numbered, List.map_singleton, hitem, List.length_append,
      List.length_singleton, List.range_succ]
  accepted := by
    rw [accepted_push, hitem]
    show Ticketed _ (s.pushes ++ [p]).length
    rw [List.length_append, List.length_singleton]
    split
    · exact h.accepted.snoc item
    · rw [List.append_nil]
      exact h.accepted.later
  dropped := by
    rw [dropped_push]
    show ∀ x ∈ s.dropped ++ p.dropped, x.1 < (s.pushes ++ [p]).length
    rw [List.length_append, List.length_singleton]
    exact List.forall_mem_append.mpr ⟨fun x hx => Nat.lt_succ_of_lt (h.dropped x hx), hdropped⟩
  order := by
    rw [accepted_push, dropped_push]
    exact horder
  reported := List.forall_mem_append.mpr ⟨h.reported, List.forall_mem_singleton.mpr hreported⟩
  processed := h.processed

/-- **A push.** -/
theorem push (h : QueueInv maxQueueSize policy s) (item : Item) :
    QueueInv maxQueueSize policy { s with
      queue := (s.queue.push (s.pushes.length, item)).2
      pushes := s.pushes ++ [s.record item] } := by
  have hnew : without [(s.pushes.length, item)] s.dropped = [(s.pushes.length, item)] :=
    without_eq_self (List.forall_mem_singleton.mpr h.notMem_dropped)
  have hpending := h.pending
  have hbounded := h.bounded
  rcases h.record_cases item with
    ⟨hfree, hrecord, hq⟩ | ⟨y, rest, hqueue, hrecord, hq⟩ | ⟨hpolicy, hrecord, hq⟩
  · rw [hrecord, hq]
    refine h.pushed rfl ?_ ?_ (List.forall_mem_nil _) ?_ ?_
    · rw [List.length_append, List.length_singleton]
      omega
    · rw [List.length_append, List.length_singleton]
      omega
    · rw [if_pos rfl, List.append_nil, without_append, h.order, hnew, List.append_assoc]
    · exact ⟨by simp, by simp, Nat.zero_le 1, fun _ => rfl, rfl⟩
  · -- the oldest item makes room
    have hall : ((s.taken ++ y :: (rest ++ [(s.pushes.length, item)])).map Prod.fst).Nodup := by
      have := (h.ticketed_order.snoc item).nodup
      rwa [hqueue, List.append_assoc, List.cons_append] at this
    have hy : y.1 < s.pushes.length :=
      h.ticketed_queue.lt_next y (by rw [hqueue]; exact List.mem_cons_self)
    rw [hqueue, List.length_cons] at hpending hbounded
    rw [hrecord, hq]
    refine h.pushed rfl ?_ ?_ ?_ ?_ ?_
    · rw [List.length_append, List.length_singleton]
      omega
    · rw [List.length_append, List.length_singleton]
      exact hbounded
    · exact List.forall_mem_singleton.mpr (Nat.lt_succ_of_lt hy)
    · rw [if_pos rfl, without_append_dropped, without_append, h.order, hnew, hqueue,
        List.append_assoc, List.cons_append, without_singleton hall]
    · have hne : y ≠ (s.pushes.length, item) := by
        rintro rfl
        exact Nat.lt_irrefl _ hy
      exact ⟨by simp, by simp [hne], Nat.le_refl 1, fun _ => rfl, rfl⟩
  · -- the new item is not accepted
    rw [hrecord, hq]
    refine h.pushed rfl hpending hbounded ?_ ?_ ?_
    · exact List.forall_mem_singleton.mpr (Nat.lt_succ_self _)
    · have hfresh : s.pushes.length ∉ (s.taken ++ s.queue.queue).map Prod.fst :=
        h.ticketed_order.fresh
      rw [if_neg Bool.false_ne_true, List.append_nil, without_append_dropped, h.order,
        without_singleton_of_notMem hfresh]
    · have hnever : policy ≠ .dropOldest := by
        rw [hpolicy]
        exact OverflowPolicy.noConfusion
      exact ⟨by simp, by simp, Nat.le_refl 1, fun hold => absurd hold hnever, rfl⟩

/-- **The delivery thread takes a batch.** -/
theorem take (h : QueueInv maxQueueSize policy s) (hidle : s.inHand = []) (stopRequested : Bool)
    (maxBatch : ℕ) (drainOnStop : Bool) :
    QueueInv maxQueueSize policy { s with
      queue := (s.queue.waitAndTake stopRequested maxBatch drainOnStop).2.2
      inHand := (s.queue.waitAndTake stopRequested maxBatch drainOnStop).2.1
      taken := s.taken ++ (s.queue.waitAndTake stopRequested maxBatch drainOnStop).2.1 } := by
  obtain ⟨rest, hsplit, hq⟩ := s.queue.waitAndTake_spec stopRequested maxBatch drainOnStop
  generalize (s.queue.waitAndTake stopRequested maxBatch drainOnStop).2.1 = batch at *
  rw [hq]
  have hlength := congrArg List.length hsplit
  rw [List.length_append] at hlength
  have hpending := h.pending
  have hbounded := h.bounded
  have hprocessed := h.processed
  rw [hidle, List.append_nil] at hprocessed
  rw [hidle, List.length_nil] at hpending
  refine ⟨h.capacity, h.policy_eq, ?_, ?_, h.numbered, h.accepted, h.dropped, ?_, h.reported, ?_⟩
  · show s.queue.pending = rest.length + batch.length
    omega
  · show rest.length ≤ max 1 maxQueueSize
    omega
  · show without s.accepted s.dropped = s.taken ++ batch ++ rest
    rw [h.order, hsplit, List.append_assoc]
  · show s.taken ++ batch = s.processed ++ batch
    rw [hprocessed]

/-- **The batch is marked.** -/
theorem markProcessed (h : QueueInv maxQueueSize policy s) :
    QueueInv maxQueueSize policy { s with
      queue := s.queue.markProcessed s.inHand.length
      inHand := []
      processed := s.processed ++ s.inHand } := by
  have hpending := h.pending
  refine ⟨h.capacity, h.policy_eq, ?_, h.bounded, h.numbered, h.accepted, h.dropped, h.order,
    h.reported, ?_⟩
  · show (if s.inHand.length ≤ s.queue.pending then s.queue.pending - s.inHand.length else 0) =
      s.queue.queue.length + 0
    split <;> omega
  · rw [List.append_nil]
    exact h.processed

/-- **The queue is drained.** -/
theorem drain (h : QueueInv maxQueueSize policy s) (hidle : s.inHand = []) :
    QueueInv maxQueueSize policy { s with
      queue := s.queue.drain.2
      ended := true
      taken := s.taken ++ s.queue.drain.1
      processed := s.processed ++ s.queue.drain.1 } := by
  have hpending := h.pending
  have hprocessed := h.processed
  rw [hidle, List.append_nil] at hprocessed
  rw [hidle, List.length_nil] at hpending
  refine ⟨h.capacity, h.policy_eq, ?_, Nat.zero_le _, h.numbered, h.accepted, h.dropped, ?_,
    h.reported, ?_⟩
  · show (if s.queue.queue.length ≤ s.queue.pending then s.queue.pending - s.queue.queue.length
      else 0) = 0 + s.inHand.length
    rw [hidle, List.length_nil]
    split <;> omega
  · show without s.accepted s.dropped = s.taken ++ s.queue.queue ++ []
    rw [List.append_nil]
    exact h.order
  · show s.taken ++ s.queue.queue = s.processed ++ s.queue.queue ++ s.inHand
    rw [hidle, List.append_nil, hprocessed]

/-- **One section.** -/
theorem step {s' : QueueRun Item} {e : QueueEvent Item} (h : QueueInv maxQueueSize policy s)
    (hstep : queueStep s e = some s') : QueueInv maxQueueSize policy s' := by
  cases e with
  | push item =>
    obtain rfl := Option.some.inj hstep
    exact h.push item
  | take stopRequested maxBatch drainOnStop =>
    simp only [queueStep] at hstep
    split at hstep
    · next hidle =>
      obtain rfl := Option.some.inj hstep
      exact h.take hidle.2 stopRequested maxBatch drainOnStop
    · cases hstep
  | markProcessed =>
    simp only [queueStep] at hstep
    split at hstep
    · obtain rfl := Option.some.inj hstep
      exact h.markProcessed
    · cases hstep
  | drain =>
    simp only [queueStep] at hstep
    split at hstep
    · next hidle =>
      obtain rfl := Option.some.inj hstep
      exact h.drain hidle.2
    · cases hstep
  | flush =>
    simp only [queueStep] at hstep
    split at hstep
    · obtain rfl := Option.some.inj hstep
      exact h
    · cases hstep

/-- When nothing is pending, everything that was kept has been processed. -/
theorem processed_of_flush (h : QueueInv maxQueueSize policy s)
    (hflush : (queueStep s .flush).isSome = true) :
    without s.accepted s.dropped = s.processed := by
  have hzero : s.queue.pending = 0 := by
    simp only [queueStep] at hflush
    split at hflush
    · next hzero => exact hzero
    · cases hflush
  have hpending := h.pending
  have hqueue : s.queue.queue = [] := List.eq_nil_of_length_eq_zero (by omega)
  have hinHand : s.inHand = [] := List.eq_nil_of_length_eq_zero (by omega)
  rw [h.order, h.processed, hqueue, hinHand, List.append_nil, List.append_nil]

theorem safe (h : QueueInv maxQueueSize policy s) : QueueSafe maxQueueSize policy s where
  pending := h.pending
  bounded := h.bounded
  numbered := h.numbered
  order := h.order
  reported := h.reported
  processed := h.processed
  flushed := h.processed_of_flush

end QueueInv

/-- **The queue of the delivery threads.**  With either policy and any bound, in every state of
every run of pushes, takes, marks, a final drain and calls of `flush`: the pending count is
the queued items and those in hand; the length is within the bound; what was accepted, without
what was dropped, is what was taken followed by what is queued; every push reports its drop;
and `flush` returns only when everything that was kept has been processed. -/
theorem queue_safe (maxQueueSize : ℕ) (policy : OverflowPolicy) (es : List (QueueEvent Item)) :
    Always queueStep (QueueSafe maxQueueSize policy) (initialQueue maxQueueSize policy) es :=
  always_of_step (fun _ _ _ h hstep => h.step hstep) (fun _ h => h.safe)
    (queueInv_initial maxQueueSize policy) es

end Tracing
end HttpDataDiod
