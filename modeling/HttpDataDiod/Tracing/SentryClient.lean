import HttpDataDiod.Tracing.SenderQueue
import HttpDataDiod.Tracing.SentryEvent

/-!
# The client that sends events

Model of `SentryClient` of `sentry_client.cpp`: any number of threads call `capture`, and one
thread takes the events from the queue in batches, builds an envelope of each and posts it.
Every access to the queue or to a metric is a step of its own.  An exception that leaves the
sender thread ends the process.

* `senderGoesOn`, `clientStep`: the sender thread, and the calls.
* `ClientInv`: what every step keeps.
* `events_accounted`: in every state of every run, each captured event is posted, in hand,
  queued or dropped, the counters say so, and what is posted can be read.
-/

namespace HttpDataDiod
namespace Tracing

open ByteText JsonValue Lexer Transition Ticket

/-! ## The threads -/

/-- `kSenderBatchSize`. -/
def senderBatchSize : ℕ := 8

/-- A call of `capture` behind its push: it has still to count its overflow as a failure, to
count it as a drop, or to set the gauge to the length it saw; or it is through. -/
inductive CaptureCall where
  | overflowed (size : ℕ)
  | failed (size : ℕ)
  | counted (size : ℕ)
  | returned

/-- Where the sender thread is in `sender_loop`, with the events of its batch that it has not
posted; the process ends when an exception leaves it. -/
inductive ClientPoint where
  | waiting
  | processing (rest : List (ℕ × SentryEvent))
  | counting (delivered : Bool) (rest : List (ℕ × SentryEvent))
  | sizing
  | gauging (size : ℕ)
  | marking
  | stopped
  | terminated (rest : List (ℕ × SentryEvent))

/-- A post: the event, its envelope, and whether the transport has delivered it. -/
structure SentryPost where
  item : ℕ × SentryEvent
  envelope : Bytes
  delivered : Bool

/-- The queue with its history, the calls, the stop flag, the sender, the metrics, and the posts
so far. -/
structure SentryClientState where
  queueRun : QueueRun SentryEvent
  calls : List CaptureCall
  stopRequested : Bool
  sender : ClientPoint
  eventsSent : ℕ
  eventsFailed : ℕ
  eventsDropped : ℕ
  queueSize : ℕ
  posts : List SentryPost

/-- A new `SentryClient`, with its sender thread. -/
def initialClient (maxQueueSize : ℕ) : SentryClientState where
  queueRun := initialQueue maxQueueSize .dropOldest
  calls := []
  stopRequested := false
  sender := .waiting
  eventsSent := 0
  eventsFailed := 0
  eventsDropped := 0
  queueSize := 0
  posts := []

/-- A step: a call pushes its event or goes on, the destructor requests a stop, or the sender
goes on. -/
inductive ClientEvent where
  | capture (event : SentryEvent)
  | count (i : ℕ)
  | requestStop
  | sender (choices : EventChoices) (delivered : Bool)

/-- `capture`, behind the push. -/
def afterCapture (outcome : PushOutcome) : CaptureCall :=
  if outcome.dropped then .overflowed outcome.size else .counted outcome.size

section Steps

variable (lib : JsonLibrary) (service : SentryService)

/-- The sender goes on: `wait_and_take`, `process_event` for each event of the batch, the gauge,
`mark_processed`. -/
def senderGoesOn (choices : EventChoices) (delivered : Bool) (s : SentryClientState) :
    Option SentryClientState :=
  match s.sender with
  | .waiting =>
    -- the wait ends with an event or a stop
    if s.queueRun.queue.queue.isEmpty && !s.stopRequested then none
    else
      (queueStep s.queueRun (.take s.stopRequested senderBatchSize true)).map fun r =>
        { s with
          queueRun := r
          sender :=
            match (s.queueRun.queue.waitAndTake s.stopRequested senderBatchSize true).1 with
            | .stopped => .stopped
            | _ => .processing r.inHand }
  | .processing [] => some { s with sender := .sizing }
  | .processing (x :: rest) =>
    match buildEnvelope lib service choices x.2 with
    | none => some { s with sender := .terminated (x :: rest) }
    | some envelope =>
      some { s with
        sender := .counting delivered rest
        posts := s.posts ++ [⟨x, envelope, delivered⟩] }
  | .counting true rest =>
    some { s with sender := .processing rest, eventsSent := s.eventsSent + 1 }
  | .counting false rest =>
    some { s with sender := .processing rest, eventsFailed := s.eventsFailed + 1 }
  | .sizing => some { s with sender := .gauging s.queueRun.queue.queue.length }
  | .gauging size => some { s with sender := .marking, queueSize := size }
  | .marking =>
    (queueStep s.queueRun .markProcessed).map fun r =>
      { s with queueRun := r, sender := .waiting }
  | .stopped => none
  | .terminated _ => none

/-- The process has ended. -/
def ClientPoint.isTerminated : ClientPoint → Bool
  | .terminated _ => true
  | _ => false

/-- One step of a call or of the sender.  There are no calls once the destructor runs, and no
steps once the process has ended. -/
def clientStep (s : SentryClientState) (e : ClientEvent) : Option SentryClientState :=
  if s.sender.isTerminated then none
  else
    match e with
    | .capture event =>
      if s.stopRequested then none
      else
        (queueStep s.queueRun (.push event)).map fun r =>
          { s with
            queueRun := r
            calls := s.calls ++ [afterCapture (s.queueRun.record event).outcome] }
    | .count i =>
      match s.calls[i]? with
      | some (.overflowed size) =>
        some { s with
          calls := s.calls.set i (.failed size), eventsFailed := s.eventsFailed + 1 }
      | some (.failed size) =>
        some { s with
          calls := s.calls.set i (.counted size), eventsDropped := s.eventsDropped + 1 }
      | some (.counted size) =>
        some { s with calls := s.calls.set i .returned, queueSize := size }
      | _ => none
    | .requestStop => some { s with stopRequested := true }
    | .sender choices delivered => senderGoesOn lib service choices delivered s

end Steps

/-! ## What is under way -/

/-- The overflow is not counted as a failure yet. -/
def CaptureCall.uncounted : CaptureCall → Bool
  | .overflowed _ => true
  | _ => false

/-- The overflow is not counted as a drop yet. -/
def CaptureCall.undropped : CaptureCall → Bool
  | .overflowed _ => true
  | .failed _ => true
  | _ => false

namespace ClientPoint

/-- The events in hand that are not posted. -/
def rest : ClientPoint → List (ℕ × SentryEvent)
  | .processing rest => rest
  | .counting _ rest => rest
  | .terminated rest => rest
  | _ => []

/-- A delivery that is not counted yet. -/
def unsent : ClientPoint → ℕ
  | .counting true _ => 1
  | _ => 0

/-- A failure that is not counted yet. -/
def unfailed : ClientPoint → ℕ
  | .counting false _ => 1
  | _ => 0

/-- The sender has no batch. -/
def idle : ClientPoint → Bool
  | .waiting => true
  | .stopped => true
  | _ => false

theorem rest_of_idle {point : ClientPoint} (h : point.idle = true) :
    point.rest = [] ∧ point.unsent = 0 ∧ point.unfailed = 0 := by
  cases point <;> first | exact ⟨rfl, rfl, rfl⟩ | cases h

end ClientPoint

/-- The post has not been delivered. -/
def SentryPost.lost (p : SentryPost) : Bool := !p.delivered

theorem length_eq_delivered_add_lost (posts : List SentryPost) :
    posts.length = posts.countP SentryPost.delivered + posts.countP SentryPost.lost := by
  rw [List.length_eq_countP_add_countP SentryPost.delivered]
  congr 2
  funext p
  unfold SentryPost.lost
  cases p.delivered <;> rfl

/-! ## The invariant -/

variable {lib : JsonLibrary} {service : SentryService} {maxQueueSize : ℕ}

/-- What the steps keep. -/
structure ClientInv (lib : JsonLibrary) (service : SentryService) (maxQueueSize : ℕ)
    (s : SentryClientState) : Prop where
  queue : QueueInv maxQueueSize .dropOldest s.queueRun
  total : s.queueRun.pushes.length =
    s.queueRun.taken.length + s.queueRun.queue.queue.length + s.queueRun.dropped.length
  posted : s.posts.map SentryPost.item ++ s.sender.rest = s.queueRun.taken
  inHand : s.sender.rest.length ≤ s.queueRun.inHand.length
  sent : s.posts.countP SentryPost.delivered = s.eventsSent + s.sender.unsent
  failed : s.posts.countP SentryPost.lost + s.queueRun.dropped.length =
    s.eventsFailed + s.sender.unfailed + s.calls.countP CaptureCall.uncounted
  drops : s.queueRun.dropped.length =
    s.eventsDropped + s.calls.countP CaptureCall.undropped
  envelopes : ∀ p ∈ s.posts, ∃ choices, buildEnvelope lib service choices p.item.2 = some p.envelope
  terminated : ∀ rest, s.sender = .terminated rest →
    ∃ x ∈ rest, ∃ choices, buildEnvelope lib service choices x.2 = none
  stopped : s.sender = .stopped → s.stopRequested = true ∧ s.queueRun.queue.queue = []

theorem clientInv_initial : ClientInv lib service maxQueueSize (initialClient maxQueueSize) where
  queue := queueInv_initial maxQueueSize .dropOldest
  total := rfl
  posted := rfl
  inHand := Nat.le_refl 0
  sent := rfl
  failed := rfl
  drops := rfl
  envelopes := List.forall_mem_nil _
  terminated := fun _ h => ClientPoint.noConfusion h
  stopped := fun h => ClientPoint.noConfusion h

namespace ClientInv

variable {s s' : SentryClientState}

/-- **A call captures an event.** -/
theorem capture (h : ClientInv lib service maxQueueSize s) (hstop : s.stopRequested = false)
    (event : SentryEvent) {r : QueueRun SentryEvent}
    (hpush : queueStep s.queueRun (.push event) = some r) :
    ClientInv lib service maxQueueSize { s with
      queueRun := r
      calls := s.calls ++ [afterCapture (s.queueRun.record event).outcome] } := by
  have hqueue := h.queue.step hpush
  obtain rfl := Option.some.inj hpush
  have htotal := h.total
  have hfailed := h.failed
  have hdrops := h.drops
  have hdropped : ∀ q, QueueRun.dropped { s.queueRun with
      queue := q, pushes := s.queueRun.pushes ++ [s.queueRun.record event] } =
        s.queueRun.dropped ++ (s.queueRun.record event).dropped := fun q =>
    QueueInv.dropped_push s.queueRun (s.queueRun.record event) q
  have hlengths : (s.queueRun.record event).dropped.length =
        (if (s.queueRun.record event).outcome.dropped then 1 else 0) ∧
      (s.queueRun.queue.push (s.queueRun.pushes.length, event)).2.queue.length +
        (s.queueRun.record event).dropped.length = s.queueRun.queue.queue.length + 1 := by
    rcases h.queue.record_cases event with
      ⟨-, hrecord, hq⟩ | ⟨y, rest, hold, hrecord, hq⟩ | ⟨hpolicy, -, -⟩
    · rw [hrecord, hq]
      simp
    · rw [hrecord, hq, hold]
      simp
    · cases hpolicy
  refine
    { queue := hqueue
      total := ?_
      posted := h.posted
      inHand := h.inHand
      sent := h.sent
      failed := ?_
      drops := ?_
      envelopes := h.envelopes
      terminated := h.terminated
      stopped := fun hs => absurd (h.stopped hs).1 (by rw [hstop]; exact Bool.false_ne_true) }
  · rw [hdropped, List.length_append, List.length_append, List.length_singleton]
    show _ = s.queueRun.taken.length +
      (s.queueRun.queue.push (s.queueRun.pushes.length, event)).2.queue.length + _
    omega
  · rw [hdropped, List.length_append, List.countP_append, hlengths.1]
    unfold afterCapture
    split
    · simp only [List.countP_singleton, CaptureCall.uncounted, if_true]
      omega
    · simp only [List.countP_singleton, CaptureCall.uncounted, Bool.false_eq_true, if_false]
      omega
  · rw [hdropped, List.length_append, List.countP_append, hlengths.1]
    unfold afterCapture
    split
    · simp only [List.countP_singleton, CaptureCall.undropped, if_true]
      omega
    · simp only [List.countP_singleton, CaptureCall.undropped, Bool.false_eq_true, if_false]
      omega

/-- **A call goes on.** -/
theorem count (h : ClientInv lib service maxQueueSize s) {i : ℕ} {call call' : CaptureCall}
    (hcall : s.calls[i]? = some call) {failed dropped size : ℕ}
    (hfailed : failed + call'.uncounted.toNat = s.eventsFailed + call.uncounted.toNat)
    (hdropped : dropped + call'.undropped.toNat = s.eventsDropped + call.undropped.toNat) :
    ClientInv lib service maxQueueSize { s with
      calls := s.calls.set i call'
      eventsFailed := failed
      eventsDropped := dropped
      queueSize := size } := by
  have huncounted := countP_set CaptureCall.uncounted hcall call'
  have hundropped := countP_set CaptureCall.undropped hcall call'
  have hf := h.failed
  have hd := h.drops
  refine
    { queue := h.queue
      total := h.total
      posted := h.posted
      inHand := h.inHand
      sent := h.sent
      failed := ?_
      drops := ?_
      envelopes := h.envelopes
      terminated := h.terminated
      stopped := h.stopped }
  · show s.posts.countP SentryPost.lost + s.queueRun.dropped.length =
      failed + s.sender.unfailed + (s.calls.set i call').countP CaptureCall.uncounted
    omega
  · show s.queueRun.dropped.length =
      dropped + (s.calls.set i call').countP CaptureCall.undropped
    omega

/-- The sender moves on without the queue and without the posts. -/
theorem moved (h : ClientInv lib service maxQueueSize s) {before point : ClientPoint}
    (hsender : s.sender = before) {sent failed size : ℕ} (hrest : point.rest = before.rest)
    (hsent : sent + point.unsent = s.eventsSent + before.unsent)
    (hfailed : failed + point.unfailed = s.eventsFailed + before.unfailed)
    (hterminated : ∀ rest, point ≠ .terminated rest) (hstopped : point ≠ .stopped) :
    ClientInv lib service maxQueueSize { s with
      sender := point
      eventsSent := sent
      eventsFailed := failed
      queueSize := size } := by
  subst hsender
  have hs := h.sent
  have hf := h.failed
  refine
    { queue := h.queue
      total := h.total
      posted := ?_
      inHand := ?_
      sent := hs.trans hsent.symm
      failed := ?_
      drops := h.drops
      envelopes := h.envelopes
      terminated := fun rest heq => absurd heq (hterminated rest)
      stopped := fun heq => absurd heq hstopped }
  · rw [hrest]
    exact h.posted
  · rw [hrest]
    exact h.inHand
  · show s.posts.countP SentryPost.lost + s.queueRun.dropped.length =
      failed + point.unfailed + s.calls.countP CaptureCall.uncounted
    omega

/-- **The sender takes a batch**, or stops on an empty queue. -/
theorem take (h : ClientInv lib service maxQueueSize s) (hsender : s.sender = .waiting)
    (hwait : (s.queueRun.queue.queue.isEmpty && !s.stopRequested) = false)
    {r : QueueRun SentryEvent}
    (htake : queueStep s.queueRun (.take s.stopRequested senderBatchSize true) = some r) :
    ClientInv lib service maxQueueSize { s with
      queueRun := r
      sender :=
        match (s.queueRun.queue.waitAndTake s.stopRequested senderBatchSize true).1 with
        | .stopped => .stopped
        | _ => .processing r.inHand } := by
  have hqueue := h.queue.step htake
  have htotal := h.total
  have hposted := h.posted
  have hsent := h.sent
  have hfailed := h.failed
  rw [hsender] at hposted hsent hfailed
  simp only [queueStep] at htake
  split at htake
  · next hidle =>
    have hr := Option.some.inj htake
    cases hempty : s.queueRun.queue.queue.isEmpty with
    | true =>
      have hstop : s.stopRequested = true := by
        rw [hempty] at hwait
        cases hs : s.stopRequested with
        | true => rfl
        | false => rw [hs] at hwait; cases hwait
      have hnil : s.queueRun.queue.queue = [] := List.isEmpty_iff.mp hempty
      have hresult : s.queueRun.queue.waitAndTake s.stopRequested senderBatchSize true =
          (.stopped, [], s.queueRun.queue) := by
        rw [AsyncSenderQueue.waitAndTake, if_pos hempty, if_pos hstop]
      rw [hresult, List.append_nil] at hr
      rw [hresult]
      subst hr
      exact
        { queue := hqueue
          total := htotal
          posted := hposted
          inHand := Nat.zero_le _
          sent := hsent
          failed := hfailed
          drops := h.drops
          envelopes := h.envelopes
          terminated := fun _ heq => ClientPoint.noConfusion heq
          stopped := fun _ => ⟨hstop, hnil⟩ }
    | false =>
      have hresult : s.queueRun.queue.waitAndTake s.stopRequested senderBatchSize true =
          (.batch, s.queueRun.queue.queue.take senderBatchSize,
            { s.queueRun.queue with queue := s.queueRun.queue.queue.drop senderBatchSize }) := by
        rw [AsyncSenderQueue.waitAndTake, hempty, if_neg Bool.false_ne_true,
          if_neg (by rw [Bool.not_true, Bool.and_false]; exact Bool.false_ne_true)]
      rw [hresult] at hr
      rw [hresult]
      subst hr
      refine
        { queue := hqueue
          total := ?_
          posted := ?_
          inHand := Nat.le_refl _
          sent := hsent
          failed := hfailed
          drops := h.drops
          envelopes := h.envelopes
          terminated := fun _ heq => ClientPoint.noConfusion heq
          stopped := fun heq => ClientPoint.noConfusion heq }
      · have hsplit := congrArg List.length
          (List.take_append_drop senderBatchSize s.queueRun.queue.queue)
        rw [List.length_append] at hsplit
        show s.queueRun.pushes.length =
          (s.queueRun.taken ++ s.queueRun.queue.queue.take senderBatchSize).length +
            (s.queueRun.queue.queue.drop senderBatchSize).length + s.queueRun.dropped.length
        rw [List.length_append]
        omega
      · show s.posts.map SentryPost.item ++ s.queueRun.queue.queue.take senderBatchSize =
          s.queueRun.taken ++ s.queueRun.queue.queue.take senderBatchSize
        rw [← hposted]
        exact congrArg (· ++ _) (List.append_nil _).symm
  · cases htake

/-- **The sender posts an event**, or the process ends. -/
theorem post (h : ClientInv lib service maxQueueSize s) {x : ℕ × SentryEvent}
    {rest : List (ℕ × SentryEvent)} (hsender : s.sender = .processing (x :: rest))
    {choices : EventChoices} {envelope : Bytes}
    (hbuild : buildEnvelope lib service choices x.2 = some envelope) (delivered : Bool) :
    ClientInv lib service maxQueueSize { s with
      sender := .counting delivered rest
      posts := s.posts ++ [⟨x, envelope, delivered⟩] } := by
  have hposted := h.posted
  have hinHand := h.inHand
  have hsent := h.sent
  have hfailed := h.failed
  rw [hsender] at hposted hinHand hsent hfailed
  refine
    { queue := h.queue
      total := h.total
      posted := ?_
      inHand := Nat.le_of_succ_le hinHand
      sent := ?_
      failed := ?_
      drops := h.drops
      envelopes := List.forall_mem_append.mpr
        ⟨h.envelopes, List.forall_mem_singleton.mpr ⟨choices, hbuild⟩⟩
      terminated := fun _ heq => ClientPoint.noConfusion heq
      stopped := fun heq => ClientPoint.noConfusion heq }
  · show (s.posts ++ [_]).map SentryPost.item ++ rest = s.queueRun.taken
    rw [List.map_append, List.append_assoc]
    exact hposted
  · show (s.posts ++ [_]).countP SentryPost.delivered = _
    rw [List.countP_append, List.countP_singleton, hsent]
    cases delivered <;> rfl
  · show (s.posts ++ [_]).countP SentryPost.lost + _ = _
    rw [List.countP_append, List.countP_singleton]
    cases delivered with
    | true => exact hfailed
    | false =>
      show s.posts.countP SentryPost.lost + 1 + s.queueRun.dropped.length =
        s.eventsFailed + 1 + s.calls.countP CaptureCall.uncounted
      have : s.posts.countP SentryPost.lost + s.queueRun.dropped.length =
        s.eventsFailed + 0 + s.calls.countP CaptureCall.uncounted := hfailed
      omega

/-- **The batch is marked.** -/
theorem mark (h : ClientInv lib service maxQueueSize s) (hsender : s.sender = .marking)
    {r : QueueRun SentryEvent} (hmark : queueStep s.queueRun .markProcessed = some r) :
    ClientInv lib service maxQueueSize { s with queueRun := r, sender := .waiting } := by
  have hqueue := h.queue.step hmark
  have hposted := h.posted
  have hsent := h.sent
  have hfailed := h.failed
  rw [hsender] at hposted hsent hfailed
  simp only [queueStep] at hmark
  split at hmark
  · obtain rfl := Option.some.inj hmark
    exact
      { queue := hqueue
        total := h.total
        posted := hposted
        inHand := Nat.le_refl 0
        sent := hsent
        failed := hfailed
        drops := h.drops
        envelopes := h.envelopes
        terminated := fun _ heq => ClientPoint.noConfusion heq
        stopped := fun heq => ClientPoint.noConfusion heq }
  · cases hmark

/-- **The sender goes on.** -/
theorem sender (h : ClientInv lib service maxQueueSize s) {choices : EventChoices}
    {delivered : Bool} (hstep : senderGoesOn lib service choices delivered s = some s') :
    ClientInv lib service maxQueueSize s' := by
  unfold senderGoesOn at hstep
  cases hsender : s.sender with
  | waiting =>
    simp only [hsender] at hstep
    split at hstep
    · cases hstep
    · next hwait =>
      obtain ⟨r, htake, rfl⟩ := Option.map_eq_some_iff.mp hstep
      exact h.take hsender (Bool.eq_false_iff.mpr hwait) htake
  | processing batch =>
    cases batch with
    | nil =>
      simp only [hsender] at hstep
      obtain rfl := Option.some.inj hstep
      exact h.moved hsender rfl rfl rfl (fun _ => ClientPoint.noConfusion) ClientPoint.noConfusion
    | cons x rest =>
      simp only [hsender] at hstep
      split at hstep
      · next hbuild =>
        obtain rfl := Option.some.inj hstep
        have hposted := h.posted
        have hinHand := h.inHand
        have hsent := h.sent
        have hfailed := h.failed
        rw [hsender] at hposted hinHand hsent hfailed
        exact
          { queue := h.queue
            total := h.total
            posted := hposted
            inHand := hinHand
            sent := hsent
            failed := hfailed
            drops := h.drops
            envelopes := h.envelopes
            terminated := fun _ heq => by
              obtain rfl := ClientPoint.terminated.inj heq
              exact ⟨x, List.mem_cons_self, choices, hbuild⟩
            stopped := fun heq => ClientPoint.noConfusion heq }
      · next envelope hbuild =>
        obtain rfl := Option.some.inj hstep
        exact h.post hsender hbuild delivered
  | counting outcome rest =>
    cases outcome with
    | true =>
      simp only [hsender] at hstep
      obtain rfl := Option.some.inj hstep
      exact h.moved hsender rfl rfl rfl (fun _ => ClientPoint.noConfusion) ClientPoint.noConfusion
    | false =>
      simp only [hsender] at hstep
      obtain rfl := Option.some.inj hstep
      exact h.moved hsender rfl rfl rfl (fun _ => ClientPoint.noConfusion) ClientPoint.noConfusion
  | sizing =>
    simp only [hsender] at hstep
    obtain rfl := Option.some.inj hstep
    exact h.moved hsender rfl rfl rfl (fun _ => ClientPoint.noConfusion) ClientPoint.noConfusion
  | gauging size =>
    simp only [hsender] at hstep
    obtain rfl := Option.some.inj hstep
    exact h.moved hsender rfl rfl rfl (fun _ => ClientPoint.noConfusion) ClientPoint.noConfusion
  | marking =>
    simp only [hsender] at hstep
    obtain ⟨r, hmark, rfl⟩ := Option.map_eq_some_iff.mp hstep
    exact h.mark hsender hmark
  | stopped =>
    simp only [hsender] at hstep
    cases hstep
  | terminated rest =>
    simp only [hsender] at hstep
    cases hstep

/-- **One step.** -/
theorem step (h : ClientInv lib service maxQueueSize s) {e : ClientEvent}
    (hstep : clientStep lib service s e = some s') : ClientInv lib service maxQueueSize s' := by
  unfold clientStep at hstep
  split at hstep
  · cases hstep
  · cases e with
    | capture event =>
      simp only at hstep
      split at hstep
      · cases hstep
      · next hstop =>
        obtain ⟨r, hpush, rfl⟩ := Option.map_eq_some_iff.mp hstep
        exact h.capture (Bool.eq_false_iff.mpr hstop) event hpush
    | count i =>
      simp only at hstep
      split at hstep
      · next size hcall =>
        obtain rfl := Option.some.inj hstep
        exact h.count hcall rfl rfl
      · next size hcall =>
        obtain rfl := Option.some.inj hstep
        exact h.count hcall rfl rfl
      · next size hcall =>
        obtain rfl := Option.some.inj hstep
        exact h.count hcall rfl rfl
      · cases hstep
    | requestStop =>
      obtain rfl := Option.some.inj hstep
      exact
        { queue := h.queue
          total := h.total
          posted := h.posted
          inHand := h.inHand
          sent := h.sent
          failed := h.failed
          drops := h.drops
          envelopes := h.envelopes
          terminated := h.terminated
          stopped := fun heq => ⟨rfl, (h.stopped heq).2⟩ }
    | sender choices delivered => exact h.sender hstep

end ClientInv

/-! ## Where the events go -/

/-- The captured events, numbered. -/
def SentryClientState.captured (s : SentryClientState) : List (ℕ × SentryEvent) :=
  s.queueRun.pushes.map PushRecord.item

/-- Every captured event is posted, in hand, queued or dropped, each once and in order, and the
counters agree; what is posted is what was captured; and the process goes on unless an event
cannot be sent. -/
structure EventsAccounted (fmt : FloatText) (what : Bytes → Text) (s : SentryClientState) :
    Prop where
  order : s.posts.map SentryPost.item ++ s.sender.rest ++ s.queueRun.queue.queue =
    without s.captured s.queueRun.dropped
  total : s.captured.length = s.posts.length + s.sender.rest.length +
    s.queueRun.queue.queue.length + s.queueRun.dropped.length
  counted : s.sender.idle = true → (∀ call ∈ s.calls, call = .returned) →
    s.captured.length = s.eventsSent + s.eventsFailed + s.queueRun.queue.queue.length ∧
      s.eventsSent = s.posts.countP SentryPost.delivered ∧
      s.eventsDropped = s.queueRun.dropped.length
  read : ∀ p ∈ s.posts, p.item.2.Sendable fmt.Exact → ∃ header item payload,
    readEnvelope (nlohmann fmt what) p.envelope = some (header, [(item, payload)]) ∧
      CarriesEvent (nlohmann fmt what) p.item.2 payload
  survives : (∀ x ∈ s.captured, x.2.Sendable fmt.Exact) → s.sender.isTerminated = false
  stopped : s.sender = .stopped → s.queueRun.queue.queue = []
  flushed : s.queueRun.queue.pending = 0 → s.sender.rest = [] ∧ s.queueRun.queue.queue = []

theorem ClientInv.accounted {fmt : FloatText} {what : Bytes → Text} {s : SentryClientState}
    (h : ClientInv (nlohmann fmt what) service maxQueueSize s) :
    EventsAccounted fmt what s := by
  have htotal := h.total
  have hlength := congrArg List.length h.posted
  rw [List.length_append, List.length_map] at hlength
  have haccepted : s.queueRun.accepted = s.captured := by
    unfold QueueRun.accepted SentryClientState.captured
    rw [List.filter_eq_self.mpr fun p hp => (h.queue.reported p hp).accepted rfl]
  have horder : s.posts.map SentryPost.item ++ s.sender.rest ++ s.queueRun.queue.queue =
      without s.captured s.queueRun.dropped := by
    rw [h.posted, ← h.queue.order, haccepted]
  have hcaptured : s.captured.length = s.queueRun.pushes.length := List.length_map _
  refine
    { order := horder
      total := by omega
      counted := fun hidle hreturned => ?_
      read := fun p hp hsendable => ?_
      survives := fun hall => ?_
      stopped := fun hs => (h.stopped hs).2
      flushed := fun hpending => ?_ }
  · obtain ⟨hrest, hunsent, hunfailed⟩ := ClientPoint.rest_of_idle hidle
    have hzero : ∀ p : CaptureCall → Bool, p .returned = false → s.calls.countP p = 0 := by
      intro p hp
      refine List.countP_eq_zero.mpr fun call hcall => ?_
      rw [hreturned call hcall, hp]
      exact Bool.false_ne_true
    have hsent := h.sent
    have hfailed := h.failed
    have hdrops := h.drops
    have hposts := length_eq_delivered_add_lost s.posts
    rw [hrest, List.length_nil] at hlength
    rw [hunsent] at hsent
    rw [hunfailed, hzero _ rfl] at hfailed
    rw [hzero _ rfl] at hdrops
    omega
  · obtain ⟨choices, hbuild⟩ := h.envelopes p hp
    obtain ⟨envelope, header, item, payload, henvelope, hread, -, -, hcarry⟩ :=
      event_read fmt what service choices hsendable
    obtain rfl := Option.some.inj (hbuild.symm.trans henvelope)
    exact ⟨header, item, payload, hread, hcarry⟩
  · cases hsender : s.sender with
    | terminated rest =>
      obtain ⟨x, hx, choices, hnone⟩ := h.terminated rest hsender
      have hmem : x ∈ s.captured := by
        refine (without_sublist s.captured s.queueRun.dropped).subset ?_
        rw [← horder, hsender]
        exact List.mem_append_left _ (List.mem_append_right _ hx)
      obtain ⟨envelope, -, -, -, henvelope, -⟩ :=
        event_read fmt what service choices (hall x hmem)
      rw [hnone] at henvelope
      cases henvelope
    | _ => rfl
  · have hpend := h.queue.pending
    have hinHand := h.inHand
    exact ⟨List.eq_nil_of_length_eq_zero (by omega), List.eq_nil_of_length_eq_zero (by omega)⟩

end Tracing
end HttpDataDiod
