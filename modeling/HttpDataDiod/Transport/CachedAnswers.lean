import HttpDataDiod.Proxy.RequestId
import HttpDataDiod.Worker.Delivery

/-!
# Answers from the dedup cache

The workers answer a request id that they find in their cache with the response stored
there.  The cache knows ids only, whichever process made them; this is the system of any
number of proxy processes, started any number of times, and of the workers they share.
Beside the program's own state a run keeps for which request a cached response was produced,
and for which one it was given out.

* `cachedStep`: a process starts again, a request gets its id, a message comes to a worker,
  and the steps of `Worker.Delivery`.
* `OwnAnswers`: what was given out from a cache was produced for the same request.
* `Twins`: two requests of different processes, or starts, whose ids have equal parts.
* `ownAnswers_iff`: the property holds along exactly the runs in which no request comes to a
  worker that still holds the response of a twin.
-/

namespace HttpDataDiod
namespace Transport

open ByteText Transition Proxy Worker

/-! ## The system -/

/-- A proxy process, with the number of its start. -/
structure ProxyProcess where
  boot : ℕ
  generator : RequestIdGenerator

/-- An HTTP request: where and as which one it got its id, and the id. -/
structure HttpRequest where
  process : ℕ
  boot : ℕ
  serial : ℕ
  id : RequestId

/-- The processes, the requests so far, and the workers; for each delivery the request that it
carries; for each worker and id the request whose response was stored last; and the answers
given out of a cache, each with the request that it was produced for. -/
structure CachedRun where
  processes : ℕ → ProxyProcess
  requests : List HttpRequest
  work : DeliveryRun
  asked : List ℕ
  producer : ℕ → Bytes → Option ℕ
  hits : List (ℕ × Option ℕ)

inductive CachedEvent where
  | restart (process : ℕ)
  | issue (process thread : ℕ) (steadyNow : ℤ) (today : Date) (suffix : Fin 1000000)
  | deliver (worker request : ℕ)
  | work (e : DeliveryEvent)

/-- A store makes its request the producer of what is kept under the id. -/
def CachedRun.stored (s : CachedRun) : DeliveryEvent → ℕ → Bytes → Option ℕ
  | .store i =>
    match s.work.deliveries[i]? with
    | some d => Function.update s.producer d.worker
        (Function.update (s.producer d.worker) d.requestId s.asked[i]?)
    | none => s.producer
  | _ => s.producer

/-- One step.  A message carries the id of its request. -/
def cachedStep (cfg : DedupConfig) (s : CachedRun) : CachedEvent → Option CachedRun
  | .restart p =>
    some { s with
      processes := Function.update s.processes p
        { boot := (s.processes p).boot + 1, generator := .initial } }
  | .issue p thread steadyNow today suffix =>
    let r := generateUuid (s.processes p).generator thread steadyNow today suffix
    some { s with
      processes := Function.update s.processes p { s.processes p with generator := r.2 }
      requests := s.requests ++
        [⟨p, (s.processes p).boot, (s.processes p).generator.counter, r.1⟩] }
  | .deliver worker q =>
    match s.requests[q]? with
    | none => none
    | some r =>
      (deliveryStep cfg s.work (.find worker r.id.text)).map fun work =>
        { s with
          work
          asked := s.asked ++ [q]
          hits :=
            if ((s.work.cache worker).find cfg s.work.clock r.id.text).1.isSome then
              (q, s.producer worker r.id.text) :: s.hits
            else s.hits }
  | .work (.find _ _) => none
  | .work e =>
    (deliveryStep cfg s.work e).map fun work => { s with work, producer := s.stored e }

/-- Nothing asked yet. -/
def initialCached : CachedRun where
  processes := fun _ => { boot := 0, generator := .initial }
  requests := []
  work := initialDelivery
  asked := []
  producer := fun _ _ => none
  hits := []

/-- **No request is answered with another one's response.** -/
def OwnAnswers (s : CachedRun) : Prop := ∀ hit ∈ s.hits, hit.2 = some hit.1

/-- Requests of different processes, of different starts of one, or `2 ^ 64` requests of one
start apart, whose ids have the same date, counter and random digits. -/
structure Twins (r r' : HttpRequest) : Prop where
  apart : (r.process, r.boot) ≠ (r'.process, r'.boot) ∨ r.serial + 2 ^ 64 ≤ r'.serial ∨
    r'.serial + 2 ^ 64 ≤ r.serial
  date : r.id.date = r'.id.date
  counter : r.id.counter = r'.id.counter
  suffix : r.id.suffix = r'.id.suffix

/-- The worker holds a response of the request that has not expired. -/
def Holds (s : CachedRun) (worker q : ℕ) (r : HttpRequest) : Prop :=
  s.requests[q]? = some r ∧ s.producer worker r.id.text = some q ∧
    ∃ entry, DedupCache.lookup (s.work.cache worker).entries r.id.text = some entry ∧
      s.work.clock < entry.expiresAtMs

/-- A request comes to no worker that holds the response of a twin. -/
def NoTwinHeld (s : CachedRun) : CachedEvent → Prop
  | .deliver worker q => ∀ r, s.requests[q]? = some r → ∀ q' r', Holds s worker q' r' → ¬ Twins r r'
  | _ => True

/-! ## What the workers' steps keep -/

/-- The deliveries keep the ids they came with. -/
theorem requestIds_setStage {s : DeliveryRun} {i : ℕ} {d : Delivery}
    (hd : s.deliveries[i]? = some d) (stage : Stage) :
    (s.setStage i d stage).deliveries.map Delivery.requestId =
      s.deliveries.map Delivery.requestId := by
  refine List.ext_getElem? fun j => ?_
  rw [DeliveryRun.setStage, List.getElem?_map, List.getElem?_map, List.getElem?_set]
  split
  · rename_i hij
    subst hij
    rw [hd]
    split
    · rfl
    · rename_i hlt
      exact absurd (List.getElem?_eq_some_iff.mp hd).1 hlt
  · rfl

/-- A step behind the lookup keeps the ids, and all but a store the caches. -/
theorem deliveryStep_frame {cfg : DedupConfig} {s s' : DeliveryRun} {e : DeliveryEvent}
    (hfind : ∀ worker id, e ≠ .find worker id) (h : deliveryStep cfg s e = some s') :
    s'.deliveries.map Delivery.requestId = s.deliveries.map Delivery.requestId ∧
      ((∀ i, e ≠ .store i) → s'.cache = s.cache) := by
  cases e with
  | tick ms =>
    obtain rfl := Option.some.inj h
    exact ⟨rfl, fun _ => rfl⟩
  | find worker id => exact absurd rfl (hfind worker id)
  | execute i =>
    simp only [deliveryStep] at h
    split at h
    · rename_i d hd
      split at h
      · obtain rfl := Option.some.inj h
        exact ⟨requestIds_setStage hd _, fun _ => rfl⟩
      · cases h
    · cases h
  | respond i envelope =>
    simp only [deliveryStep] at h
    split at h
    · rename_i d hd
      split at h
      · cases envelope with
        | none =>
          obtain rfl := Option.some.inj h
          exact ⟨requestIds_setStage hd _, fun _ => rfl⟩
        | some envelope =>
          obtain rfl := Option.some.inj h
          exact ⟨requestIds_setStage hd _, fun _ => rfl⟩
      · cases h
    · cases h
  | store i =>
    simp only [deliveryStep] at h
    split at h
    · rename_i d hd
      split at h
      · obtain rfl := Option.some.inj h
        exact ⟨requestIds_setStage hd _, fun hstore => absurd rfl (hstore i)⟩
      · cases h
    · cases h
  | reply i =>
    simp only [deliveryStep] at h
    split at h
    · rename_i d hd
      split at h
      · obtain rfl := Option.some.inj h
        exact ⟨requestIds_setStage hd _, fun _ => rfl⟩
      · cases h
    · cases h

/-- A store puts the envelope of its delivery under the id of that. -/
theorem deliveryStep_store {cfg : DedupConfig} {s s' : DeliveryRun} {i : ℕ}
    (h : deliveryStep cfg s (.store i) = some s') :
    ∃ d envelope, s.deliveries[i]? = some d ∧
      s'.cache = Function.update s.cache d.worker
        ((s.cache d.worker).store cfg s.clock d.requestId envelope) := by
  simp only [deliveryStep] at h
  split at h
  · rename_i d hd
    split at h
    · rename_i envelope _
      obtain rfl := Option.some.inj h
      exact ⟨d, envelope, hd, rfl⟩
    · cases h
  · cases h

/-! ## The invariant -/

/-- The requests have the counters of their processes, no two of one start the same; every
delivery carries the id of a request; and what a worker keeps under an id was produced for a
request of that id. -/
structure CachedInv (s : CachedRun) : Prop where
  counter : ∀ (q : ℕ) (r : HttpRequest), s.requests[q]? = some r →
    r.id.counter = counterValue r.serial
  issued : ∀ (q : ℕ) (r : HttpRequest), s.requests[q]? = some r →
    r.boot ≤ (s.processes r.process).boot ∧
      (r.boot = (s.processes r.process).boot →
        r.serial < (s.processes r.process).generator.counter)
  serial : ∀ (q q' : ℕ) (r r' : HttpRequest), s.requests[q]? = some r →
    s.requests[q']? = some r' → r.process = r'.process → r.boot = r'.boot →
    r.serial = r'.serial → q = q'
  length : s.asked.length = s.work.deliveries.length
  asked : ∀ (i : ℕ) (d : Delivery), s.work.deliveries[i]? = some d →
    ∃ q r, s.asked[i]? = some q ∧ s.requests[q]? = some r ∧ r.id.text = d.requestId
  produced : ∀ (worker : ℕ) (id : Bytes) (entry : DedupEntry),
    DedupCache.lookup (s.work.cache worker).entries id = some entry →
    ∃ q r, s.producer worker id = some q ∧ s.requests[q]? = some r ∧ r.id.text = id
  own : OwnAnswers s

theorem cachedInv_initial : CachedInv initialCached := by
  refine ⟨?_, ?_, ?_, rfl, ?_, ?_, ?_⟩
  · intro q r hr
    cases hr
  · intro q r hr
    cases hr
  · intro q q' r r' hr
    cases hr
  · intro i d hd
    cases hd
  · intro worker id entry hentry
    cases hentry
  · intro hit hhit
    cases hhit

variable {cfg : DedupConfig} {s : CachedRun}

/-- A process that starts again: its later requests have another number of the start. -/
theorem CachedInv.restart (h : CachedInv s) (p : ℕ) :
    CachedInv { s with
      processes := Function.update s.processes p
        { boot := (s.processes p).boot + 1, generator := .initial } } := by
  refine ⟨h.counter, fun q r hr => ?_, h.serial, h.length, h.asked, h.produced, h.own⟩
  have hissued := h.issued q r hr
  simp only
  by_cases hp : r.process = p
  · subst hp
    rw [Function.update_self]
    refine ⟨hissued.1.trans (Nat.le_succ _), fun hboot => ?_⟩
    exact absurd (hboot ▸ hissued.1) (Nat.not_succ_le_self _)
  · rw [Function.update_of_ne hp]
    exact hissued

/-- **A request gets its id**: the counter of the process has moved on since its last one. -/
theorem CachedInv.issue (h : CachedInv s) (p thread : ℕ) (steadyNow : ℤ) (today : Date)
    (suffix : Fin 1000000) {s' : CachedRun}
    (hstep : cachedStep cfg s (.issue p thread steadyNow today suffix) = some s') :
    CachedInv s' := by
  obtain rfl := Option.some.inj hstep
  -- a request is an earlier one, or the one that is added
  have hget : ∀ {q : ℕ} {r r' : HttpRequest}, (s.requests ++ [r'])[q]? = some r →
      s.requests[q]? = some r ∨ (q = s.requests.length ∧ r = r') := by
    intro q r r' hr
    rw [List.getElem?_append] at hr
    split at hr
    · exact .inl hr
    · rename_i hlt
      rw [List.getElem?_singleton] at hr
      split at hr
      · exact .inr ⟨by omega, (Option.some.inj hr).symm⟩
      · cases hr
  have hkeep : ∀ {q : ℕ} {r r' : HttpRequest}, s.requests[q]? = some r →
      (s.requests ++ [r'])[q]? = some r := by
    intro q r r' hr
    rw [List.getElem?_append_left (List.getElem?_eq_some_iff.mp hr).1]
    exact hr
  refine ⟨fun q r hr => ?_, fun q r hr => ?_, fun q q' r r' hr hr' hp hboot hserial => ?_,
    h.length, fun i d hd => ?_, fun worker id entry hentry => ?_, h.own⟩
  · rcases hget hr with hr | ⟨-, rfl⟩
    · exact h.counter q r hr
    · exact counter_generateUuid _ _ _ _ _
  · simp only
    rcases hget hr with hr | ⟨-, rfl⟩
    · have hissued := h.issued q r hr
      by_cases hp : r.process = p
      · subst hp
        rw [Function.update_self]
        exact ⟨hissued.1, fun hboot => (hissued.2 hboot).trans (Nat.lt_succ_self _)⟩
      · rw [Function.update_of_ne hp]
        exact hissued
    · rw [Function.update_self]
      exact ⟨le_rfl, fun _ => Nat.lt_succ_self _⟩
  · rcases hget hr with hr | ⟨hq, rfl⟩
    · rcases hget hr' with hr' | ⟨hq', rfl⟩
      · exact h.serial q q' r r' hr hr' hp hboot hserial
      · simp only at hp hboot hserial
        have hlt := (h.issued q r hr).2
        rw [hp] at hlt
        exact absurd (hlt hboot) (by omega)
    · rcases hget hr' with hr' | ⟨hq', rfl⟩
      · simp only at hp hboot hserial
        have hlt := (h.issued q' r' hr').2
        rw [← hp] at hlt
        exact absurd (hlt hboot.symm) (by omega)
      · rw [hq, hq']
  · obtain ⟨q, r, hq, hr, hid⟩ := h.asked i d hd
    exact ⟨q, r, hq, hkeep hr, hid⟩
  · obtain ⟨q, r, hq, hr, hid⟩ := h.produced worker id entry hentry
    exact ⟨q, r, hq, hkeep hr, hid⟩

/-- **A worker's step behind the lookup**: a store keeps its response for its own request. -/
theorem CachedInv.work (h : CachedInv s) {e : DeliveryEvent} {s' : CachedRun}
    (hstep : cachedStep cfg s (.work e) = some s') : CachedInv s' := by
  have hfind : ∀ worker id, e ≠ .find worker id := by
    rintro worker id rfl
    cases hstep
  obtain ⟨work, hwork, rfl⟩ : ∃ work, deliveryStep cfg s.work e = some work ∧
      s' = { s with work, producer := s.stored e } := by
    cases e with
    | find worker id => exact absurd rfl (hfind worker id)
    | _ =>
      simp only [cachedStep] at hstep
      obtain ⟨work, hwork, rfl⟩ := Option.map_eq_some_iff.mp hstep
      exact ⟨work, hwork, rfl⟩
  obtain ⟨hids, hcache⟩ := deliveryStep_frame hfind hwork
  have hlength : work.deliveries.length = s.work.deliveries.length := by
    simpa using congrArg List.length hids
  refine ⟨h.counter, h.issued, h.serial, h.length.trans hlength.symm, fun i d hd => ?_,
    fun worker id entry hentry => ?_, h.own⟩
  · have hid : (s.work.deliveries.map Delivery.requestId)[i]? = some d.requestId := by
      rw [← hids, List.getElem?_map, hd]
      rfl
    rw [List.getElem?_map] at hid
    obtain ⟨d', hd', hid'⟩ := Option.map_eq_some_iff.mp hid
    obtain ⟨q, r, hq, hr, htext⟩ := h.asked i d' hd'
    exact ⟨q, r, hq, hr, htext.trans hid'⟩
  · simp only at hentry ⊢
    by_cases hstore : ∃ i, e = .store i
    · obtain ⟨i, rfl⟩ := hstore
      obtain ⟨d, envelope, hd, hcache⟩ := deliveryStep_store hwork
      rw [hcache] at hentry
      simp only [CachedRun.stored, hd]
      by_cases hworker : worker = d.worker
      · subst hworker
        rw [Function.update_self] at hentry ⊢
        by_cases hid : id = d.requestId
        · subst hid
          rw [Function.update_self]
          exact h.asked i d hd
        · rw [Function.update_of_ne hid]
          exact h.produced _ id entry (DedupCache.lookup_of_lookup_store hid hentry)
      · rw [Function.update_of_ne hworker] at hentry ⊢
        exact h.produced worker id entry hentry
    · have hsame : s.stored e = s.producer := by
        cases e with
        | store i => exact absurd ⟨i, rfl⟩ hstore
        | _ => rfl
      rw [hcache fun i hi => hstore ⟨i, hi⟩] at hentry
      rw [hsame]
      exact h.produced worker id entry hentry

/-- A hit gives out the response of a request that the worker holds, with the same id. -/
theorem CachedInv.holds_of_hit (h : CachedInv s) {worker : ℕ} {r : HttpRequest} {cached : Bytes}
    (hhit : ((s.work.cache worker).find cfg s.work.clock r.id.text).1 = some cached) :
    ∃ q' r', s.producer worker r.id.text = some q' ∧ Holds s worker q' r' ∧ r.id = r'.id := by
  have henabled : cfg.enabled = true := by
    by_contra hdisabled
    rw [DedupCache.find, if_pos (by simpa using hdisabled)] at hhit
    cases hhit
  obtain ⟨entry, hlookup, hlive, -⟩ := (DedupCache.find_eq_some_iff henabled _ _ _ _).mp hhit
  obtain ⟨q', r', hproducer, hr', hid⟩ := h.produced worker r.id.text entry hlookup
  have hsame : r'.id = r.id := RequestId.text_injective hid
  refine ⟨q', r', hproducer, ⟨hr', ?_, entry, ?_, hlive⟩, hsame.symm⟩
  · rw [hid, hproducer]
  · rw [hid, hlookup]

/-- Two requests with the same id that are not one and the same are twins. -/
theorem CachedInv.twins (h : CachedInv s) {q q' : ℕ} {r r' : HttpRequest}
    (hr : s.requests[q]? = some r) (hr' : s.requests[q']? = some r') (hid : r.id = r'.id)
    (hne : q ≠ q') : Twins r r' := by
  refine ⟨?_, by rw [hid], by rw [hid], by rw [hid]⟩
  by_cases hstart : (r.process, r.boot) = (r'.process, r'.boot)
  · obtain ⟨hp, hboot⟩ := Prod.mk.inj hstart
    have hserial : r.serial ≠ r'.serial := fun hserial =>
      hne (h.serial q q' r r' hr hr' hp hboot hserial)
    have hcounter : counterValue r.serial = counterValue r'.serial := by
      rw [← h.counter q r hr, ← h.counter q' r' hr', hid]
    exact .inr (apart_of_counterValue_eq hcounter hserial)
  · exact .inl hstart

/-- The lookup of a request keeps everything but the answer that it may give. -/
theorem CachedInv.deliver (h : CachedInv s) {worker q : ℕ} {s' : CachedRun}
    (hmeet : NoTwinHeld s (.deliver worker q))
    (hstep : cachedStep cfg s (.deliver worker q) = some s') : CachedInv s' := by
  simp only [cachedStep] at hstep
  split at hstep
  · cases hstep
  rename_i r hr
  obtain ⟨work, hwork, rfl⟩ := Option.map_eq_some_iff.mp hstep
  obtain rfl := Option.some.inj hwork
  refine ⟨h.counter, h.issued, h.serial, ?_, fun i d hd => ?_, fun w id entry hentry => ?_, ?_⟩
  · simp only [List.length_append, h.length, List.length_singleton]
  · simp only at hd ⊢
    rw [List.getElem?_append] at hd ⊢
    rw [h.length]
    split at hd
    · rename_i hlt
      rw [if_pos hlt]
      exact h.asked i d hd
    · rename_i hlt
      rw [if_neg hlt]
      rw [List.getElem?_singleton] at hd ⊢
      split at hd
      · rename_i hzero
        obtain rfl := Option.some.inj hd
        rw [if_pos hzero]
        exact ⟨q, r, rfl, hr, rfl⟩
      · cases hd
  · exact h.produced w id entry ((lookup_afterFind worker r.id.text w id).2 entry hentry)
  · intro hit hhit
    simp only at hhit
    split at hhit
    · rename_i hsome
      rcases List.mem_cons.mp hhit with rfl | hhit
      · obtain ⟨cached, hcached⟩ := Option.isSome_iff_exists.mp hsome
        obtain ⟨q', r', hproducer, hholds, hid⟩ := h.holds_of_hit hcached
        by_contra hother
        have hne : q ≠ q' := by
          rintro rfl
          exact hother hproducer
        exact hmeet r hr q' r' hholds (h.twins hr hholds.1 hid hne)
      · exact h.own hit hhit
    · exact h.own hit hhit

/-! ## Runs -/

/-- **One step keeps the invariant.** -/
theorem cachedInv_step {e : CachedEvent} {s' : CachedRun} (h : CachedInv s)
    (hmeet : NoTwinHeld s e) (hstep : cachedStep cfg s e = some s') : CachedInv s' := by
  cases e with
  | restart p =>
    obtain rfl := Option.some.inj hstep
    exact h.restart p
  | issue p thread steadyNow today suffix => exact h.issue p thread steadyNow today suffix hstep
  | deliver worker q => exact h.deliver hmeet hstep
  | work e => exact h.work hstep

theorem not_twins_self (r : HttpRequest) : ¬ Twins r r := by
  intro h
  rcases h.apart with hstart | hserial | hserial
  · exact hstart rfl
  · omega
  · omega

/-- A request that comes to a worker with the response of a twin is answered with it. -/
theorem noTwinHeld_of_ownAnswers (henabled : cfg.enabled = true) {e : CachedEvent}
    {s' : CachedRun} (hstep : cachedStep cfg s e = some s') (hown : OwnAnswers s') :
    NoTwinHeld s e := by
  cases e with
  | deliver worker q =>
    intro r hr q' r' hholds htwins
    obtain ⟨hr', hproducer, entry, hlookup, hlive⟩ := hholds
    have hid : r.id = r'.id := RequestId.ext htwins.date htwins.counter htwins.suffix
    rw [← hid] at hproducer hlookup
    have hhit := (DedupCache.find_eq_some_iff henabled s.work.clock r.id.text
      (s.work.cache worker) entry.response).mpr ⟨entry, hlookup, hlive, rfl⟩
    simp only [cachedStep, hr, hhit, Option.isSome_some, if_true] at hstep
    obtain ⟨work, -, rfl⟩ := Option.map_eq_some_iff.mp hstep
    have hsame := hown (q, s.producer worker r.id.text) List.mem_cons_self
    simp only [hproducer] at hsame
    obtain rfl : q' = q := Option.some.inj hsame
    obtain rfl : r = r' := Option.some.inj (hr.symm.trans hr')
    exact not_twins_self r htwins
  | _ => trivial

/-- **Answers from the cache, and twins.**  In every run in which no request comes to a worker
that still holds the response of a twin, whatever is answered from a cache was produced for
the same request; and with the cache enabled these are all the runs in which that holds. -/
theorem ownAnswers_iff (cfg : DedupConfig) (es : List CachedEvent) :
    (StepsMeet (cachedStep cfg) NoTwinHeld initialCached es →
      Always (cachedStep cfg) OwnAnswers initialCached es) ∧
    (cfg.enabled = true → Always (cachedStep cfg) OwnAnswers initialCached es →
      StepsMeet (cachedStep cfg) NoTwinHeld initialCached es) := by
  constructor
  · exact always_of_stepsMeet (fun s e s' h hmeet hstep => cachedInv_step h hmeet hstep)
      (fun s h => h.own) cachedInv_initial
  · intro henabled
    refine stepsMeet_of_always (fun s e s' h hmeet hstep => cachedInv_step h hmeet hstep)
      (fun s e s' _ hstep hown => noTwinHeld_of_ownAnswers henabled hstep hown) ?_
      cachedInv_initial
    intro s e hnone
    cases e with
    | deliver worker q =>
      intro r hr
      simp only [cachedStep, hr, deliveryStep] at hnone
      cases hnone
    | _ => trivial

/-! ## Two processes -/

/-- A day. -/
def someDay : Date := ⟨2026, 1, 5⟩

/-- Two processes that have just started issue their first requests, with the random number 7;
the worker that has answered one of them gets the other. -/
def firstRequests : List CachedEvent :=
  [.issue 0 0 0 someDay 7, .issue 1 0 0 someDay 7, .deliver 0 0, .work (.execute 0),
    .work (.respond 0 (some (ascii "one"))), .work (.store 0), .work (.reply 0), .deliver 0 1]

/-- The second request is answered with the response of the first. -/
theorem not_ownAnswers_firstRequests :
    (∃ s, run (cachedStep smallCache) initialCached firstRequests = some s ∧
      s.hits = [(1, some 0)] ∧
      s.work.deliveries.map Delivery.stage =
        [.answered (ascii "one"), .answered (ascii "one")]) ∧
    ¬ Always (cachedStep smallCache) OwnAnswers initialCached firstRequests := by
  have hrun : ∃ s, run (cachedStep smallCache) initialCached firstRequests = some s ∧
      s.hits = [(1, some 0)] ∧
      s.work.deliveries.map Delivery.stage =
        [.answered (ascii "one"), .answered (ascii "one")] := ⟨_, rfl, rfl, rfl⟩
  refine ⟨hrun, fun hall => ?_⟩
  obtain ⟨s, hs, hhits, -⟩ := hrun
  have hown := always_iff.mp hall firstRequests [] s (List.append_nil _).symm hs
  have := hown (1, some 0) (by rw [hhits]; exact List.mem_singleton_self _)
  exact absurd this (by decide)

/-- A request is sent again, and comes to the worker that has answered it. -/
def sentAgain : List CachedEvent :=
  [.issue 0 0 0 someDay 7, .deliver 0 0, .work (.execute 0),
    .work (.respond 0 (some (ascii "one"))), .work (.store 0), .work (.reply 0), .deliver 0 0]

/-- It is answered with its own response. -/
theorem ownAnswers_sentAgain :
    StepsMeet (cachedStep smallCache) NoTwinHeld initialCached sentAgain ∧
    Always (cachedStep smallCache) OwnAnswers initialCached sentAgain ∧
    ∃ s, run (cachedStep smallCache) initialCached sentAgain = some s ∧ s.hits = [(0, some 0)] := by
  have hmeet : StepsMeet (cachedStep smallCache) NoTwinHeld initialCached sentAgain := by
    refine stepsMeet_cons_of_step trivial rfl ?_
    refine stepsMeet_cons_of_step (fun r hr q' r' hholds => ?_) rfl ?_
    · obtain ⟨-, -, entry, hlookup, -⟩ := hholds
      cases hlookup
    refine stepsMeet_cons_of_step trivial rfl ?_
    refine stepsMeet_cons_of_step trivial rfl ?_
    refine stepsMeet_cons_of_step trivial rfl ?_
    refine stepsMeet_cons_of_step trivial rfl ?_
    refine stepsMeet_cons_of_step (fun r hr q' r' hholds => ?_) rfl trivial
    -- there is only one request
    obtain ⟨hr', -⟩ := hholds
    cases q' with
    | zero =>
      obtain rfl : r = r' := Option.some.inj (hr.symm.trans hr')
      exact not_twins_self r
    | succ q' => cases hr'
  exact ⟨hmeet, (ownAnswers_iff smallCache sentAgain).1 hmeet, _, rfl, rfl⟩

end Transport
end HttpDataDiod
