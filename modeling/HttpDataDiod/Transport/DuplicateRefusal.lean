import HttpDataDiod.Lib.Transition
import HttpDataDiod.Proxy.DuplicateDetector
import HttpDataDiod.Transport.EnvelopeText

/-!
# Refusing duplicates

`handle_request` asks the duplicate detector before anything else: a POST whose body has been
seen within the time window is answered with 409, since forwarding it would repeat a side
effect.  The detector has then recorded the body, and only afterwards the rate limits are
checked and the envelope is written out and published.  So the bodies it knows are those
that came in, not those that went out.

* `handleRequest`: the way of a request through the detector, the limits and the push.
* `Forwarding`: the detector together with the POSTs that were published.
* `Kept`: the condition on a request: the detector knows its body, or it will be
  published, or a POST with its body was.
* `known_of_stepsMeet`: along a run whose requests meet it, what the detector knows was
  published.
-/

namespace HttpDataDiod
namespace Transport

open ByteText Proxy

/-! ## `handle_request` -/

/-- A call of `handle_request`, with what it takes from outside: the time, the answers of
the limiters, the generated ids, and whether the NATS client publishes the envelope. -/
structure ClientRequest where
  method : Method
  body : Bytes
  req : Request
  env : HandlerChoices
  now : UInt64
  published : Bool

/-- What `handle_request` comes to. -/
inductive Answer where
  /-- The status 409, `duplicate request`. -/
  | duplicate
  /-- The status 429. -/
  | rateLimited
  /-- The envelope was published. -/
  | forwarded
  /-- The request got past the limits, and its envelope was not published. -/
  | notForwarded
  deriving DecidableEq

/-- The header that names the client. -/
def clientId (req : Request) : Bytes :=
  (nonemptyHeader req (ascii "X-DataHub-Client-Id")).getD (ascii "unknown")

/-- The options that `init_proxy_components` gives the detector. -/
def duplicateOptions (cfg : ProxyConfig) (o : DetectorOptions) : DetectorOptions :=
  { o with enabled := cfg.duplicateEnabled }

section Pipeline

variable (json : JsonLibrary) (tracer : Bool) (cfg : ProxyConfig) (o : DetectorOptions)
  (sha256Hex : Bytes → Bytes)

/-- The request passes the limits, its envelope is written out, and the client publishes
it. -/
def isPublished (r : ClientRequest) : Bool :=
  (checkRateLimits cfg r.env (scopedClientIp r.req) r.req).isNone &&
    match pushRequest json r.env r.method r.body r.req tracer with
    | some requestJson => !requestJson.isEmpty && cfg.natsClient && r.published
    | none => false

/-- The condition under which `handle_request` asks the detector. -/
def isRecorded (r : ClientRequest) : Bool :=
  r.method = .post && !r.body.isEmpty && cfg.duplicateEnabled

/-- `handle_request`: the detector afterwards, and the answer. -/
def handleRequest (d : DuplicateDetector) (r : ClientRequest) : DuplicateDetector × Answer :=
  let recorded :=
    DuplicateDetector.record (duplicateOptions cfg o) r.now (clientId r.req) (sha256Hex r.body)
      r.body d
  let d' := if isRecorded cfg r then recorded.detector else d
  if isRecorded cfg r && recorded.isDuplicate && cfg.duplicateRejectEnabled then
    (d', .duplicate)
  else if (checkRateLimits cfg r.env (scopedClientIp r.req) r.req).isSome then (d', .rateLimited)
  else if isPublished json tracer cfg r then (d', .forwarded)
  else (d', .notForwarded)

/-! ## Runs -/

/-- The detector, with the POSTs that were published. -/
structure Forwarding where
  detector : DuplicateDetector
  posts : List ClientRequest

/-- Nothing has come in. -/
def Forwarding.initial : Forwarding := ⟨DuplicateDetector.empty, []⟩

/-- One request after the other. -/
def step (s : Forwarding) (r : ClientRequest) : Option Forwarding :=
  let handled := handleRequest json tracer cfg o sha256Hex s.detector r
  some
    { detector := handled.1,
      posts := if r.method = .post ∧ handled.2 = .forwarded then s.posts ++ [r] else s.posts }

/-- **The condition on a request**, in the state it comes in: a POST with a body that the
detector does not know is published, if none with its body was. -/
def Kept (s : Forwarding) (r : ClientRequest) : Prop :=
  r.method = .post → r.body ≠ [] →
    DuplicateDetector.knows (duplicateOptions cfg o) r.now (sha256Hex r.body) s.detector = true ∨
    isPublished json tracer cfg r = true ∨ ∃ r' ∈ s.posts, r'.body = r.body

end Pipeline

/-! ## The answers -/

section Answers

variable {json : JsonLibrary} {tracer : Bool} {cfg : ProxyConfig} {o : DetectorOptions}
  {sha256Hex : Bytes → Bytes} {d : DuplicateDetector} {r : ClientRequest}

theorem isRecorded_iff :
    isRecorded cfg r = true ↔ r.method = .post ∧ r.body ≠ [] ∧ cfg.duplicateEnabled = true := by
  rw [isRecorded, Bool.and_eq_true, Bool.and_eq_true, decide_eq_true_iff, and_assoc,
    Bool.not_eq_true', ← Bool.not_eq_true, List.isEmpty_iff]

/-- **When a request is refused as a duplicate.** -/
theorem handleRequest_eq_duplicate_iff :
    (handleRequest json tracer cfg o sha256Hex d r).2 = .duplicate ↔
      isRecorded cfg r = true ∧ cfg.duplicateRejectEnabled = true ∧
        DuplicateDetector.knows (duplicateOptions cfg o) r.now (sha256Hex r.body) d = true := by
  unfold handleRequest
  dsimp only
  constructor
  · intro h
    split at h
    · rename_i hdup
      rw [Bool.and_eq_true, Bool.and_eq_true] at hdup
      obtain ⟨⟨hrecorded, hisDup⟩, hreject⟩ := hdup
      rw [DuplicateDetector.isDuplicate_record (isRecorded_iff.mp hrecorded).2.2] at hisDup
      exact ⟨hrecorded, hreject, hisDup⟩
    · split at h
      · exact Answer.noConfusion h
      · split at h
        · exact Answer.noConfusion h
        · exact Answer.noConfusion h
  · rintro ⟨hrecorded, hreject, hknows⟩
    rw [DuplicateDetector.isDuplicate_record (isRecorded_iff.mp hrecorded).2.2, hrecorded, hknows,
      hreject]
    rfl

/-- A request that is published is not limited. -/
theorem checkRateLimits_of_isPublished (h : isPublished json tracer cfg r = true) :
    (checkRateLimits cfg r.env (scopedClientIp r.req) r.req).isSome = false := by
  rw [isPublished, Bool.and_eq_true] at h
  rw [Option.isSome_eq_false_iff]
  exact h.1

/-- The answer to a request that is not refused as a duplicate. -/
theorem answer_of_ne_duplicate
    (h : (handleRequest json tracer cfg o sha256Hex d r).2 ≠ .duplicate) :
    (handleRequest json tracer cfg o sha256Hex d r).2 =
      if (checkRateLimits cfg r.env (scopedClientIp r.req) r.req).isSome then .rateLimited
      else if isPublished json tracer cfg r then .forwarded else .notForwarded := by
  unfold handleRequest at h ⊢
  dsimp only at h ⊢
  split
  · rename_i hrefused
    rw [if_pos hrefused] at h
    exact absurd rfl h
  · split
    · rfl
    · split <;> rfl

/-- **When a request is forwarded.** -/
theorem handleRequest_eq_forwarded_iff :
    (handleRequest json tracer cfg o sha256Hex d r).2 = .forwarded ↔
      (handleRequest json tracer cfg o sha256Hex d r).2 ≠ .duplicate ∧
        isPublished json tracer cfg r = true := by
  constructor
  · intro h
    have hne : (handleRequest json tracer cfg o sha256Hex d r).2 ≠ .duplicate := by
      rw [h]
      exact fun h => Answer.noConfusion h
    rw [answer_of_ne_duplicate hne] at h
    refine ⟨hne, ?_⟩
    by_contra hpublished
    rw [if_neg hpublished] at h
    split at h
    · exact Answer.noConfusion h
    · exact Answer.noConfusion h
  · rintro ⟨hne, hpublished⟩
    rw [answer_of_ne_duplicate hne, checkRateLimits_of_isPublished hpublished,
      if_neg (by decide), if_pos hpublished]

/-- **The detector afterwards.** -/
theorem handleRequest_detector :
    (handleRequest json tracer cfg o sha256Hex d r).1 =
      if isRecorded cfg r then
        (DuplicateDetector.record (duplicateOptions cfg o) r.now (clientId r.req)
          (sha256Hex r.body) r.body d).detector
      else d := by
  unfold handleRequest
  dsimp only
  split
  · rfl
  · split
    · rfl
    · split <;> rfl

/-- The spans of the request, by its answer, when the detector's verdict is the one that the
model of the spans takes from outside. -/
theorem spans_handleRequest
    (hverdict : r.env.duplicate =
      DuplicateDetector.knows (duplicateOptions cfg o) r.now (sha256Hex r.body) d) :
    Proxy.handleRequest (vendored json) cfg r.env r.method r.body r.req =
      match (handleRequest json tracer cfg o sha256Hex d r).2 with
      | .duplicate => []
      | .rateLimited => (checkRateLimits cfg r.env (scopedClientIp r.req) r.req).getD []
      | _ => processRequest (vendored json) cfg r.env r.method r.body r.req := by
  have hcondition : (r.method = .post ∧ (!r.body.isEmpty) = true ∧ cfg.duplicateEnabled = true ∧
      r.env.duplicate = true ∧ cfg.duplicateRejectEnabled = true) ↔
      (handleRequest json tracer cfg o sha256Hex d r).2 = .duplicate := by
    rw [handleRequest_eq_duplicate_iff, isRecorded_iff, hverdict, Bool.not_eq_true',
      ← Bool.not_eq_true, List.isEmpty_iff]
    constructor
    · rintro ⟨hpost, hbody, hdetect, hknows, hreject⟩
      exact ⟨⟨hpost, hbody, hdetect⟩, hreject, hknows⟩
    · rintro ⟨⟨hpost, hbody, hdetect⟩, hreject, hknows⟩
      exact ⟨hpost, hbody, hdetect, hknows, hreject⟩
  unfold Proxy.handleRequest
  by_cases hdup : (handleRequest json tracer cfg o sha256Hex d r).2 = .duplicate
  · rw [if_pos (hcondition.mpr hdup), hdup]
  · rw [if_neg (fun h => hdup (hcondition.mp h))]
    rw [answer_of_ne_duplicate hdup]
    cases checkRateLimits cfg r.env (scopedClientIp r.req) r.req with
    | some spans => rfl
    | none =>
      rw [if_neg (by decide)]
      by_cases hpublished : isPublished json tracer cfg r = true
      · rw [if_pos hpublished]
      · rw [if_neg hpublished]

end Answers

/-! ## What the detector knows -/

section Runs

variable {json : JsonLibrary} {tracer : Bool} {cfg : ProxyConfig} {o : DetectorOptions}
  {sha256Hex : Bytes → Bytes} {s s' : Forwarding} {r : ClientRequest}

/-- **The invariant**: the digest of every entry is that of a published POST. -/
def EntriesPublished (sha256Hex : Bytes → Bytes) (s : Forwarding) : Prop :=
  ∀ key ∈ s.detector.entries.map Prod.fst, ∃ r' ∈ s.posts, sha256Hex r'.body = key

theorem known_of_entriesPublished (h : EntriesPublished sha256Hex s) {now : UInt64} {key : Bytes}
    (hknows : DuplicateDetector.knows (duplicateOptions cfg o) now key s.detector = true) :
    ∃ r' ∈ s.posts, sha256Hex r'.body = key := by
  rw [DuplicateDetector.knows, DuplicateDetector.isSome_lookup_iff] at hknows
  exact h key (List.map_subset _ DuplicateDetector.evictExpired_subset hknows)

/-- What was published stays published. -/
theorem posts_subset_step (h : step json tracer cfg o sha256Hex s r = some s') :
    s.posts ⊆ s'.posts := by
  rw [← Option.some.inj h]
  dsimp only
  split
  · exact List.subset_append_left _ _
  · exact List.Subset.refl _

/-- **One request** that meets the condition keeps the invariant. -/
theorem entriesPublished_step (hs : EntriesPublished sha256Hex s)
    (hkept : Kept json tracer cfg o sha256Hex s r)
    (h : step json tracer cfg o sha256Hex s r = some s') : EntriesPublished sha256Hex s' := by
  have hposts := posts_subset_step h
  have hold : ∀ {key}, (∃ r' ∈ s.posts, sha256Hex r'.body = key) →
      ∃ r' ∈ s'.posts, sha256Hex r'.body = key := by
    rintro key ⟨r', hr', hkey⟩
    exact ⟨r', hposts hr', hkey⟩
  intro key hkey
  have hdetector : s'.detector = (handleRequest json tracer cfg o sha256Hex s.detector r).1 := by
    rw [← Option.some.inj h]
  rw [hdetector, handleRequest_detector] at hkey
  split at hkey
  · rename_i hrecorded
    rcases DuplicateDetector.mem_keys_record hkey with rfl | hkey
    · obtain ⟨hpost, hbody, -⟩ := isRecorded_iff.mp hrecorded
      rcases hkept hpost hbody with hknows | hpublished | ⟨r', hr', heq⟩
      · exact hold (known_of_entriesPublished hs hknows)
      · by_cases hdup : (handleRequest json tracer cfg o sha256Hex s.detector r).2 = .duplicate
        · exact hold (known_of_entriesPublished hs (handleRequest_eq_duplicate_iff.mp hdup).2.2)
        · have hforwarded := handleRequest_eq_forwarded_iff.mpr ⟨hdup, hpublished⟩
          refine ⟨r, ?_, rfl⟩
          rw [← Option.some.inj h]
          dsimp only
          rw [if_pos ⟨hpost, hforwarded⟩]
          exact List.mem_append_right _ List.mem_cons_self
      · exact hold ⟨r', hr', by rw [heq]⟩
    · exact hold (hs key hkey)
  · exact hold (hs key hkey)

/-- The published POSTs of a run are requests of the run. -/
theorem posts_of_run {es : List ClientRequest}
    (h : Transition.run (step json tracer cfg o sha256Hex) s es = some s') :
    ∀ r' ∈ s'.posts, r' ∈ s.posts ∨ r' ∈ es ∧ r'.method = .post := by
  induction es generalizing s with
  | nil =>
    obtain rfl : s = s' := Option.some.inj h
    exact fun r' hr' => Or.inl hr'
  | cons e es ih =>
    obtain ⟨t, ht, hrest⟩ := Option.bind_eq_some_iff.mp h
    intro r' hr'
    rcases ih hrest r' hr' with hr' | ⟨hr', hpost⟩
    · rw [← Option.some.inj ht] at hr'
      dsimp only at hr'
      split at hr'
      · rename_i hforwarded
        rcases List.mem_append.mp hr' with hr' | hr'
        · exact Or.inl hr'
        · obtain rfl := List.mem_singleton.mp hr'
          exact Or.inr ⟨List.mem_cons_self, hforwarded.1⟩
      · exact Or.inl hr'
    · exact Or.inr ⟨List.mem_cons_of_mem e hr', hpost⟩

/-- **Every refusal of a run** whose requests meet the condition has a published POST with
the same digest before it. -/
theorem known_of_stepsMeet {run : List ClientRequest}
    (hkept : Transition.StepsMeet (step json tracer cfg o sha256Hex)
      (Kept json tracer cfg o sha256Hex) Forwarding.initial run) :
    Transition.StepsMeet (step json tracer cfg o sha256Hex)
      (fun s r => (handleRequest json tracer cfg o sha256Hex s.detector r).2 = .duplicate →
        ∃ r' ∈ s.posts, sha256Hex r'.body = sha256Hex r.body) Forwarding.initial run := by
  have hinitial : EntriesPublished sha256Hex Forwarding.initial :=
    fun key hkey => absurd hkey List.not_mem_nil
  refine Transition.stepsMeet_of_stepsMeet ?_ ?_ hinitial hkept
  · intro s r s' hs hkept h
    exact entriesPublished_step hs hkept h
  · intro s r hs _ hdup
    exact known_of_entriesPublished hs (handleRequest_eq_duplicate_iff.mp hdup).2.2

/-- **A request that does not meet the condition** makes its own retry a duplicate, and
nothing with its body was published. -/
theorem retry_refused_of_not_kept (hdetect : cfg.duplicateEnabled = true)
    (hreject : cfg.duplicateRejectEnabled = true)
    (hkept : ¬ Kept json tracer cfg o sha256Hex s r)
    (h : step json tracer cfg o sha256Hex s r = some s') :
    (handleRequest json tracer cfg o sha256Hex s'.detector r).2 = .duplicate ∧
      ∀ r' ∈ s'.posts, r'.body ≠ r.body := by
  unfold Kept at hkept
  push Not at hkept
  obtain ⟨hpost, hbody, hunknown, hunpublished, hnone⟩ := hkept
  rw [Ne, Bool.not_eq_true] at hunknown
  have hrecorded : isRecorded cfg r = true := isRecorded_iff.mpr ⟨hpost, hbody, hdetect⟩
  rw [← Option.some.inj h]
  constructor
  · rw [handleRequest_eq_duplicate_iff, handleRequest_detector, if_pos hrecorded]
    exact ⟨hrecorded, hreject, DuplicateDetector.knows_record hdetect hunknown⟩
  · have hnot : ¬ (r.method = .post ∧
        (handleRequest json tracer cfg o sha256Hex s.detector r).2 = .forwarded) :=
      fun hforwarded => hunpublished (handleRequest_eq_forwarded_iff.mp hforwarded.2).2
    dsimp only
    rw [if_neg hnot]
    exact hnone

end Runs

/-- **Refusals follow publications.**  In every run whose requests meet the condition, a POST
that is refused as a duplicate has a published POST with the same body before it; and a
request that does not meet the condition makes its own retry a refused one, with no such
POST before it. -/
theorem refused_only_if_published (json : JsonLibrary) (tracer : Bool) (cfg : ProxyConfig)
    (o : DetectorOptions) (sha256Hex : Bytes → Bytes) (hdetect : cfg.duplicateEnabled = true)
    (hreject : cfg.duplicateRejectEnabled = true) :
    (∀ run : List ClientRequest,
      (∀ r ∈ run, ∀ r' ∈ run, sha256Hex r.body = sha256Hex r'.body → r.body = r'.body) →
      Transition.StepsMeet (step json tracer cfg o sha256Hex) (Kept json tracer cfg o sha256Hex)
        Forwarding.initial run →
      ∀ before r after s, run = before ++ r :: after →
        Transition.run (step json tracer cfg o sha256Hex) Forwarding.initial before = some s →
        (handleRequest json tracer cfg o sha256Hex s.detector r).2 = .duplicate →
        ∃ r' ∈ before, r' ∈ s.posts ∧ r'.method = .post ∧ r'.body = r.body) ∧
    (∀ s r s', ¬ Kept json tracer cfg o sha256Hex s r →
      step json tracer cfg o sha256Hex s r = some s' →
      (handleRequest json tracer cfg o sha256Hex s'.detector r).2 = .duplicate ∧
        ∀ r' ∈ s'.posts, r'.body ≠ r.body) := by
  constructor
  · intro run hcollision hkept before r after s hrun hbefore hdup
    rw [hrun] at hkept hcollision
    obtain ⟨r', hr', hdigest⟩ := (known_of_stepsMeet hkept).of_run hbefore hdup
    rcases posts_of_run hbefore r' hr' with hnil | ⟨hmem, hpost⟩
    · exact absurd hnil List.not_mem_nil
    · have hbody : r'.body = r.body := hcollision r' (List.mem_append_left _ hmem) r
        (List.mem_append_right _ List.mem_cons_self) hdigest
      exact ⟨r', hmem, hr', hpost, hbody⟩
  · intro s r s' hkept h
    exact retry_refused_of_not_kept hdetect hreject hkept h

/-- A proxy with a global limit that refuses duplicates. -/
def refusingConfig : ProxyConfig where
  mode := ⟨ascii "proxy", isValidUtf8_proxyMode⟩
  sampleRate := 1
  rawBodyPassthrough := false
  duplicateEnabled := true
  duplicateRejectEnabled := true
  rateLimiter := some 100
  perIpRateLimiter := none
  dbEnabled := false
  dbSubject := ⟨[], isValidUtf8_nil⟩
  databases := []
  natsClient := true

/-- The default options. -/
def defaultOptions : DetectorOptions where
  enabled := true
  maxEntries := 1000
  ttlMs := 60000
  maxBodyBytes := 500
  perClientMaxEntries := 1000
  perClientTtlMs := 1800000

/-- A POST with the body `1` at a time, and the answer of the limiter. -/
def postOne (now : UInt64) (acquire : Bool) : ClientRequest where
  method := .post
  body := ascii "1"
  req := { sampleRequest with target := ascii "/api", body := ascii "1" }
  env := sampledChoices acquire true
  now := now
  published := true

/-- The text of its envelope. -/
def postOneText : Text where
  bytes := ascii "\x7b\"body\":\"1\"," ++ ascii "\"client_ip\":\"10.0.0.1\"," ++
    ascii "\"method\":\"POST\"," ++ ascii "\"path\":\"/api\"," ++
    ascii "\"proxy_ip\":\"10.0.0.2\"," ++ ascii "\"proxy_span_id\":\"\"," ++
    ascii "\"proxy_trace_id\":\"\"," ++ ascii "\"query\":\"\"," ++
    ascii "\"request_id\":\"\"," ++ ascii "\"timestamp\":0," ++
    ascii "\"traceparent\":\"\"\x7d"
  valid := by decide +kernel

/-- A library that writes this text, and reads the body. -/
def postOneJson : JsonLibrary :=
  (JsonLibrary.single .null postOneText).reading (ascii "1") (.value (.uint 1))

/-- The digest of the body. -/
def postOneSha256 (_ : Bytes) : Bytes :=
  ascii "6b86b273ff34fce19d6b804eff5a3f57" ++ ascii "47ada4eaa22f1d49c01e52ddb7875b4b"

theorem isPublished_postOne :
    isPublished postOneJson false refusingConfig (postOne 0 true) = true := by
  decide +kernel

/-- The state after the first POST. -/
theorem run_postOne :
    ∃ s, Transition.run (step postOneJson false refusingConfig defaultOptions postOneSha256)
      Forwarding.initial [postOne 0 true] = some s ∧
      (handleRequest postOneJson false refusingConfig defaultOptions postOneSha256 s.detector
        (postOne 1000 true)).2 = .duplicate :=
  ⟨_, rfl, by decide +kernel⟩

theorem refused_only_if_published_postOne :
    ∃ s, Transition.run (step postOneJson false refusingConfig defaultOptions postOneSha256)
        Forwarding.initial [postOne 0 true] = some s ∧
      (handleRequest postOneJson false refusingConfig defaultOptions postOneSha256 s.detector
        (postOne 1000 true)).2 = .duplicate ∧
      ∃ r' ∈ [postOne 0 true], r' ∈ s.posts ∧ r'.method = .post ∧ r'.body = ascii "1" := by
  obtain ⟨s, hrun, hdup⟩ := run_postOne
  have hcollision : ∀ r ∈ [postOne 0 true, postOne 1000 true],
      ∀ r' ∈ [postOne 0 true, postOne 1000 true],
      postOneSha256 r.body = postOneSha256 r'.body → r.body = r'.body := by
    have hbody : ∀ r ∈ [postOne 0 true, postOne 1000 true], r.body = ascii "1" := by
      simp only [List.forall_mem_cons]
      exact ⟨rfl, rfl, List.forall_mem_nil _⟩
    intro r hr r' hr' _
    rw [hbody r hr, hbody r' hr']
  have hkept : Transition.StepsMeet
      (step postOneJson false refusingConfig defaultOptions postOneSha256)
      (Kept postOneJson false refusingConfig defaultOptions postOneSha256) Forwarding.initial
      [postOne 0 true, postOne 1000 true] := by
    refine ⟨fun _ _ => Or.inr (Or.inl isPublished_postOne), fun t ht => ⟨fun _ _ => ?_, ?_⟩⟩
    · obtain rfl : s = t := by
        rw [Transition.run_cons_of_step ht, Transition.run_nil] at hrun
        exact (Option.some.inj hrun).symm
      exact Or.inl (handleRequest_eq_duplicate_iff.mp hdup).2.2
    · exact fun _ _ => trivial
  obtain ⟨hrefused, -⟩ := refused_only_if_published postOneJson false refusingConfig
    defaultOptions postOneSha256 rfl rfl
  exact ⟨s, hrun, hdup, hrefused _ hcollision hkept [postOne 0 true] (postOne 1000 true) [] s rfl
    hrun hdup⟩

/-- **A limited POST is held against its retry**: the first one is answered with 429, the
second one with 409, and nothing was published. -/
theorem retry_refused_postOne :
    (handleRequest postOneJson false refusingConfig defaultOptions postOneSha256
      DuplicateDetector.empty (postOne 0 false)).2 = .rateLimited ∧
    ∃ s, Transition.run (step postOneJson false refusingConfig defaultOptions postOneSha256)
        Forwarding.initial [postOne 0 false] = some s ∧
      (handleRequest postOneJson false refusingConfig defaultOptions postOneSha256 s.detector
        (postOne 1000 true)).2 = .duplicate ∧
      s.posts = [] := by
  refine ⟨by decide +kernel, _, rfl, by decide +kernel, ?_⟩
  exact List.eq_nil_of_length_eq_zero (by decide +kernel)

end Transport
end HttpDataDiod
