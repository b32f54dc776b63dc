import HttpDataDiod.Http.Client
import HttpDataDiod.Routing.AllowedServer

/-!
# The host a request is sent to

The routing decides on a configured server; the client then parses the request
URL once more, after the query has been appended, and dials what it finds there.
For a server that parses, the second parse gives that server.  For one that does
not, the URL is the bare path, and the first `://` of the *query* starts the
authority.

* `requestUrl`: the URL handed to the client.
* `parseUrl_requestUrl`, `parseUrl_requestUrl_of_error`: what it parses to.
* `dialsConfigured_iff`: the client dials the configured server exactly when
  the server parses or the query names no host of its own.
-/

namespace HttpDataDiod
namespace Http

open ByteText Routing

/-- The URL of the HTTP request in `execute_l2_call_with_retry`: the query is
appended only when there is one. -/
def requestUrl (url query : Bytes) : Bytes := if query = [] then url else url ++ 63 :: query

/-- **A parsable server is what the request URL parses to.** -/
theorem parseUrl_requestUrl {u : Bytes} {parsed : ParsedUrl} (hu : parseUrl u = .ok parsed)
    (path query : Bytes) :
    ∃ r, parseUrl (requestUrl (buildL2Url u path) query) = .ok r ∧ r.host = parsed.host ∧
      r.port = parsed.port ∧ r.isHttps = parsed.isHttps := by
  unfold requestUrl
  split
  · have hparse := parseUrl_buildL2Url hu path []
    rw [List.append_nil] at hparse
    exact ⟨_, hparse, rfl, rfl, rfl⟩
  · exact ⟨_, parseUrl_buildL2Url hu path (63 :: query), rfl, rfl, rfl⟩

/-- **For a server that does not parse, the query decides.** -/
theorem parseUrl_requestUrl_of_error {u e : Bytes} (hu : parseUrl u = .error e)
    (path query : Bytes) :
    (parseUrl (requestUrl (buildL2Url u path) query)).toOption
      = (parseUrl (63 :: query)).toOption := by
  obtain ⟨segments, hpath, hplain⟩ := canonicalizePath_eq_render path
  rw [buildL2Url_of_error hu, hpath]
  unfold requestUrl
  split
  · next hquery =>
    rw [hquery, parseUrl_toOption, findSub_render hplain]
    rfl
  · exact parseUrl_append_query (render_head segments) (findSub_render_query hplain query)

/-! ## What a fresh client dials -/

/-- A fresh client sends exactly when the URL parses to a valid port, and then
to that host and port. -/
theorem send_create (now : ℕ) (url body traceparent : Bytes) (hs : Headers)
    (answer : Except Bytes HttpResponse) :
    (∀ s, ((HttpClient.create now).send now url body traceparent hs answer).sent = some s →
      ∃ p, parseUrl url = .ok p ∧ ValidPort p.port ∧ s.endpoint = ⟨p.host, p.port⟩) ∧
    (∀ p, parseUrl url = .ok p → ValidPort p.port →
      ∃ s, ((HttpClient.create now).send now url body traceparent hs answer).sent = some s) := by
  have hnone : ∀ b, (HttpClient.create now).transport b = none := by
    intro b
    cases b <;> rfl
  constructor
  · intro s hs'
    rcases HttpClient.send_cases (HttpClient.create now) now url body traceparent hs answer with
      ⟨-, hsent, -⟩ | ⟨p, t, -, -, -, htransport, -⟩ | ⟨p, t, hp, hsent, -, hport, -, hend, -⟩
    · exact absurd (hsent.symm.trans hs') (by simp)
    · exact absurd ((hnone p.isHttps).symm.trans htransport) (by simp)
    · obtain rfl : t = s := Option.some.inj (hsent.symm.trans hs')
      exact ⟨p, hp, hport, hend⟩
  · intro p hp hvalid
    exact HttpClient.exists_send_sent_iff.mpr ⟨p, hp, Or.inr hvalid⟩

/-- The client dials the host and port of the selected server, and nothing at
all when that server does not parse. -/
def DialsConfigured (u path query : Bytes) : Prop :=
  ∀ now body traceparent hs answer,
    let r := (HttpClient.create now).send now (requestUrl (buildL2Url u path) query)
      body traceparent hs answer
    match parseUrl u with
    | .ok parsed => ∀ s, r.sent = some s → s.endpoint = ⟨parsed.host, parsed.port⟩
    | .error _ => r.sent = none

theorem eq_ok_of_toOption {ε α : Type} {x y : Except ε α} (h : x.toOption = y.toOption) {a : α}
    (hx : x = .ok a) : y = .ok a := by
  cases y with
  | error e => exact absurd h (by simp [hx, Except.toOption])
  | ok b =>
    obtain rfl : a = b := by simpa [hx, Except.toOption] using h
    rfl

/-- **The host part of the policy.**  The client dials the selected server, and
nothing when the server does not parse, exactly when the server parses or the
query, read as a URL, names no host with a valid port. -/
theorem dialsConfigured_iff (u path query : Bytes) :
    DialsConfigured u path query ↔
      (∃ parsed, parseUrl u = .ok parsed) ∨
        ∀ r, parseUrl (63 :: query) = .ok r → ¬ ValidPort r.port := by
  unfold DialsConfigured
  cases hu : parseUrl u with
  | ok parsed =>
    obtain ⟨r, hr, hhost, hport, -⟩ := parseUrl_requestUrl hu path query
    refine iff_of_true ?_ (Or.inl ⟨parsed, rfl⟩)
    intro now body traceparent hs answer _ s hsent
    obtain ⟨p, hp, -, hend⟩ := (send_create now _ body traceparent hs answer).1 s hsent
    obtain rfl : r = p := Except.ok.inj (hr.symm.trans hp)
    rw [hend, hhost, hport]
  | error e =>
    have hquery := parseUrl_requestUrl_of_error hu path query
    constructor
    · intro h
      right
      intro r hr hvalid
      obtain ⟨s, hs⟩ := (send_create 0 _ [] [] [] (.error [])).2 r
        (eq_ok_of_toOption hquery.symm hr) hvalid
      exact absurd ((h 0 [] [] [] (.error [])).symm.trans hs) (by simp)
    · rintro (⟨parsed, hparsed⟩ | hnone)
      · exact absurd hparsed (by simp)
      · intro now body traceparent hs answer
        refine Option.eq_none_iff_forall_ne_some.mpr fun s hsent => ?_
        obtain ⟨p, hp, hvalid, -⟩ := (send_create now _ body traceparent hs answer).1 s hsent
        exact hnone p (eq_ok_of_toOption hquery hp) hvalid

/-- A base without a scheme, allowed as a raw prefix, and a query that names a
host: the client dials that host. -/
theorem not_dialsConfigured_query_host :
    findAllowedL2Server [ascii "/api"] (ascii "/api/v1") = some (ascii "/api") ∧
    (∃ s, ((HttpClient.create 0).send 0
        (requestUrl (buildL2Url (ascii "/api") (ascii "/api/v1")) (ascii "x=http://evil:8080/"))
        [] [] [] (.error [])).sent = some s ∧ s.endpoint = ⟨ascii "evil", 8080⟩) ∧
    ¬ DialsConfigured (ascii "/api") (ascii "/api/v1") (ascii "x=http://evil:8080/") := by
  refine ⟨by decide, ⟨_, rfl, rfl⟩, ?_⟩
  intro h
  have hnone : ((HttpClient.create 0).send 0
      (requestUrl (buildL2Url (ascii "/api") (ascii "/api/v1")) (ascii "x=http://evil:8080/"))
      [] [] [] (.error [])).sent = none := h 0 [] [] [] (.error [])
  exact Option.some_ne_none _ hnone

end Http
end HttpDataDiod
