import HttpDataDiod.Routing.CanonicalPath
import HttpDataDiod.Routing.ParseUrl

/-!
# The allowed servers

Model of `extract_scheme_host_port`, `find_allowed_l2_server` and
`build_l2_url` of `l2_routing.hpp`: which configured server a request path is
sent to, and the URL it is sent to there.

* `findAllowedL2Server`, `buildL2Url`: the two decisions.
* `LiesUnder`: a path under a base, at a segment boundary.
* `parseUrl_buildL2Url`: the URL built for a parsable server parses, to the
  server's origin and the canonical path.
* `findAllowedL2Server_path_policy`: what is allowed, and what is refused.
-/

namespace HttpDataDiod
namespace Routing

open ByteText

/-! ## The decisions -/

/-- The port as it stands in an origin; a default port is left out. -/
def portSuffix (parsed : ParsedUrl) : Bytes :=
  if parsed.port ≠ defaultPort parsed.isHttps then 58 :: decimalInt parsed.port else []

/-- `scheme://host[:port]`. -/
def originText (parsed : ParsedUrl) : Bytes :=
  schemeText parsed.isHttps ++ (parsed.host ++ portSuffix parsed)

/-- `extract_scheme_host_port`: empty on a malformed URL. -/
def extractSchemeHostPort (url : Bytes) : Bytes :=
  match parseUrl url with
  | .ok parsed => originText parsed
  | .error _ => []

/-- The paths that every configuration allows, on the first server. -/
def IsCommonPath (path : Bytes) : Prop :=
  path = ascii "/metrics" ∨ path = ascii "/" ∨ path = ascii "/favicon.ico"

instance (path : Bytes) : Decidable (IsCommonPath path) :=
  inferInstanceAs
    (Decidable (path = ascii "/metrics" ∨ path = ascii "/" ∨ path = ascii "/favicon.ico"))

/-- The prefix test of `find_allowed_l2_server`. -/
def matchesBase (basePath path : Bytes) : Bool :=
  basePath = ascii "/" || path = basePath ||
    (basePath.isPrefixOf path &&
      (path.length = basePath.length || path[basePath.length]? = some 47))

/-- One pass of the loop of `find_allowed_l2_server`; a base that does not parse
is compared as a raw prefix. -/
def baseAllows (path allowedBase : Bytes) : Bool :=
  match parseUrl allowedBase with
  | .ok parsed => matchesBase (canonicalizePath parsed.path) path
  | .error _ => allowedBase.isPrefixOf path

/-- `find_allowed_l2_server`: the selected URL. -/
def findAllowedL2Server (urls : List Bytes) (path : Bytes) : Option Bytes :=
  match urls with
  | [] => none
  | first :: _ =>
    let normalizedPath := canonicalizePath path
    if IsCommonPath normalizedPath then some first
    else urls.find? (baseAllows normalizedPath)

/-- `build_l2_url`. -/
def buildL2Url (selectedUrl path : Bytes) : Bytes :=
  let baseUrl := extractSchemeHostPort selectedUrl
  let canonicalPath := canonicalizePath path
  if baseUrl.getLast? = some 47 then baseUrl.dropLast ++ canonicalPath
  else baseUrl ++ canonicalPath

/-! ## A base and the paths under it -/

/-- A path under a base: any path under `/`, the base itself, or the base
continued by a slash. -/
def LiesUnder (basePath path : Bytes) : Prop :=
  basePath = ascii "/" ∨ path = basePath ∨ basePath ++ [47] <+: path

theorem matchesBase_iff (basePath path : Bytes) :
    matchesBase basePath path = true ↔ LiesUnder basePath path := by
  unfold matchesBase LiesUnder
  simp only [Bool.or_eq_true, Bool.and_eq_true, decide_eq_true_eq, List.isPrefixOf_iff_prefix]
  constructor
  · rintro ((h | h) | ⟨⟨t, rfl⟩, hlen | hnext⟩)
    · exact Or.inl h
    · exact Or.inr (Or.inl h)
    · have ht : t = [] := by
        rw [List.length_append] at hlen
        exact List.length_eq_zero_iff.mp (by omega)
      exact Or.inr (Or.inl (by rw [ht, List.append_nil]))
    · cases t with
      | nil => simp at hnext
      | cons c t =>
        obtain rfl : c = 47 := by simpa using hnext
        exact Or.inr (Or.inr ⟨t, by simp⟩)
  · rintro (h | h | ⟨t, rfl⟩)
    · exact Or.inl (Or.inl h)
    · exact Or.inl (Or.inr h)
    · refine Or.inr ⟨⟨47 :: t, by simp⟩, Or.inr ?_⟩
      simp

/-! ## The URL that is built -/

theorem slash_not_mem_decimalInt (n : ℤ) : 47 ∉ decimalInt n := by
  intro h
  rcases isDigit_of_mem_decimalInt h with h | h
  · exact absurd h (by decide)
  · exact absurd h (by decide)

theorem slash_not_mem_portSuffix (parsed : ParsedUrl) : 47 ∉ portSuffix parsed := by
  unfold portSuffix
  split
  · intro h
    rcases List.mem_cons.mp h with h | h
    · exact absurd h (by decide)
    · exact slash_not_mem_decimalInt _ h
  · simp

/-- An origin does not end with a slash: its last byte is one of the host or of
the port. -/
theorem getLast_originText {parsed : ParsedUrl} (h : WellFormed parsed) :
    (originText parsed).getLast? ≠ some 47 := by
  have hne : parsed.host ++ portSuffix parsed ≠ [] := fun hnil =>
    h.host_ne_nil (List.append_eq_nil_iff.mp hnil).1
  rw [originText, List.getLast?_append_of_ne_nil _ hne]
  intro hlast
  rcases List.mem_append.mp (List.mem_of_getLast? hlast) with hmem | hmem
  · exact h.slash_not_mem hmem
  · exact slash_not_mem_portSuffix parsed hmem

/-- What the authority of an origin and the path behind it parse to. -/
theorem parseAuthority_portSuffix {parsed : ParsedUrl} (h : WellFormed parsed) (p : Bytes) :
    parseAuthority parsed.isHttps (parsed.host ++ portSuffix parsed ++ 47 :: p)
      = { host := parsed.host, path := 47 :: p, port := parsed.port,
          isHttps := parsed.isHttps } := by
  unfold portSuffix
  split
  · have hread : stoi (decimalInt parsed.port) = some parsed.port := by
      have := stoi_decimalInt_append h.port_range (r := []) (by simp)
      rwa [List.append_nil] at this
    rw [List.append_assoc, List.cons_append,
      parseAuthority_host_port _ h.colon_not_mem h.slash_not_mem (slash_not_mem_decimalInt _),
      hread]
    rfl
  · next hport =>
    rw [List.append_nil, parseAuthority_host _ h.colon_not_mem h.slash_not_mem]
    rw [not_ne_iff.mp hport]

/-- **A written-out origin, followed by a path, parses to that origin and that
path.** -/
theorem parseUrl_originText {parsed : ParsedUrl} (h : WellFormed parsed) (p : Bytes) :
    parseUrl (originText parsed ++ 47 :: p)
      = .ok { host := parsed.host, path := 47 :: p, port := parsed.port,
              isHttps := parsed.isHttps } := by
  rw [originText, List.append_assoc, parseUrl_schemeText _ (by simp),
    parseAuthority_portSuffix h]
  simp [checkParsed, h.host_ne_nil]

/-- For a parsable server the canonical path is joined to the origin. -/
theorem buildL2Url_of_parseUrl {u : Bytes} {parsed : ParsedUrl} (hu : parseUrl u = .ok parsed)
    (path : Bytes) : buildL2Url u path = originText parsed ++ canonicalizePath path := by
  have hbase : extractSchemeHostPort u = originText parsed := by
    rw [extractSchemeHostPort, hu]
  rw [buildL2Url, hbase, if_neg (getLast_originText (wellFormed_of_parseUrl hu))]

/-- For a server that does not parse it stands alone. -/
theorem buildL2Url_of_error {u e : Bytes} (hu : parseUrl u = .error e) (path : Bytes) :
    buildL2Url u path = canonicalizePath path := by
  have hbase : extractSchemeHostPort u = [] := by
    rw [extractSchemeHostPort, hu]
  rw [buildL2Url, hbase]
  rfl

/-- A canonical path starts with a slash. -/
theorem canonicalizePath_head (path : Bytes) : ∃ p, canonicalizePath path = 47 :: p := by
  obtain ⟨segments, hpath, -⟩ := canonicalizePath_eq_render path
  rw [hpath]
  exact render_head segments

/-- **The URL built for a parsable server**, with anything behind it, parses to
the server's origin; the path is the canonical path and what stands behind. -/
theorem parseUrl_buildL2Url {u : Bytes} {parsed : ParsedUrl} (hu : parseUrl u = .ok parsed)
    (path r : Bytes) :
    parseUrl (buildL2Url u path ++ r)
      = .ok { host := parsed.host, path := canonicalizePath path ++ r, port := parsed.port,
              isHttps := parsed.isHttps } := by
  obtain ⟨p, hp⟩ := canonicalizePath_head path
  rw [buildL2Url_of_parseUrl hu, List.append_assoc, hp, List.cons_append,
    parseUrl_originText (wellFormed_of_parseUrl hu)]

/-! ## What is allowed, and what is refused -/

theorem findAllowedL2Server_cons (first : Bytes) (rest : List Bytes) (path : Bytes) :
    findAllowedL2Server (first :: rest) path =
      if IsCommonPath (canonicalizePath path) then some first
      else (first :: rest).find? (baseAllows (canonicalizePath path)) := rfl

/-- The selected server is a configured one. -/
theorem mem_of_findAllowedL2Server {urls : List Bytes} {path u : Bytes}
    (hfind : findAllowedL2Server urls path = some u) : u ∈ urls := by
  cases urls with
  | nil => exact absurd hfind (by simp [findAllowedL2Server])
  | cons first rest =>
    rw [findAllowedL2Server_cons] at hfind
    split at hfind
    · rw [← Option.some.inj hfind]
      exact List.mem_cons_self
    · exact List.mem_of_find?_eq_some hfind

/-- A selected server that parses has the path under its base, or is the first
server and the path is a common one. -/
theorem liesUnder_of_findAllowedL2Server {urls : List Bytes} {path u : Bytes}
    {parsed : ParsedUrl} (hfind : findAllowedL2Server urls path = some u)
    (hu : parseUrl u = .ok parsed) :
    (IsCommonPath (canonicalizePath path) ∧ urls.head? = some u) ∨
      LiesUnder (canonicalizePath parsed.path) (canonicalizePath path) := by
  cases urls with
  | nil => exact absurd hfind (by simp [findAllowedL2Server])
  | cons first rest =>
    rw [findAllowedL2Server_cons] at hfind
    split at hfind
    · next hcommon => exact Or.inl ⟨hcommon, by rw [← Option.some.inj hfind]; rfl⟩
    · have hallows := List.find?_some hfind
      rw [baseAllows, hu] at hallows
      exact Or.inr ((matchesBase_iff _ _).mp hallows)

/-- A refused path is no common path, and under no base that parses. -/
theorem not_liesUnder_of_findAllowedL2Server {urls : List Bytes} {path : Bytes}
    (hurls : urls ≠ []) (hfind : findAllowedL2Server urls path = none) :
    ¬ IsCommonPath (canonicalizePath path) ∧
      ∀ u ∈ urls, ∀ parsed, parseUrl u = .ok parsed →
        ¬ LiesUnder (canonicalizePath parsed.path) (canonicalizePath path) := by
  cases urls with
  | nil => exact absurd rfl hurls
  | cons first rest =>
    rw [findAllowedL2Server_cons] at hfind
    split at hfind
    · exact absurd hfind (by simp)
    · next hcommon =>
      refine ⟨hcommon, fun u hmem parsed hu hunder => ?_⟩
      have hno := List.find?_eq_none.mp hfind u hmem
      rw [baseAllows, hu] at hno
      exact hno ((matchesBase_iff _ _).mpr hunder)

/-- **The path part of the policy.**  A request that is allowed on a parsable
server goes to that server's scheme, host and port, under its canonical path;
that path has plain segments only, and it is a common path on the first server
or lies under the server's base.  With at least one server configured, a refused
path is no common path and lies under no base that parses. -/
theorem findAllowedL2Server_path_policy (urls : List Bytes) (path : Bytes) :
    (∀ u parsed, findAllowedL2Server urls path = some u → parseUrl u = .ok parsed →
      ∃ r, parseUrl (buildL2Url u path) = .ok r ∧ r.isHttps = parsed.isHttps ∧
        r.host = parsed.host ∧ r.port = parsed.port ∧ r.path = canonicalizePath path ∧
        (∃ segments, canonicalizePath path = render segments ∧
          ∀ x ∈ segments, IsPlainSegment x) ∧
        ((IsCommonPath (canonicalizePath path) ∧ urls.head? = some u) ∨
          LiesUnder (canonicalizePath parsed.path) (canonicalizePath path))) ∧
    (urls ≠ [] → (∀ u ∈ urls, ∃ parsed, parseUrl u = .ok parsed) →
      findAllowedL2Server urls path = none →
      ¬ IsCommonPath (canonicalizePath path) ∧
        ∀ u ∈ urls, ∀ parsed, parseUrl u = .ok parsed →
          ¬ LiesUnder (canonicalizePath parsed.path) (canonicalizePath path)) := by
  constructor
  · intro u parsed hfind hu
    have hparse := parseUrl_buildL2Url hu path []
    rw [List.append_nil, List.append_nil] at hparse
    exact ⟨_, hparse, rfl, rfl, rfl, rfl, canonicalizePath_eq_render path,
      liesUnder_of_findAllowedL2Server hfind hu⟩
  · intro hurls _ hfind
    exact not_liesUnder_of_findAllowedL2Server hurls hfind

/-- Without a configured server even `/` is refused, though every base parses. -/
theorem findAllowedL2Server_no_server :
    (∀ u ∈ ([] : List Bytes), ∃ parsed, parseUrl u = .ok parsed) ∧
    findAllowedL2Server [] (ascii "/") = none ∧
    IsCommonPath (canonicalizePath (ascii "/")) := by
  refine ⟨by simp, rfl, ?_⟩
  decide

/-- The two halves of the policy at a server with a base. -/
theorem findAllowedL2Server_path_policy_at_api :
    findAllowedL2Server [ascii "http://l2:8080/api/"] (ascii "/x/../api//v1")
      = some (ascii "http://l2:8080/api/") ∧
    (∃ r, parseUrl (buildL2Url (ascii "http://l2:8080/api/") (ascii "/x/../api//v1")) = .ok r ∧
      r.path = ascii "/api/v1") ∧
    findAllowedL2Server [ascii "http://l2:8080/api/"] (ascii "/apiv2") = none ∧
    ¬ LiesUnder (ascii "/api") (ascii "/apiv2") := by
  have hfind : findAllowedL2Server [ascii "http://l2:8080/api/"] (ascii "/x/../api//v1")
      = some (ascii "http://l2:8080/api/") := by decide
  have hrefuse : findAllowedL2Server [ascii "http://l2:8080/api/"] (ascii "/apiv2") = none := by
    decide
  have hparse : parseUrl (ascii "http://l2:8080/api/")
      = .ok { host := ascii "l2", path := ascii "/api/", port := 8080, isHttps := false } := rfl
  obtain ⟨r, hr, -, -, -, hpath, -, -⟩ :=
    (findAllowedL2Server_path_policy _ _).1 _ _ hfind hparse
  have hnot := ((findAllowedL2Server_path_policy _ _).2 (by simp)
    (fun u hu => ⟨_, List.mem_singleton.mp hu ▸ hparse⟩) hrefuse).2 _
    List.mem_cons_self _ hparse
  exact ⟨hfind, ⟨r, hr, hpath.trans (by decide)⟩, hrefuse, hnot⟩

end Routing
end HttpDataDiod
