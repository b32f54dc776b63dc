import HttpDataDiod.Lib.Decimal

/-!
# The URL parser

Model of `parse_url` of `url_utils.hpp`.  It is tolerant: any text before the
first `://` is a scheme, the host runs to the first `:` or `/`, a port that is
no number is replaced by the default of the scheme, and only an empty host is an
error.

* `parseUrl`: the parser, with the texts of its errors.
* `WellFormed`, `wellFormed_of_parseUrl`: what an accepted URL looks like.
* `parseUrl_schemeText`: the parser behind a scheme written out.
* `parseUrl_append_query`: a text in front that neither holds nor begins a
  `://` does not change the host.
-/

namespace HttpDataDiod
namespace Routing

open ByteText

/-- `ParsedUrl`. -/
structure ParsedUrl where
  host : Bytes
  path : Bytes
  port : ℤ
  isHttps : Bool
  deriving DecidableEq

/-- `net_limits::kHttpsPort`, `net_limits::kHttpPort`. -/
def defaultPort (isHttps : Bool) : ℤ := if isHttps then 443 else 80

/-- The part of `parse_url` after `://`. -/
def parseAuthority (isHttps : Bool) (rest : Bytes) : ParsedUrl :=
  let portStart := rest.findIdx? (· = 58)
  let pathStart := rest.findIdx? (· = 47)
  let path := match pathStart with
    | some k => rest.drop k
    | none => ascii "/"
  let withoutPort : ParsedUrl :=
    { host := match pathStart with
        | some k => rest.take k
        | none => rest
      path, port := defaultPort isHttps, isHttps }
  match portStart with
  | none => withoutPort
  | some i =>
    if pathStart.all (i < ·) then
      let portText := match pathStart with
        | some k => (rest.take k).drop (i + 1)
        | none => rest.drop (i + 1)
      -- a port that is no number falls back to the default of the scheme
      { host := rest.take i, path, port := (stoi portText).getD (defaultPort isHttps), isHttps }
    else withoutPort

/-- The final check of `parse_url`. -/
def checkParsed (url : Bytes) (parsed : ParsedUrl) : Except Bytes ParsedUrl :=
  if parsed.host = [] ∨ parsed.path = [] then .error (ascii "Invalid URL: " ++ url)
  else .ok parsed

/-- `parse_url`. -/
def parseUrl (url : Bytes) : Except Bytes ParsedUrl :=
  if url = [] then .error (ascii "Invalid URL: empty string")
  else
    match findSub (ascii "://") url with
    | some protocolEnd =>
      let rest := url.drop (protocolEnd + 3)
      if rest = [] then .error (ascii "Invalid URL: no host after protocol - " ++ url)
      else checkParsed url (parseAuthority (url.take protocolEnd = ascii "https") rest)
    | none =>
      checkParsed url { host := [], path := ascii "/", port := defaultPort false, isHttps := false }

/-! ## Where the host ends -/

/-- What holds of every URL that `parse_url` accepts. -/
structure WellFormed (r : ParsedUrl) : Prop where
  host_ne_nil : r.host ≠ []
  colon_not_mem : 58 ∉ r.host
  slash_not_mem : 47 ∉ r.host
  port_range : InInt32 r.port
  path_head : ∃ p, r.path = 47 :: p

theorem inInt32_defaultPort (isHttps : Bool) : InInt32 (defaultPort isHttps) := by
  cases isHttps <;> decide

/-- The host, the port and the path that the text after `://` gives. -/
theorem parseAuthority_spec (isHttps : Bool) (rest : Bytes) :
    58 ∉ (parseAuthority isHttps rest).host ∧ 47 ∉ (parseAuthority isHttps rest).host ∧
    InInt32 (parseAuthority isHttps rest).port ∧
    (parseAuthority isHttps rest).isHttps = isHttps ∧
    ∃ p, (parseAuthority isHttps rest).path = 47 :: p := by
  have hport : ∀ s, InInt32 ((stoi s).getD (defaultPort isHttps)) := by
    intro s
    cases hs : stoi s with
    | none => exact inInt32_defaultPort isHttps
    | some n => exact inInt32_of_stoi hs
  have hpath : ∀ k, rest.findIdx? (· = 47) = some k → ∃ p, rest.drop k = 47 :: p := by
    intro k hk
    obtain ⟨l, r, rfl, -, rfl⟩ := findIdx_eq_some_iff.mp hk
    exact ⟨r, List.drop_left⟩
  unfold parseAuthority
  cases hcolon : rest.findIdx? (· = 58) with
  | none =>
    cases hslash : rest.findIdx? (· = 47) with
    | none =>
      exact ⟨findIdx_eq_none_iff.mp hcolon, findIdx_eq_none_iff.mp hslash,
        inInt32_defaultPort isHttps, rfl, [], rfl⟩
    | some k =>
      refine ⟨not_mem_take_of_findIdx fun i hi => ?_, not_mem_take_of_findIdx fun i hi => ?_,
        inInt32_defaultPort isHttps, rfl, hpath k hslash⟩
      · exact absurd (hcolon.symm.trans hi) (by simp)
      · exact (Option.some.inj (hslash.symm.trans hi)).le
  | some i =>
    cases hslash : rest.findIdx? (· = 47) with
    | none =>
      refine ⟨not_mem_take_of_findIdx fun j hj => ?_, not_mem_take_of_findIdx fun j hj => ?_,
        hport _, rfl, [], rfl⟩
      · exact (Option.some.inj (hcolon.symm.trans hj)).le
      · exact absurd (hslash.symm.trans hj) (by simp)
    | some k =>
      by_cases hik : i < k
      · simp only [Option.all_some, hik, decide_true, if_true]
        refine ⟨not_mem_take_of_findIdx fun j hj => ?_, not_mem_take_of_findIdx fun j hj => ?_,
          hport _, trivial, hpath k hslash⟩
        · exact (Option.some.inj (hcolon.symm.trans hj)).le
        · have := Option.some.inj (hslash.symm.trans hj)
          omega
      · -- the first colon stands in the path
        simp only [Option.all_some, hik, decide_false, Bool.false_eq_true, if_false]
        refine ⟨not_mem_take_of_findIdx fun j hj => ?_, not_mem_take_of_findIdx fun j hj => ?_,
          inInt32_defaultPort isHttps, trivial, hpath k hslash⟩
        · have := Option.some.inj (hcolon.symm.trans hj)
          omega
        · exact (Option.some.inj (hslash.symm.trans hj)).le

theorem parseUrl_cases {url : Bytes} {r : ParsedUrl} (h : parseUrl url = .ok r) :
    ∃ i, findSub (ascii "://") url = some i ∧ url.drop (i + 3) ≠ [] ∧ r.host ≠ [] ∧
      r = parseAuthority (url.take i = ascii "https") (url.drop (i + 3)) := by
  have hcheck : ∀ {q : ParsedUrl}, checkParsed url q = .ok r → r = q ∧ q.host ≠ [] := by
    intro q hq
    unfold checkParsed at hq
    split at hq
    · exact absurd hq (by simp)
    · next hne => exact ⟨(Except.ok.inj hq).symm, fun h => hne (Or.inl h)⟩
  unfold parseUrl at h
  split at h
  · exact absurd h (by simp)
  · split at h
    · next i hi =>
      simp only at h
      split at h
      · exact absurd h (by simp)
      · next hrest =>
        obtain ⟨hr, hhost⟩ := hcheck h
        exact ⟨i, hi, hrest, hr ▸ hhost, hr⟩
    · exact absurd rfl (hcheck h).2

/-- **An accepted URL is well formed.** -/
theorem wellFormed_of_parseUrl {url : Bytes} {r : ParsedUrl} (h : parseUrl url = .ok r) :
    WellFormed r := by
  obtain ⟨i, -, -, hhost, hr⟩ := parseUrl_cases h
  obtain ⟨hcolon, hslash, hport, -, hpath⟩ :=
    parseAuthority_spec (url.take i = ascii "https") (url.drop (i + 3))
  rw [← hr] at hcolon hslash hport hpath
  exact ⟨hhost, hcolon, hslash, hport, hpath⟩

/-! ## Parsing a written-out origin -/

/-- A host followed at once by a path has the default port. -/
theorem parseAuthority_host (isHttps : Bool) {host : Bytes} (hcolon : 58 ∉ host)
    (hslash : 47 ∉ host) (p : Bytes) :
    parseAuthority isHttps (host ++ 47 :: p)
      = { host, path := 47 :: p, port := defaultPort isHttps, isHttps } := by
  have hpath := findIdx_append_cons hslash p
  have hnocolon : ∀ i, (host ++ 47 :: p).findIdx? (· = 58) = some i → ¬ i < host.length := by
    intro i hi hlt
    obtain ⟨hi', hc, -⟩ := List.findIdx?_eq_some_iff_getElem.mp hi
    rw [List.getElem_append_left hlt] at hc
    exact hcolon (by
      have : host[i] = 58 := by simpa using hc
      rw [← this]
      exact List.getElem_mem hlt)
  unfold parseAuthority
  rw [hpath]
  cases hport : (host ++ 47 :: p).findIdx? (· = 58) with
  | none => simp
  | some i =>
    have := hnocolon i hport
    simp [this]

/-- A host followed by a port and a path. -/
theorem parseAuthority_host_port (isHttps : Bool) {host : Bytes} (hcolon : 58 ∉ host)
    (hslash : 47 ∉ host) {portText : Bytes} (hport : 47 ∉ portText) (p : Bytes) :
    parseAuthority isHttps (host ++ 58 :: (portText ++ 47 :: p))
      = { host, path := 47 :: p, port := (stoi portText).getD (defaultPort isHttps), isHttps } := by
  have hfirst := findIdx_append_cons hcolon (portText ++ 47 :: p)
  have hauth : 47 ∉ host ++ 58 :: portText := by
    simp [hslash, hport]
  have hassoc : host ++ 58 :: (portText ++ 47 :: p) = (host ++ 58 :: portText) ++ 47 :: p := by
    simp
  have hpath := findIdx_append_cons hauth p
  rw [← hassoc] at hpath
  unfold parseAuthority
  rw [hfirst, hpath]
  have hlt : host.length < (host ++ 58 :: portText).length := by simp
  have htake : (host ++ 58 :: (portText ++ 47 :: p)).take (host ++ 58 :: portText).length
      = host ++ 58 :: portText := by
    rw [hassoc, List.take_left]
  have hdrop : (host ++ 58 :: (portText ++ 47 :: p)).drop (host ++ 58 :: portText).length
      = 47 :: p := by
    rw [hassoc, List.drop_left]
  simp only [Option.all_some, hlt, decide_true, if_true, htake, hdrop]
  simp

/-- The scheme as `extract_scheme_host_port` writes it. -/
def schemeText (isHttps : Bool) : Bytes := if isHttps then ascii "https://" else ascii "http://"

theorem parseUrl_schemeText (isHttps : Bool) {rest : Bytes} (hrest : rest ≠ []) :
    parseUrl (schemeText isHttps ++ rest)
      = checkParsed (schemeText isHttps ++ rest) (parseAuthority isHttps rest) := by
  cases isHttps with
  | false =>
    have hfind : findSub (ascii "://") (schemeText false ++ rest) = some 4 := by
      simp [schemeText, ascii, findSub]
    have hne : schemeText false ++ rest ≠ [] := by simp [hrest]
    have hdrop : (schemeText false ++ rest).drop 7 = rest := rfl
    have htake : decide ((schemeText false ++ rest).take 4 = ascii "https") = false := rfl
    simp only [parseUrl, if_neg hne, hfind, hdrop, if_neg hrest, htake]
  | true =>
    have hfind : findSub (ascii "://") (schemeText true ++ rest) = some 5 := by
      simp [schemeText, ascii, findSub]
    have hne : schemeText true ++ rest ≠ [] := by simp [hrest]
    have hdrop : (schemeText true ++ rest).drop 8 = rest := rfl
    have htake : decide ((schemeText true ++ rest).take 5 = ascii "https") = true := rfl
    simp only [parseUrl, if_neg hne, hfind, hdrop, if_neg hrest, htake]

/-! ## Text in front of the URL -/

/-- What the parser gives, its error texts apart. -/
theorem parseUrl_toOption (url : Bytes) :
    (parseUrl url).toOption =
      (findSub (ascii "://") url).bind fun i =>
        let r := parseAuthority (url.take i = ascii "https") (url.drop (i + 3))
        if url.drop (i + 3) = [] ∨ r.host = [] then none else some r := by
  have hcheck : ∀ q : ParsedUrl, (∃ p, q.path = 47 :: p) →
      (checkParsed url q).toOption = if q.host = [] then none else some q := by
    rintro q ⟨p, hp⟩
    unfold checkParsed
    by_cases hq : q.host = []
    · simp [hq, Except.toOption]
    · simp [hq, hp, Except.toOption]
  by_cases hnil : url = []
  · subst hnil
    rfl
  · unfold parseUrl
    rw [if_neg hnil]
    cases findSub (ascii "://") url with
    | none => rfl
    | some i =>
      obtain ⟨-, -, -, -, hpath⟩ :=
        parseAuthority_spec (url.take i = ascii "https") (url.drop (i + 3))
      by_cases hrest : url.drop (i + 3) = []
      · simp only [hrest, if_true, Option.bind_some, true_or]
        rfl
      · simp only [hrest, if_false, Option.bind_some, false_or]
        exact hcheck _ hpath

/-- **A text in front that holds no `://` does not change the target.**  Neither
`l`, which is a path, nor `?` starts the scheme `https`. -/
theorem parseUrl_append_query {l q : Bytes} (hl : ∃ p, l = 47 :: p)
    (hfind : findSub (ascii "://") (l ++ 63 :: q)
      = (findSub (ascii "://") (63 :: q)).map (· + l.length)) :
    (parseUrl (l ++ 63 :: q)).toOption = (parseUrl (63 :: q)).toOption := by
  obtain ⟨p, rfl⟩ := hl
  rw [parseUrl_toOption, parseUrl_toOption, hfind]
  cases hq : findSub (ascii "://") (63 :: q) with
  | none => rfl
  | some i =>
    have hdrop : (47 :: p ++ 63 :: q).drop (i + (47 :: p).length + 3) = (63 :: q).drop (i + 3) := by
      rw [show i + (47 :: p).length + 3 = (47 :: p).length + (i + 3) by omega,
        List.drop_length_add_append]
    have hleft : ¬ (47 :: p ++ 63 :: q).take (i + (47 :: p).length) = ascii "https" := by
      rw [List.length_cons, ← Nat.add_assoc, List.cons_append, List.take_succ_cons]
      intro h
      exact absurd (List.cons.inj h).1 (by decide)
    have hright : ¬ (63 :: q).take i = ascii "https" := by
      cases i with
      | zero =>
        rw [List.take_zero]
        decide
      | succ n =>
        rw [List.take_succ_cons]
        intro h
        exact absurd (List.cons.inj h).1 (by decide)
    simp only [Option.map_some, Option.bind_some, hdrop, hleft, hright]

end Routing
end HttpDataDiod
