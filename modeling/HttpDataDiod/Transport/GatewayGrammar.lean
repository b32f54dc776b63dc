import HttpDataDiod.Transport.DbAgreement

/-!
# The paths of the database gateway

`handle_get` and `handle_post` send a path to the gateway when it starts with the prefix
of the gateway; the rest is trimmed of slashes and split at the first one.  Nothing looks
at the byte behind the prefix, so `/v1/sqlmain/ping` is split like `/v1/sql/main/ping`.

* `dispatch`: which part of the handler a path goes to, with `natsTraffic_eq_dispatch`.
* `InGatewayTree`, `IsListing`, `IsActionPath`: the grammar of the paths.
* `normalizePathRest_eq_nil_iff`, `split_of_parsePath`: what the trimming and the splitting
  recognise.
* `RoutedByGrammar`, `routedByGrammar_iff`: the handler follows the grammar exactly for the
  paths that do not run on behind the prefix.
-/

namespace HttpDataDiod
namespace Transport

open ByteText JsonValue Proxy Sql Sql.DbQueryContract GatewayRouting

/-! ## Dispatch -/

/-- The parts of the handler: the paths answered on the spot, the gateway, and the backend. -/
inductive Dispatch where
  | own
  | gateway
  | backend
  deriving DecidableEq

/-- Where `handle_get` and `handle_post` send a path. -/
def dispatch (method : Method) (path : Bytes) : Dispatch :=
  if method = .get ∧ isOwnPath path = true then .own
  else if kDbGatewayPath <+: path then .gateway
  else .backend

/-- The body that a handler works on. -/
def handledBody (method : Method) (req : Request) : Bytes :=
  match method with
  | .get => []
  | .post => req.body

theorem natsTraffic_eq_dispatch (json : JsonLibrary) (tracer : Bool) (cfg : ProxyConfig)
    (env : HandlerChoices) (sent : ℕ) (method : Method) (req : Request) :
    natsTraffic json tracer cfg env sent method req =
      match dispatch method req.path with
      | .own => []
      | .gateway => gatewayTraffic json tracer cfg env sent method (handledBody method req) req
      | .backend =>
        if method = .post ∧ (!req.body.isEmpty && !json.accept req.body &&
          !cfg.rawBodyPassthrough) = true then []
        else requestTraffic json tracer cfg env sent method (handledBody method req) req := by
  unfold natsTraffic dispatch
  cases method with
  | get =>
    by_cases hown : isOwnPath req.path = true
    · simp [hown]
    · by_cases hpath : kDbGatewayPath <+: req.path
      · simp [hown, hpath, handledBody]
      · simp [hown, hpath, handledBody]
  | post =>
    by_cases hpath : kDbGatewayPath <+: req.path
    · simp [hpath, handledBody]
    · simp [hpath, handledBody]

/-! ## The grammar -/

/-- The prefix itself, or a path below it. -/
def InGatewayTree (path : Bytes) : Prop :=
  path = kDbGatewayPath ∨ kDbGatewayPath ++ [47] <+: path

/-- The prefix and any number of slashes. -/
def IsListing (path : Bytes) : Prop := ∃ n, path = kDbGatewayPath ++ List.replicate n 47

/-- The prefix, at least one slash, a database, a slash, an action, and any number of
slashes. -/
structure IsActionPath (path db action : Bytes) : Prop where
  eq_append : ∃ n m, path = kDbGatewayPath ++ (List.replicate (n + 1) 47 ++
    (db ++ 47 :: (action ++ List.replicate m 47)))
  db_ne_nil : db ≠ []
  action_ne_nil : action ≠ []
  slash_not_mem_db : 47 ∉ db
  slash_not_mem_action : 47 ∉ action

/-- The path runs on behind the prefix with something else than a slash. -/
def RunsOn (path : Bytes) : Prop := ∃ c rest, c ≠ 47 ∧ path = kDbGatewayPath ++ c :: rest

theorem inGatewayTree_iff {path : Bytes} :
    InGatewayTree path ↔ kDbGatewayPath <+: path ∧ ¬ RunsOn path := by
  constructor
  · rintro (rfl | ⟨rest, rfl⟩)
    · refine ⟨List.prefix_rfl, ?_⟩
      rintro ⟨c, rest, -, heq⟩
      have hlength := congrArg List.length heq
      rw [List.length_append, List.length_cons] at hlength
      omega
    · refine ⟨⟨47 :: rest, by rw [List.append_assoc, List.singleton_append]⟩, ?_⟩
      rintro ⟨c, rest', hc, heq⟩
      rw [List.append_assoc, List.singleton_append] at heq
      exact hc (List.cons.inj (List.append_cancel_left heq)).1.symm
  · rintro ⟨⟨rest, rfl⟩, hruns⟩
    cases rest with
    | nil => exact .inl (List.append_nil _)
    | cons c rest =>
      by_cases hc : c = 47
      · exact .inr ⟨rest, by rw [hc, List.append_assoc, List.singleton_append]⟩
      · exact absurd ⟨c, rest, hc, rfl⟩ hruns

/-! ## Trimming and splitting -/

theorem takeWhile_slash_eq (s : Bytes) :
    ∃ n, s.takeWhile (fun c => decide (c = 47)) = List.replicate n 47 := by
  refine ⟨_, List.eq_replicate_of_mem fun c hc => ?_⟩
  have hslash : decide (c = 47) = true := List.mem_takeWhile_imp (p := fun c => decide (c = 47)) hc
  exact of_decide_eq_true hslash

/-- **What is trimmed off are slashes.** -/
theorem eq_replicate_append_normalizePathRest (s : Bytes) :
    ∃ n m, s = List.replicate n 47 ++ (normalizePathRest s ++ List.replicate m 47) := by
  obtain ⟨n, hn⟩ := takeWhile_slash_eq s
  obtain ⟨m, hm⟩ := takeWhile_slash_eq (s.dropWhile fun c => decide (c = 47)).reverse
  refine ⟨n, m, ?_⟩
  have htail : s.dropWhile (fun c => decide (c = 47)) =
      normalizePathRest s ++ List.replicate m 47 := by
    rw [normalizePathRest, ← List.reverse_replicate, ← hm, ← List.reverse_append,
      List.takeWhile_append_dropWhile, List.reverse_reverse]
  rw [← hn, ← htail, List.takeWhile_append_dropWhile]

theorem normalizePathRest_eq_nil_iff (s : Bytes) :
    normalizePathRest s = [] ↔ ∃ n, s = List.replicate n 47 := by
  constructor
  · intro h
    obtain ⟨n, m, heq⟩ := eq_replicate_append_normalizePathRest s
    rw [h, List.nil_append, List.replicate_append_replicate] at heq
    exact ⟨n + m, heq⟩
  · rintro ⟨n, rfl⟩
    have hdrop : (List.replicate n (47 : UInt8)).dropWhile (fun c => decide (c = 47)) = [] :=
      List.dropWhile_eq_nil_iff.mpr fun c hc => decide_eq_true (List.eq_of_mem_replicate hc)
    rw [normalizePathRest, hdrop]
    rfl

theorem isList_parsePath_iff (s : Bytes) : (parsePath s).isList = true ↔ s = [] := by
  unfold parsePath
  split
  · rename_i h
    simpa using h
  · rename_i h
    simpa using h

/-- **What a valid rest is split into.** -/
theorem split_of_parsePath {s : Bytes} (hlist : (parsePath s).isList = false)
    (hvalid : (parsePath s).valid = true) :
    s = (parsePath s).dbName ++ 47 :: (parsePath s).action ∧ (parsePath s).dbName ≠ [] ∧
      (parsePath s).action ≠ [] ∧ 47 ∉ (parsePath s).dbName ∧ 47 ∉ (parsePath s).action := by
  have hempty : ¬ s.isEmpty = true := by
    intro h
    rw [List.isEmpty_iff.mp h] at hlist
    cases hlist
  unfold parsePath at hvalid ⊢
  rw [if_neg hempty] at hvalid ⊢
  simp only [Bool.and_eq_true, Bool.not_eq_true', List.isEmpty_eq_false_iff,
    decide_eq_true_eq] at hvalid ⊢
  obtain ⟨⟨hdb, haction⟩, hslash⟩ := hvalid
  refine ⟨?_, hdb, haction, ?_, hslash⟩
  · cases hrest : s.dropWhile (fun c => decide (c ≠ 47)) with
    | nil =>
      rw [hrest] at haction
      exact absurd rfl haction
    | cons c rest =>
      have hc : decide (c ≠ 47) = false := by
        have hhead := List.head_dropWhile_not (fun c => decide (c ≠ 47)) (l := s)
          (by rw [hrest]; exact List.cons_ne_nil _ _)
        simpa only [hrest, List.head_cons] using hhead
      obtain rfl : c = 47 := by simpa using hc
      rw [List.drop_succ_cons, List.drop_zero, ← hrest, List.takeWhile_append_dropWhile]
  · intro hmem
    have hne : decide ((47 : UInt8) ≠ 47) = true :=
      List.mem_takeWhile_imp (p := fun c => decide (c ≠ 47)) hmem
    exact absurd hne (by decide)

/-- **The paths that name an action.**  Behind a slash the trimmed rest is split as the
grammar says. -/
theorem isActionPath_of_gatewayPath {req : Request} (htree : InGatewayTree req.path)
    (hlist : (gatewayPath req).isList = false) (hvalid : (gatewayPath req).valid = true) :
    IsActionPath req.path (gatewayPath req).dbName (gatewayPath req).action := by
  obtain ⟨⟨rest, hrest⟩, hruns⟩ := inGatewayTree_iff.mp htree
  have hparsed : gatewayPath req = parsePath (normalizePathRest rest) := by
    rw [gatewayPath, ← hrest, List.drop_left]
  rw [hparsed] at hlist hvalid ⊢
  obtain ⟨heq, hdb, haction, hslash, hslash'⟩ := split_of_parsePath hlist hvalid
  refine ⟨?_, hdb, haction, hslash, hslash'⟩
  obtain ⟨n, m, htrimmed⟩ := eq_replicate_append_normalizePathRest rest
  generalize (parsePath (normalizePathRest rest)).dbName = db at *
  generalize (parsePath (normalizePathRest rest)).action = action at *
  rw [heq, List.append_assoc, List.cons_append] at htrimmed
  cases n with
  | zero =>
    -- without a slash in front the path would run on with the name of the database
    cases db with
    | nil => exact absurd rfl hdb
    | cons c name =>
      have hc : c ≠ 47 := by
        rintro rfl
        exact hslash List.mem_cons_self
      rw [List.replicate_zero, List.nil_append, List.cons_append] at htrimmed
      exact absurd ⟨c, _, hc, by rw [← hrest, htrimmed]⟩ hruns
  | succ n => exact ⟨n, m, by rw [← hrest, htrimmed]⟩

/-! ## The handler and the grammar -/

/-- A request of the gateway for a database and an action. -/
def IsDbRequest (json : JsonLibrary) (text db action : Bytes) : Prop :=
  ∃ request : JsonObject, json.dump (.object request.entries) = some text ∧
    (JsonValue.object request.entries).safeGetString kDb [] = db ∧
    (JsonValue.object request.entries).safeGetString kType [] = action

section Routing

variable (json : JsonLibrary) (tracer : Bool) (cfg : ProxyConfig) (env : HandlerChoices) (sent : ℕ)
  (method : Method) (req : Request)

/-- **The handler follows the grammar.**  The gateway gets the prefix and the paths below
it and the backend the others; the listing is the prefix with slashes behind it; and a
database request is published only for a path with a configured database and an action,
and with the method of the action. -/
structure RoutedByGrammar : Prop where
  gateway : dispatch method req.path = .gateway ↔ InGatewayTree req.path
  backend : dispatch method req.path = .backend ↔ ¬ InGatewayTree req.path
  listing : dispatch method req.path = .gateway ∧ (gatewayPath req).isList = true ↔
    IsListing req.path
  request : ∀ text, .publish .dbQuery text ∈ natsTraffic json tracer cfg env sent method req →
    ∃ db action, IsActionPath req.path db action ∧ (∃ d ∈ cfg.databases, d.bytes = db) ∧
      (action = ascii "query" ∧ method = .post ∨ action = ascii "ping" ∧ method = .get) ∧
      IsDbRequest json text db action

variable {json tracer cfg env sent method req}

theorem dispatch_of_not_own (hown : isOwnPath req.path = false) :
    dispatch method req.path = if kDbGatewayPath <+: req.path then .gateway else .backend := by
  rw [dispatch, if_neg (by simp [hown])]

/-- Among the paths of the gateway the listing is always recognised. -/
theorem isListing_iff (hpath : kDbGatewayPath <+: req.path) :
    (gatewayPath req).isList = true ↔ IsListing req.path := by
  obtain ⟨rest, hrest⟩ := hpath
  rw [gatewayPath, isList_parsePath_iff, normalizePathRest_eq_nil_iff, IsListing, ← hrest,
    List.drop_left]
  simp only [List.append_cancel_left_eq]

/-- What the gateway publishes, by the path and the method. -/
theorem isDbRequest_of_mem_gatewayTraffic {body text : Bytes}
    (h : .publish .dbQuery text ∈ gatewayTraffic json tracer cfg env sent method body req) :
    ((gatewayPath req).isList = false ∧ (gatewayPath req).valid = true) ∧
      (∃ d ∈ cfg.databases, d.bytes = (gatewayPath req).dbName) ∧
      ((gatewayPath req).action = ascii "query" ∧ method = .post ∨
        (gatewayPath req).action = ascii "ping" ∧ method = .get) ∧
      IsDbRequest json text (gatewayPath req).dbName (gatewayPath req).action := by
  obtain ⟨request, text', hrequest, hdump, heq⟩ := exists_of_mem_gatewayTraffic h
  obtain ⟨-, rfl⟩ := Effect.publish.inj heq
  obtain ⟨-, hshape, hknown, haction⟩ := gatewayRequest_eq_some_iff.mp hrequest
  obtain ⟨type, payload, hchecked, rfl⟩ := dbActionRequest_eq_some_iff.mp haction
  have hdbField : (kDb, JsonValue.string (gatewayPath req).dbName) ∈
      builtFields type (gatewayPath req).dbName payload env.requestId.bytes := by
    simp [builtFields]
  have htypeField : (kType, JsonValue.string type) ∈
      builtFields type (gatewayPath req).dbName payload env.requestId.bytes := by
    simp [builtFields]
  have hdb := safeGetString_dbRequest tracer env (requestTraceContext env req) type
    (gatewayPath req).dbName payload (by decide) hdbField
  have htype := safeGetString_dbRequest tracer env (requestTraceContext env req) type
    (gatewayPath req).dbName payload (by decide) htypeField
  refine ⟨hshape, hknown, ?_, _, hdump, hdb, ?_⟩
  · rcases hchecked with ⟨hquery, hpost, -⟩ | ⟨hping, hget, -⟩
    · exact .inl ⟨hquery, hpost⟩
    · exact .inr ⟨hping, hget⟩
  · rcases hchecked with ⟨hquery, -, rfl, -⟩ | ⟨hping, -, rfl, -⟩
    · rw [htype, hquery]
      rfl
    · rw [htype, hping]
      rfl

/-- Only the gateway publishes a database request. -/
theorem mem_gatewayTraffic_of_mem_natsTraffic {text : Bytes}
    (h : .publish .dbQuery text ∈ natsTraffic json tracer cfg env sent method req) :
    dispatch method req.path = .gateway ∧ .publish .dbQuery text ∈
      gatewayTraffic json tracer cfg env sent method (handledBody method req) req := by
  rw [natsTraffic_eq_dispatch] at h
  cases hdispatch : dispatch method req.path with
  | own =>
    rw [hdispatch] at h
    exact absurd h List.not_mem_nil
  | gateway =>
    rw [hdispatch] at h
    exact ⟨rfl, h⟩
  | backend =>
    rw [hdispatch] at h
    simp only at h
    split at h
    · exact absurd h List.not_mem_nil
    · exact absurd h not_publish_dbQuery_mem_requestTraffic

end Routing

/-- **The handler follows the grammar exactly where the path does not run on behind the
prefix.** -/
theorem routedByGrammar_iff (json : JsonLibrary) (tracer : Bool) (cfg : ProxyConfig)
    (env : HandlerChoices) (sent : ℕ) (method : Method) (req : Request)
    (hown : isOwnPath req.path = false) :
    RoutedByGrammar json tracer cfg env sent method req ↔ ¬ RunsOn req.path := by
  have hdispatch := @dispatch_of_not_own method req hown
  constructor
  · rintro h ⟨c, rest, hc, hpath⟩
    have hgateway : dispatch method req.path = .gateway := by
      rw [hdispatch, if_pos ⟨c :: rest, hpath.symm⟩]
    exact (inGatewayTree_iff.mp (h.gateway.mp hgateway)).2 ⟨c, rest, hc, hpath⟩
  · intro hruns
    have htree : InGatewayTree req.path ↔ kDbGatewayPath <+: req.path := by
      rw [inGatewayTree_iff]
      exact and_iff_left hruns
    refine ⟨?_, ?_, ?_, ?_⟩
    · rw [hdispatch, htree]
      split <;> simp [*]
    · rw [hdispatch, htree]
      split <;> simp [*]
    · rw [hdispatch]
      by_cases hpath : kDbGatewayPath <+: req.path
      · rw [if_pos hpath, isListing_iff hpath]
        simp
      · rw [if_neg hpath]
        refine ⟨fun h => absurd h.1 (by decide), ?_⟩
        rintro ⟨n, hn⟩
        exact absurd ⟨_, hn.symm⟩ hpath
    · intro text htext
      obtain ⟨hgateway, htraffic⟩ := mem_gatewayTraffic_of_mem_natsTraffic htext
      obtain ⟨⟨hlist, hvalid⟩, hknown, haction, hrequest⟩ :=
        isDbRequest_of_mem_gatewayTraffic htraffic
      have hpath : kDbGatewayPath <+: req.path := by
        by_contra hpath
        rw [hdispatch, if_neg hpath] at hgateway
        cases hgateway
      exact ⟨_, _, isActionPath_of_gatewayPath (htree.mpr hpath) hlist hvalid, hknown, haction,
        hrequest⟩

/-- The ping of a configured database follows the grammar. -/
theorem routedByGrammar_ping :
    isOwnPath (ascii "/v1/sql/main/ping") = false ∧
    RoutedByGrammar (JsonLibrary.single .null pingText) false limitedProxy
      (sampledChoices true true) 1 .get (plainGet (ascii "/v1/sql/main/ping")) := by
  have hown : isOwnPath (ascii "/v1/sql/main/ping") = false := by decide
  refine ⟨hown, (routedByGrammar_iff _ _ _ _ _ _ _ hown).mpr ?_⟩
  rintro ⟨c, rest, hc, hpath⟩
  have hseventh : (ascii "/v1/sql/main/ping").getD 7 0 = c := by
    rw [show ascii "/v1/sql/main/ping" = kDbGatewayPath ++ c :: rest from hpath]
    rfl
  exact hc (hseventh.symm.trans (by decide))

/-- `/v1/sqlmain/ping` is not below the prefix of the gateway, and a ping of the database
`main` goes out for it. -/
theorem not_routedByGrammar_sqlmain :
    isOwnPath (ascii "/v1/sqlmain/ping") = false ∧
    natsTraffic (JsonLibrary.single .null pingText) false limitedProxy (sampledChoices true true)
        1 .get (plainGet (ascii "/v1/sqlmain/ping")) = [.publish .dbQuery pingText.bytes] ∧
    ¬ InGatewayTree (ascii "/v1/sqlmain/ping") ∧
    ¬ RoutedByGrammar (JsonLibrary.single .null pingText) false limitedProxy
      (sampledChoices true true) 1 .get (plainGet (ascii "/v1/sqlmain/ping")) := by
  have htree : ¬ InGatewayTree (ascii "/v1/sqlmain/ping") := by
    rintro (heq | hprefix)
    · exact absurd heq (by decide)
    · exact absurd hprefix (by decide)
  refine ⟨by decide, by decide +kernel, htree, fun h => htree (h.gateway.mp ?_)⟩
  decide

end Transport
end HttpDataDiod
