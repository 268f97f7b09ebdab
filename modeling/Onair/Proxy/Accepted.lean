import Onair.Lib.Fallible
import Onair.Proxy.Selection

/-!
# Routing with an accepted configuration

What the validators promise, and what selection relies on.

* `Accepted`, `accepted_of_resolve`: what holds of every configuration that is accepted;
* `publicRoute_isSome`, `boundBackend_isSome`: the lookups of selection cannot fail;
* **`accepted_routing_total`**: for a model of a client's whitelist, selection does not panic, skips
  no binding and does not say that the model is unknown;
* **`route_policies_iff`**: a policy that a route does not set is `preserve`, which is what the
  backend says only if it says `preserve`.
-/

namespace Onair

open Text Fallible

/-- What holds of a configuration that is accepted. -/
structure Accepted (config : Config) : Prop where
  backend_ids : (config.backends.map ResolvedBackend.id).Nodup
  client_ids : (config.clients.map ResolvedClient.id).Nodup
  route_keys : (config.routes.map ResolvedRoute.key).Nodup
  weights : ∀ b ∈ config.backends, b.weight ≠ 0
  bindings : ∀ r ∈ config.routes, ∀ b ∈ r.backends, ∃ backend ∈ config.backends,
    backend.id = b.backendId
  whitelists : ∀ client ∈ config.clients, ∀ model ∈ client.models, ∃ r ∈ config.routes,
    r.key = .publicModel model

section

variable {host : Host}

theorem require_ok {holds : Bool} {text : String} {u : Unit} (h : require holds text = .ok u) :
    holds = true := by
  cases holds with
  | true => rfl
  | false => cases h

theorem resolveClient_id {defaultModels : List String} {client : ClientConfig} {id : String}
    {resolved : ResolvedClient} (h : resolveClient host defaultModels client id = .ok resolved) :
    resolved.id = id := by
  obtain ⟨apiKey, -, h⟩ := Fallible.bind_eq_ok.mp h
  cases h
  rfl

theorem resolveClients_nodup {clients : List ClientConfig} {defaultModels : List String}
    {resolved : List ResolvedClient}
    (h : resolveClients host clients defaultModels = .ok resolved) :
    (resolved.map ResolvedClient.id).Nodup := by
  obtain ⟨r, hr, h⟩ := Fallible.bind_eq_ok.mp h
  obtain ⟨-, -, h⟩ := Fallible.bind_eq_ok.mp h
  cases h
  exact (Distinct.convertDistinct_nodup (fun _ _ _ => resolveClient_id) hr).1

theorem resolveBackend_ok {policy : UnknownMarkerPolicy} {backend : BackendConfig} {id : String}
    {resolved : ResolvedBackend} (h : resolveBackend host policy backend id = .ok resolved) :
    resolved.id = id ∧ resolved.weight ≠ 0 ∧ resolved.policies = backend.policies := by
  obtain ⟨_, hweight, h⟩ := Fallible.bind_eq_ok.mp h
  obtain ⟨baseUrl, -, h⟩ := Fallible.bind_eq_ok.mp h
  obtain ⟨apiKey, -, h⟩ := Fallible.bind_eq_ok.mp h
  obtain ⟨-, -, h⟩ := Fallible.bind_eq_ok.mp h
  cases h
  exact ⟨rfl, by simpa using require_ok hweight, rfl⟩

theorem resolveBackends_ok {backends : List BackendConfig} {policy : UnknownMarkerPolicy}
    {resolved : List ResolvedBackend} (h : resolveBackends host backends policy = .ok resolved) :
    (resolved.map ResolvedBackend.id).Nodup ∧ ∀ b ∈ resolved, b.weight ≠ 0 := by
  obtain ⟨r, hr, h⟩ := Fallible.bind_eq_ok.mp h
  obtain ⟨-, -, h⟩ := Fallible.bind_eq_ok.mp h
  cases h
  refine ⟨(Distinct.convertDistinct_nodup (fun _ _ _ hb => (resolveBackend_ok hb).1) hr).1, ?_⟩
  intro b hb
  obtain ⟨a, -, k, -, hconv⟩ := Distinct.convertDistinct_mem hr b hb
  exact (resolveBackend_ok hconv).2.1

theorem bindRoute_ok {key : RouteKey} {backends : List ResolvedBackend} {entry : String}
    {binding : RouteBackendBinding} (h : bindRoute key backends entry = .ok binding) :
    ∃ backend ∈ backends, backend.id = binding.backendId := by
  obtain ⟨⟨model, id⟩, -, h⟩ := Fallible.bind_eq_ok.mp h
  cases hfind : backends.find? fun b => b.id == id with
  | none =>
    simp only [hfind] at h
    cases h
  | some backend =>
    simp only [hfind] at h
    cases h
    exact ⟨backend, List.mem_of_find?_eq_some hfind, rfl⟩

theorem resolveRoute_ok {backends : List ResolvedBackend} {entry : RouteKey × RouteConfig}
    {route : ResolvedRoute} (h : resolveRoute backends entry = .ok route) :
    route.key = entry.1 ∧
      (∀ b ∈ route.backends, ∃ backend ∈ backends, backend.id = b.backendId) ∧
      route.policies = {
        toolSchemaMode := entry.2.toolSchemaMode.getD .preserve
        responsesStore := entry.2.responsesStore.getD .preserve
        responsesMaxOutputTokens := entry.2.responsesMaxOutputTokens.getD .preserve
        chatStreamUsage := entry.2.chatStreamUsage.getD .preserve } := by
  obtain ⟨bindings, hbind, h⟩ := Fallible.bind_eq_ok.mp h
  cases h
  refine ⟨rfl, ?_, rfl⟩
  intro b hb
  obtain ⟨a, -, ha⟩ := Fallible.mapM_ok_mem hbind b hb
  exact bindRoute_ok ha

theorem validateRoute_ok {policy : UnknownMarkerPolicy} {route : RouteConfig} {key : RouteKey}
    {entry : RouteKey × RouteConfig} (h : validateRoute host policy route key = .ok entry) :
    entry = (key, { route with expose := canonicalizeMarkerSet route.expose }) := by
  obtain ⟨-, -, h⟩ := Fallible.bind_eq_ok.mp h
  obtain ⟨-, -, h⟩ := Fallible.bind_eq_ok.mp h
  cases h
  rfl

theorem requireRouteKey_ok {route : RouteConfig} {key : RouteKey}
    (h : requireRouteKey host route = .ok key) : route.routeKey = some key := by
  unfold requireRouteKey at h
  split at h
  · rename_i k hk
    cases h
    exact hk
  · cases h

theorem mapM_keys {backends : List ResolvedBackend} {entries : List (RouteKey × RouteConfig)}
    {resolved : List ResolvedRoute} (h : entries.mapM (resolveRoute backends) = .ok resolved) :
    resolved.map ResolvedRoute.key = entries.map Prod.fst := by
  induction entries generalizing resolved with
  | nil =>
    obtain rfl : [] = resolved := by simpa [pure, Except.pure] using h
    rfl
  | cons entry entries ih =>
    rw [List.mapM_cons] at h
    obtain ⟨route, hroute, h⟩ := Fallible.bind_eq_ok.mp h
    obtain ⟨rest, hrest, h⟩ := Fallible.bind_eq_ok.mp h
    cases h
    rw [List.map_cons, List.map_cons, (resolveRoute_ok hroute).1, ih hrest]

theorem resolveRoutes_ok {routes : List RouteConfig} {backends : List ResolvedBackend}
    {routing : RoutingConfig} {resolved : List ResolvedRoute}
    (h : resolveRoutes host routes backends routing = .ok resolved) :
    (resolved.map ResolvedRoute.key).Nodup ∧ ∀ route ∈ resolved, ∃ rc ∈ routes,
      rc.routeKey = some route.key ∧ resolveRoute backends
        (route.key, { rc with expose := canonicalizeMarkerSet rc.expose }) = .ok route := by
  obtain ⟨validated, hval, h⟩ := Fallible.bind_eq_ok.mp h
  have hnodup : (validated.map Prod.fst).Nodup := (Distinct.convertDistinct_nodup
    (fun _ _ _ hb => congrArg Prod.fst (validateRoute_ok hb)) hval).1
  have hkeys : resolved.map ResolvedRoute.key = validated.map Prod.fst := mapM_keys h
  refine ⟨hkeys ▸ hnodup, ?_⟩
  intro route hroute
  obtain ⟨entry, hentry, hres⟩ := Fallible.mapM_ok_mem h route hroute
  obtain ⟨rc, hrc, key, hkey, hvalid⟩ := Distinct.convertDistinct_mem hval entry hentry
  obtain rfl := validateRoute_ok hvalid
  have hk : route.key = key := (resolveRoute_ok hres).1
  exact ⟨rc, hrc, hk ▸ requireRouteKey_ok hkey, hk ▸ hres⟩

theorem firstOf_eq_none {s : Finset String} (h : firstOf s = none) : s = ∅ :=
  Finset.min_eq_top.mp h

theorem validateAllowedRoutes_ok {clients : List ResolvedClient} {routes : List ResolvedRoute}
    (h : validateAllowedRoutes clients routes = .ok ()) :
    ∀ client ∈ clients, ∀ model ∈ client.models, ∃ r ∈ routes, r.key = .publicModel model := by
  intro client hclient model hmodel
  have hcheck := Fallible.forM_ok h client hclient
  split at hcheck
  · rename_i hnone
    have hempty := firstOf_eq_none hnone
    rw [Finset.filter_eq_empty_iff] at hempty
    simpa using hempty hmodel
  · cases hcheck

/-- **What the validators promise.** -/
theorem accepted_of_resolve {file : ConfigFile} {config : Config}
    (h : Config.resolve host file = .ok config) :
    Accepted config ∧ resolveRoutes host file.routes config.backends file.routing =
      .ok config.routes := by
  obtain ⟨-, -, h⟩ := Fallible.bind_eq_ok.mp h
  obtain ⟨clients, hclients, h⟩ := Fallible.bind_eq_ok.mp h
  obtain ⟨backends, hbackends, h⟩ := Fallible.bind_eq_ok.mp h
  obtain ⟨routes, hroutes, h⟩ := Fallible.bind_eq_ok.mp h
  obtain ⟨_, hallowed, h⟩ := Fallible.bind_eq_ok.mp h
  cases h
  obtain ⟨hids, hweights⟩ := resolveBackends_ok hbackends
  obtain ⟨hkeys, hfrom⟩ := resolveRoutes_ok hroutes
  refine ⟨⟨hids, resolveClients_nodup hclients, hkeys, hweights, ?_,
    validateAllowedRoutes_ok hallowed⟩, hroutes⟩
  intro r hr
  obtain ⟨rc, -, -, hres⟩ := hfrom r hr
  exact (resolveRoute_ok hres).2.1

end

/-! ### Selection cannot fail -/

section

variable {config : Config} (hc : Accepted config)

include hc

theorem countP_publicRoute {client : ResolvedClient} (hclient : client ∈ config.clients)
    {model : String} (hmodel : model ∈ client.models) :
    config.routes.countP (fun r => r.key == .publicModel model) = 1 := by
  obtain ⟨r, hr, hkey⟩ := hc.whitelists client hclient model hmodel
  have hcount := List.count_eq_one_of_mem hc.route_keys (List.mem_map_of_mem hr)
  rw [hkey, List.count, List.countP_map] at hcount
  exact hcount

theorem publicRoute_isSome {client : ResolvedClient} (hclient : client ∈ config.clients)
    {model : String} (hmodel : model ∈ client.models) :
    publicRoute config.routes model ≠ none := by
  obtain ⟨r, hr, hkey⟩ := hc.whitelists client hclient model hmodel
  intro hnone
  have := List.find?_eq_none.mp hnone r hr
  simp [hkey] at this

theorem boundBackend_isSome {route : ResolvedRoute} (hroute : route ∈ config.routes)
    {binding : RouteBackendBinding} (hbinding : binding ∈ route.backends) :
    boundBackend config.backends binding ≠ none := by
  obtain ⟨backend, hb, hid⟩ := hc.bindings route hroute binding hbinding
  intro hnone
  have := List.find?_eq_none.mp hnone backend hb
  simp [hid] at this

end

theorem code_noCandidateError (request : BackendSelectionRequest) (flag : Bool) :
    (noCandidateError request flag).code ≠ some "model_not_found" := by
  unfold noCandidateError
  split_ifs <;> simp [ApiError.badRequest, ApiError.endpointUnavailable]

/-- **An accepted configuration makes routing total.** -/
theorem accepted_routing_total {host : Host} {file : ConfigFile} {config : Config}
    (h : Config.resolve host file = .ok config) :
    (config.backends.map ResolvedBackend.id).Nodup ∧
    (config.clients.map ResolvedClient.id).Nodup ∧
    (config.routes.map ResolvedRoute.key).Nodup ∧
    (∀ r ∈ config.routes, ∀ b ∈ r.backends, ∃ backend ∈ config.backends,
      backend.id = b.backendId) ∧
    (∀ b ∈ config.backends, b.weight ≠ 0) ∧
    ∀ client ∈ config.clients, ∀ model ∈ client.models,
      config.routes.countP (fun r => r.key == .publicModel model) = 1 ∧
      ∀ strategy (request : BackendSelectionRequest) random counters,
        request.model = some model →
        (∃ result counters', selectBackendCandidates config.backends config.routes strategy request
            random counters = some (result, counters') ∧
          ∀ error, result = .error error → error.code ≠ some "model_not_found") ∧
        ∃ route, publicRoute config.routes model = some route ∧
          ∀ binding ∈ route.backends, boundBackend config.backends binding ≠ none := by
  obtain ⟨hc, -⟩ := accepted_of_resolve h
  refine ⟨hc.backend_ids, hc.client_ids, hc.route_keys, hc.bindings, hc.weights, ?_⟩
  intro client hclient model hmodel
  refine ⟨countP_publicRoute hc hclient hmodel, ?_⟩
  intro strategy request random counters hrequest
  obtain ⟨route, hroute⟩ := Option.ne_none_iff_exists'.mp (publicRoute_isSome hc hclient hmodel)
  refine ⟨?_, route, hroute, ?_⟩
  · rcases selectBackendCandidates_spec config.routes strategy request random counters hc.weights
      with ⟨selected, counters', hsel, -⟩ | ⟨error, hsel, -, hwhy⟩
    · refine ⟨_, _, hsel, ?_⟩
      rintro error ⟨⟩
    · refine ⟨_, _, hsel, ?_⟩
      rintro _ ⟨⟩
      rcases hwhy with ⟨m, hm, hnone, -⟩ | ⟨flag, rfl⟩
      · rw [hrequest] at hm
        cases hm
        rw [hroute] at hnone
        cases hnone
      · exact code_noCandidateError request flag
  · intro binding hbinding
    exact boundBackend_isSome hc (List.mem_of_find?_eq_some hroute) hbinding

/-- A world in which every URL is that of a local server. -/
def sampleHost : Host where
  env _ := none
  parseUrl _ := .ok ⟨"http", some "localhost", "", none, none, none⟩
  isHeaderName _ := true
  isHeaderValue _ := true
  debugOption _ := ""

/-- A client, a backend that needs its schemas simplified, and a route that says nothing of
policies. -/
def sampleFile : ConfigFile where
  clients := [{ id := "guest", apiKey := some "key", models := ["gpt"] }]
  backends := [{
    id := "llama"
    baseUrl := "http://localhost:8080"
    policies := { toolSchemaMode := .llamacppCompat }
    supports := {"chat", "streaming"} }]
  routes := [{ publicModel := some "gpt", backends := ["llama-3@llama"] }]

theorem resolve_sampleFile : ∃ config, Config.resolve sampleHost sampleFile = .ok config ∧
    config.clients = [{ id := "guest", apiKey := "key", models := {"gpt"} }] := by
  have h : (Config.resolve sampleHost sampleFile).toOption.map Config.clients =
      some [{ id := "guest", apiKey := "key", models := {"gpt"} }] := by
    decide +kernel
  obtain ⟨config, hconfig, hclients⟩ := Option.map_eq_some_iff.mp h
  exact ⟨config, toOption_eq_some.mp hconfig, hclients⟩

/-- Two clients and two backends, and a model that both clients and both backends have. -/
def sharedFile : ConfigFile where
  routing := { strategy := .weightedRandom }
  clients := [{ id := "guest", apiKey := some "key", models := ["gpt"] },
    { id := "office", apiKey := some "other", models := ["gpt", "whisper"] }]
  backends := [
    { id := "llama"
      baseUrl := "http://localhost:8080"
      supports := {"chat", "streaming"}
      weight := 3 },
    { id := "vllm"
      baseUrl := "http://localhost:8081"
      supports := {"chat", "audio"} }]
  routes := [{ publicModel := some "gpt", backends := ["llama-3@llama", "llama-3@vllm"] },
    { publicModel := some "whisper", backends := ["whisper-1@vllm"] }]

theorem resolve_sharedFile : ∃ config, Config.resolve sampleHost sharedFile = .ok config ∧
    config.clients = [{ id := "guest", apiKey := "key", models := {"gpt"} },
      { id := "office", apiKey := "other", models := {"gpt", "whisper"} }] := by
  have h : (Config.resolve sampleHost sharedFile).toOption.map Config.clients =
      some [{ id := "guest", apiKey := "key", models := {"gpt"} },
        { id := "office", apiKey := "other", models := {"gpt", "whisper"} }] := by
    decide +kernel
  obtain ⟨config, hconfig, hclients⟩ := Option.map_eq_some_iff.mp h
  exact ⟨config, toOption_eq_some.mp hconfig, hclients⟩

/-- The models of both clients have routes, and requests for them are routed without a panic. -/
theorem accepted_routing_total_sample : ∃ config,
    Config.resolve sampleHost sharedFile = .ok config ∧
      config.routes.countP (fun r => r.key == .publicModel "gpt") = 1 ∧
      config.routes.countP (fun r => r.key == .publicModel "whisper") = 1 ∧
      ∀ strategy random counters, ∃ result counters',
        selectBackendCandidates config.backends config.routes strategy
          ⟨"/v1/chat/completions", some "gpt", false, false, none⟩ random counters =
          some (result, counters') := by
  obtain ⟨config, h, hclients⟩ := resolve_sharedFile
  obtain ⟨-, -, -, -, -, hall⟩ := accepted_routing_total h
  rw [hclients] at hall
  obtain ⟨hgpt, hsel⟩ := hall _ List.mem_cons_self "gpt" (by decide)
  obtain ⟨hwhisper, -⟩ := hall _ (List.mem_cons_of_mem _ List.mem_cons_self) "whisper" (by decide)
  refine ⟨config, h, hgpt, hwhisper, ?_⟩
  intro strategy random counters
  obtain ⟨⟨result, counters', hr, -⟩, -⟩ := hsel strategy
    ⟨"/v1/chat/completions", some "gpt", false, false, none⟩ random counters rfl
  exact ⟨result, counters', hr⟩

/-! ### Policies -/

/-- The policies a route should have for a backend: its own, or else those of the backend. -/
def RouteConfig.effectivePolicies (route : RouteConfig) (backend : RoutePolicies) :
    RoutePolicies where
  toolSchemaMode := route.toolSchemaMode.getD backend.toolSchemaMode
  responsesStore := route.responsesStore.getD backend.responsesStore
  responsesMaxOutputTokens := route.responsesMaxOutputTokens.getD backend.responsesMaxOutputTokens
  chatStreamUsage := route.chatStreamUsage.getD backend.chatStreamUsage

/-- Every policy is set by the route, or is `preserve` for the backend. -/
structure PoliciesSet (route : RouteConfig) (backend : RoutePolicies) : Prop where
  toolSchemaMode : route.toolSchemaMode ≠ none ∨ backend.toolSchemaMode = .preserve
  responsesStore : route.responsesStore ≠ none ∨ backend.responsesStore = .preserve
  responsesMaxOutputTokens :
    route.responsesMaxOutputTokens ≠ none ∨ backend.responsesMaxOutputTokens = .preserve
  chatStreamUsage : route.chatStreamUsage ≠ none ∨ backend.chatStreamUsage = .preserve

theorem getD_eq_getD_iff {α : Type} (o : Option α) (a b : α) :
    o.getD a = o.getD b ↔ o ≠ none ∨ b = a := by
  cases o <;> simp [eq_comm]

/-- The candidate comes from a backend of the configuration, through a route or without one. -/
structure SelectedFrom (config : Config) (backend : ResolvedBackend)
    (route : Option ResolvedRoute) (candidate : SelectedRoute) : Prop where
  backend_mem : backend ∈ config.backends
  route_mem : ∀ r ∈ route, r ∈ config.routes
  built : ∃ binding model mode, candidate = buildCandidate backend route binding model mode

/-- **When a route falls back to the policies of its backend**: exactly if it sets them itself, or
the backend has the default. Without a route the policies are those of the backend. -/
theorem route_policies_iff {host : Host} {file : ConfigFile} {config : Config}
    (h : Config.resolve host file = .ok config) {strategy : RoutingStrategy}
    {request : BackendSelectionRequest} {random : ℕ} {counters counters' : RoundRobinCounters}
    {selected : List SelectedRoute}
    (hsel : selectBackendCandidates config.backends config.routes strategy request random counters =
      some (.ok selected, counters')) :
    ∀ candidate ∈ selected, ∃ backend route, SelectedFrom config backend route candidate ∧
      match route with
      | none => candidate.policies = backend.policies
      | some r => ∃ rc ∈ file.routes, rc.routeKey = some r.key ∧
          (candidate.policies = rc.effectivePolicies backend.policies ↔
            PoliciesSet rc backend.policies) := by
  obtain ⟨hc, hroutes⟩ := accepted_of_resolve h
  intro candidate hcand
  have hmem : candidate ∈ eligibleCandidates config.backends config.routes request := by
    rcases selectBackendCandidates_spec config.routes strategy request random counters hc.weights
      with ⟨l, c', hl, -, hrot⟩ | ⟨error, he, -, -⟩
    · rw [hsel] at hl
      cases hl
      exact hrot.mem_iff.mpr hcand
    · rw [hsel] at he
      cases he
  obtain ⟨backend, hb, route, binding, mode, hr, rfl⟩ := exists_of_mem_eligibleCandidates hmem
  refine ⟨backend, route, ⟨hb, hr, binding, request.model, mode, rfl⟩, ?_⟩
  cases route with
  | none => rfl
  | some r =>
    obtain ⟨rc, hrc, hkey, hres⟩ := (resolveRoutes_ok hroutes).2 r (hr r rfl)
    refine ⟨rc, hrc, hkey, ?_⟩
    have hpol := (resolveRoute_ok hres).2.2
    change r.policies = _ ↔ _
    rw [hpol, RouteConfig.effectivePolicies, RoutePolicies.mk.injEq, getD_eq_getD_iff,
      getD_eq_getD_iff, getD_eq_getD_iff, getD_eq_getD_iff]
    exact ⟨fun ⟨h1, h2, h3, h4⟩ => ⟨h1, h2, h3, h4⟩, fun ⟨h1, h2, h3, h4⟩ => ⟨h1, h2, h3, h4⟩⟩

/-- A chat request for the model of the sample. -/
def sampleRequest : BackendSelectionRequest :=
  ⟨"/v1/chat/completions", some "gpt", false, false, none⟩

theorem select_sampleFile : ∃ config selected counters,
    Config.resolve sampleHost sampleFile = .ok config ∧
      config.backends.map ResolvedBackend.policies = [{ toolSchemaMode := .llamacppCompat }] ∧
      selectBackendCandidates config.backends config.routes .priority sampleRequest 0
        (fun _ => 0) = some (.ok selected, counters) ∧
      selected.map SelectedRoute.policies = [{}] := by
  have h : ((Config.resolve sampleHost sampleFile).toOption.bind fun config =>
      (selectBackendCandidates config.backends config.routes .priority sampleRequest 0
        fun _ => 0).bind fun result => result.1.toOption.map fun selected =>
          (config.backends.map ResolvedBackend.policies,
            selected.map SelectedRoute.policies)) =
      some ([{ toolSchemaMode := .llamacppCompat }], [{}]) := by
    decide +kernel
  obtain ⟨config, hconfig, h⟩ := Option.bind_eq_some_iff.mp h
  obtain ⟨⟨result, counters⟩, hs, h⟩ := Option.bind_eq_some_iff.mp h
  obtain ⟨selected, hselected, h⟩ := Option.map_eq_some_iff.mp h
  obtain ⟨hb, hp⟩ := Prod.mk.inj h
  obtain rfl := toOption_eq_some.mp hselected
  exact ⟨config, selected, counters, toOption_eq_some.mp hconfig, hb, hs, hp⟩

/-- The candidate of the sample comes from its route. -/
theorem route_policies_iff_sample : ∃ config selected counters,
    Config.resolve sampleHost sampleFile = .ok config ∧
      selectBackendCandidates config.backends config.routes .priority sampleRequest 0
        (fun _ => 0) = some (.ok selected, counters) ∧ selected.length = 1 ∧
      ∀ candidate ∈ selected, ∃ backend route,
        SelectedFrom config backend route candidate := by
  obtain ⟨config, selected, counters, h, -, hsel, hpol⟩ := select_sampleFile
  refine ⟨config, selected, counters, h, hsel, by simpa using congrArg List.length hpol, ?_⟩
  intro candidate hcand
  obtain ⟨backend, route, hfrom, -⟩ := route_policies_iff h hsel candidate hcand
  exact ⟨backend, route, hfrom⟩

/-- The route of the sample sets no policy, its only backend simplifies schemas, and the candidate
does not. -/
theorem route_policies_ignore_backend : ∃ config selected counters,
    Config.resolve sampleHost sampleFile = .ok config ∧
      selectBackendCandidates config.backends config.routes .priority sampleRequest 0
        (fun _ => 0) = some (.ok selected, counters) ∧
      ∃ candidate ∈ selected, ∀ backend ∈ config.backends, ∀ rc ∈ sampleFile.routes,
        candidate.policies ≠ rc.effectivePolicies backend.policies := by
  obtain ⟨config, selected, counters, h, hb, hsel, hpol⟩ := select_sampleFile
  obtain ⟨candidate, rfl, hcand⟩ := List.map_eq_singleton_iff.mp hpol
  refine ⟨config, _, counters, h, hsel, candidate, List.mem_singleton_self _, ?_⟩
  intro backend hbackend rc hrc
  have hback : backend.policies = { toolSchemaMode := .llamacppCompat } := by
    have := List.mem_map_of_mem (f := ResolvedBackend.policies) hbackend
    rw [hb] at this
    exact List.mem_singleton.mp this
  obtain rfl := List.mem_singleton.mp hrc
  rw [hcand, hback]
  decide

end Onair
