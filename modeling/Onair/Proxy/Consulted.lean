import Onair.Proxy.Accepted

/-!
# The routes that are consulted

Selection takes the first route that matches a request: by its public model, or by its path up to
trailing slashes. A configuration is refused if a route is declared twice, by its key as it is
written.

* `RouteKey.Matches`, `consultedRoute`: what a route matches, and the first that does;
* `RouteKey.probe`: a request that a route matches;
* `EveryRouteConsulted`: every route is the one consulted for some request, and no two match the
  same one;
* **`everyRouteConsulted_iff`**: that holds, if and only if no paths of two routes differ in
  trailing slashes only.
-/

namespace Onair

open Text

/-! ### Matching -/

/-- A route with this key matches the request. -/
def RouteKey.Matches (key : RouteKey) (request : BackendSelectionRequest) : Prop :=
  match key, request.model with
  | .publicModel name, some model => name = model
  | .path route, none => trimEndSlashes route = trimEndSlashes request.path
  | _, _ => False

instance (key : RouteKey) (request : BackendSelectionRequest) :
    Decidable (key.Matches request) := by
  unfold RouteKey.Matches
  split <;> infer_instance

/-- The route that selection consults. -/
def consultedRoute (routes : List ResolvedRoute) (request : BackendSelectionRequest) :
    Option ResolvedRoute :=
  match request.model with
  | some model => publicRoute routes model
  | none => pathRoute routes request.path

/-- A request that a key matches. -/
def RouteKey.probe : RouteKey → BackendSelectionRequest
  | .publicModel name => ⟨"/v1/chat/completions", some name, false, false, none⟩
  | .path route => ⟨route, none, false, false, none⟩

theorem RouteKey.matches_probe (key : RouteKey) : key.Matches key.probe := by
  cases key <;> exact rfl

theorem consultedRoute_eq (routes : List ResolvedRoute) (request : BackendSelectionRequest) :
    consultedRoute routes request = routes.find? fun route => route.key.Matches request := by
  unfold consultedRoute
  cases hmodel : request.model with
  | some model =>
    refine congrArg (List.find? · routes) (funext fun route => Bool.eq_iff_iff.mpr ?_)
    cases hkey : route.key with
    | publicModel name => simp [RouteKey.Matches, hmodel]
    | path p => simp [RouteKey.Matches, hmodel]
  | none =>
    refine congrArg (List.find? · routes) (funext fun route => Bool.eq_iff_iff.mpr ?_)
    cases hkey : route.key with
    | publicModel name => simp [RouteKey.Matches, hmodel]
    | path p => simp [RouteKey.Matches, hmodel]

/-- The candidates of a request are those of the route it consults, as if there was no other. -/
theorem listCandidates_consulted {routes : List ResolvedRoute} {request : BackendSelectionRequest}
    {route : ResolvedRoute} (h : consultedRoute routes request = some route)
    (backends : List ResolvedBackend) :
    listCandidates backends routes request = listCandidates backends [route] request := by
  have hsingle : consultedRoute [route] request = some route := by
    rw [consultedRoute_eq] at h ⊢
    have hmatches := List.find?_some h
    exact List.find?_cons_of_pos hmatches
  unfold consultedRoute at h hsingle
  unfold listCandidates
  cases hmodel : request.model with
  | some model =>
    rw [hmodel] at h hsingle
    simp only [h, hsingle]
  | none =>
    rw [hmodel] at h hsingle
    simp only [h, hsingle]

/-! ### Every route is consulted -/

/-- Every route is consulted for some request, and no two routes match the same request. -/
structure EveryRouteConsulted (routes : List ResolvedRoute) : Prop where
  consulted : ∀ route ∈ routes, ∃ request, consultedRoute routes request = some route ∧
    ∀ backends, listCandidates backends routes request = listCandidates backends [route] request
  apart : routes.Pairwise fun a b => ∀ request, ¬(a.key.Matches request ∧ b.key.Matches request)

/-- No paths of two routes differ in trailing slashes only. -/
def PathsApart (routes : List ResolvedRoute) : Prop :=
  routes.Pairwise fun a b => ∀ p q, a.key = .path p → b.key = .path q →
    trimEndSlashes p ≠ trimEndSlashes q

theorem find?_of_pairwise {α : Type} {p : α → Bool} {l : List α}
    (h : l.Pairwise fun a b => ¬(p a = true ∧ p b = true)) {a : α} (ha : a ∈ l)
    (hp : p a = true) : l.find? p = some a := by
  induction l with
  | nil => cases ha
  | cons b l ih =>
    obtain ⟨hb, hl⟩ := List.pairwise_cons.mp h
    obtain rfl | ha := List.mem_cons.mp ha
    · exact List.find?_cons_of_pos hp
    · rw [List.find?_cons_of_neg fun hpb => hb a ha ⟨hpb, hp⟩, ih hl ha]

/-- Two keys match the same request only if they are the same, or paths that differ in trailing
slashes. -/
theorem RouteKey.Matches.eq_or_path {a b : RouteKey} {request : BackendSelectionRequest}
    (ha : a.Matches request) (hb : b.Matches request) :
    a = b ∨ ∃ p q, a = .path p ∧ b = .path q ∧ trimEndSlashes p = trimEndSlashes q := by
  unfold RouteKey.Matches at ha hb
  cases hmodel : request.model with
  | some model =>
    cases a with
    | path p => simp [hmodel] at ha
    | publicModel name =>
      cases b with
      | path q => simp [hmodel] at hb
      | publicModel name' =>
        simp only [hmodel] at ha hb
        exact Or.inl (congrArg _ (ha.trans hb.symm))
  | none =>
    cases a with
    | publicModel name => simp [hmodel] at ha
    | path p =>
      cases b with
      | publicModel name => simp [hmodel] at hb
      | path q =>
        simp only [hmodel] at ha hb
        exact Or.inr ⟨p, q, rfl, rfl, ha.trans hb.symm⟩

/-- Routes with different keys match different requests, if their paths are apart. -/
theorem matches_apart {routes : List ResolvedRoute}
    (hkeys : (routes.map ResolvedRoute.key).Nodup) (hpaths : PathsApart routes) :
    routes.Pairwise fun a b => ∀ request, ¬(a.key.Matches request ∧ b.key.Matches request) := by
  have hne : routes.Pairwise fun a b => a.key ≠ b.key := List.pairwise_map.mp hkeys
  refine (hne.and hpaths).imp fun {a b} h request hmatch => ?_
  obtain heq | ⟨p, q, ha, hb, heq⟩ := hmatch.1.eq_or_path hmatch.2
  · exact h.1 heq
  · exact h.2 p q ha hb heq

/-- **Every accepted route is reachable, and no two match the same request, if and only if no paths
of two routes differ in trailing slashes only.** -/
theorem everyRouteConsulted_iff {host : Host} {file : ConfigFile} {config : Config}
    (h : Config.resolve host file = .ok config) :
    EveryRouteConsulted config.routes ↔ PathsApart config.routes := by
  obtain ⟨haccepted, -⟩ := accepted_of_resolve h
  constructor
  · rintro ⟨-, hapart⟩
    refine hapart.imp fun {a b} hab p q ha hb heq => hab (RouteKey.path p).probe ⟨?_, ?_⟩
    · rw [ha]
      exact RouteKey.matches_probe _
    · rw [hb]
      exact heq.symm
  · intro hpaths
    have hapart := matches_apart haccepted.route_keys hpaths
    refine ⟨fun route hroute => ⟨route.key.probe, ?_⟩, hapart⟩
    have hconsulted : consultedRoute config.routes route.key.probe = some route := by
      rw [consultedRoute_eq]
      refine find?_of_pairwise ?_ hroute (decide_eq_true route.key.matches_probe)
      refine hapart.imp fun {a b} hab hboth => hab route.key.probe ?_
      exact ⟨of_decide_eq_true hboth.1, of_decide_eq_true hboth.2⟩
    exact ⟨hconsulted, listCandidates_consulted hconsulted⟩

/-- A file with routes for some paths. -/
def pathRoutesFile (paths : List String) : ConfigFile where
  clients := [{ id := "guest", apiKey := some "key" }]
  backends := [{ id := "llama", baseUrl := "http://localhost:8080", supports := {"audio"} }]
  routes := paths.map fun path => { path := some path, backends := ["llama"] }

/-- The keys of the routes of a file that is accepted. -/
def resolvedKeys (file : ConfigFile) : Option (List RouteKey) :=
  match Config.resolve sampleHost file with
  | .ok config => some (config.routes.map ResolvedRoute.key)
  | .error _ => none

theorem exists_of_resolvedKeys {file : ConfigFile} {keys : List RouteKey}
    (h : resolvedKeys file = some keys) : ∃ config, Config.resolve sampleHost file = .ok config ∧
      config.routes.map ResolvedRoute.key = keys := by
  unfold resolvedKeys at h
  cases hresolve : Config.resolve sampleHost file with
  | error e => simp [hresolve] at h
  | ok config =>
    rw [hresolve] at h
    exact ⟨config, rfl, Option.some.inj h⟩

theorem pathsApart_of_keys {routes : List ResolvedRoute} {paths : List String}
    (h : routes.map ResolvedRoute.key = paths.map RouteKey.path)
    (hpaths : paths.Pairwise fun p q => trimEndSlashes p ≠ trimEndSlashes q) :
    PathsApart routes := by
  have hkeys : (routes.map ResolvedRoute.key).Pairwise fun a b => ∀ p q, a = .path p →
      b = .path q → trimEndSlashes p ≠ trimEndSlashes q := by
    rw [h, List.pairwise_map]
    refine hpaths.imp fun {p q} hne p' q' hp hq => ?_
    rwa [← RouteKey.path.inj hp, ← RouteKey.path.inj hq]
  exact List.pairwise_map.mp hkeys

/-- Both routes of a file are consulted. -/
theorem everyRouteConsulted_sample : ∃ config,
    Config.resolve sampleHost (pathRoutesFile ["/v1/audio", "/v1/files"]) = .ok config ∧
      EveryRouteConsulted config.routes := by
  obtain ⟨config, h, hkeys⟩ := exists_of_resolvedKeys
    (show resolvedKeys (pathRoutesFile ["/v1/audio", "/v1/files"]) =
      some (["/v1/audio", "/v1/files"].map RouteKey.path) by decide +kernel)
  exact ⟨config, h, (everyRouteConsulted_iff h).mpr (pathsApart_of_keys hkeys
    (by decide +kernel))⟩

/-- Of two routes whose paths differ in a slash, one is never consulted. -/
theorem not_everyRouteConsulted_sample : ∃ config,
    Config.resolve sampleHost (pathRoutesFile ["/v1/audio", "/v1/audio/"]) = .ok config ∧
      ¬EveryRouteConsulted config.routes := by
  obtain ⟨config, h, hkeys⟩ := exists_of_resolvedKeys
    (show resolvedKeys (pathRoutesFile ["/v1/audio", "/v1/audio/"]) =
      some (["/v1/audio", "/v1/audio/"].map RouteKey.path) by decide +kernel)
  refine ⟨config, h, fun hall => ?_⟩
  have hpaths : (config.routes.map ResolvedRoute.key).Pairwise fun a b =>
      ∀ request, ¬(a.Matches request ∧ b.Matches request) := List.pairwise_map.mpr hall.apart
  rw [hkeys] at hpaths
  have hboth := (List.pairwise_cons.mp hpaths).1 (.path "/v1/audio/") (by decide)
    (RouteKey.path "/v1/audio").probe
  exact hboth (by decide +kernel)

end Onair
