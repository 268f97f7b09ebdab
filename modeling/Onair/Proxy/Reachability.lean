import Onair.Proxy.Accepted
import Onair.Proxy.Markers

/-!
# The warning about backends that are never selected

When a configuration is loaded, a warning says which backends cannot serve any of the markers their
routes expose, and will never be selected.

* `routeCanServe`: when there is no warning;
* `Spelled`: a path can spell the marker, as one of its segments;
* `mem_spelled`: all candidates of a path are spelled;
* `NeverSelected`: what the warning says;
* **`warning_iff`**: the warning is right, if and only if there is none, or no path can spell a
  marker of the backend, or one that the route exposes.
-/

namespace Onair

open Text Fallible

/-! ### The warning -/

/-- The marker, or the one for everything. -/
def hasMarker (set : Finset String) (marker : String) : Bool := marker ∈ set || "all" ∈ set

/-- The marker is for a compatibility that the backend can serve. -/
def isCompatMarkerPair (marker : String) (backendSupports : Finset String) : Bool :=
  if marker = responsesViaChatCompletionsMarker then
    hasMarker backendSupports "chat" || hasMarker backendSupports "chat_completions" ||
      hasMarker backendSupports "completions"
  else if marker = chatCompletionsViaResponsesMarker then
    hasMarker backendSupports "responses" || hasMarker backendSupports "response"
  else if marker = chatCompletionsViaMessagesMarker then hasMarker backendSupports "messages"
  else false

/-- The backend can serve something that the route exposes. -/
def routeCanServe (expose : Finset String) (backend : ResolvedBackend) : Bool :=
  decide (∃ marker ∈ expose,
    marker ∈ backend.supports ∨ isCompatMarkerPair marker backend.supports = true)

/-- The backends that a warning is about, with their routes. -/
def warnAboutUnreachableBackends (key : RouteKey) (expose : Finset String)
    (backends : List ResolvedBackend) : List RouteBackendBinding → List (String × String)
  | [] => []
  | binding :: bindings =>
    match backends.find? fun b => b.id == binding.backendId with
    | none => []
    | some backend =>
      (if routeCanServe expose backend then [] else [(formatRouteKey key, backend.id)]) ++
        warnAboutUnreachableBackends key expose backends bindings

theorem boundBackend_id {backends : List ResolvedBackend} {binding : RouteBackendBinding}
    {backend : ResolvedBackend} (h : boundBackend backends binding = some backend) :
    backend.id = binding.backendId := by
  simpa using List.find?_some h

/-- The warning is about the backends that cannot serve what the route exposes. -/
theorem mem_warnAboutUnreachableBackends {key : RouteKey} {expose : Finset String}
    {backends : List ResolvedBackend} {bindings : List RouteBackendBinding}
    (h : ∀ binding ∈ bindings, boundBackend backends binding ≠ none) {entry : String × String} :
    entry ∈ warnAboutUnreachableBackends key expose backends bindings ↔
      ∃ binding ∈ bindings, ∃ backend, boundBackend backends binding = some backend ∧
        routeCanServe expose backend = false ∧ entry = (formatRouteKey key, backend.id) := by
  induction bindings with
  | nil => simp [warnAboutUnreachableBackends]
  | cons binding bindings ih =>
    obtain ⟨backend, hbackend⟩ := Option.ne_none_iff_exists'.mp (h binding List.mem_cons_self)
    have hrest := ih fun other hother => h other (List.mem_cons_of_mem _ hother)
    have hfind := hbackend
    unfold boundBackend at hfind
    rw [warnAboutUnreachableBackends, hfind]
    simp only [List.mem_append, hrest, List.exists_mem_cons_iff, hbackend, Option.some_inj]
    refine or_congr_left ?_
    cases hserve : routeCanServe expose backend <;> simp [hserve]

/-- **What the warning says**: the backend is eligible for no request on the route, and the binding
gives no candidate, whether the route is looked up by model or by path. -/
structure NeverSelected (backends : List ResolvedBackend) (route : ResolvedRoute)
    (binding : RouteBackendBinding) (backend : ResolvedBackend) : Prop where
  ineligible : ∀ request flag, (isEligible request backend (some route) flag).1 = none
  byModel : ∀ request model st,
    (modelStep backends request route model st binding).1 = st.1
  byPath : ∀ request st, (pathStep request (some route) st backend).1 = st.1

/-! ### Markers that a path can spell -/

/-- The marker can be a segment of a path. -/
def Spelled (marker : String) : Prop :=
  marker ≠ "" ∧ ∀ c ∈ marker.toList, c ≠ '/' ∧ c ≠ '-' ∧ c.toLower = c

instance : DecidablePred Spelled := fun _ =>
  @instDecidableAnd _ _ inferInstance (List.decidableBAll _ _)

theorem segmentChar_spec {c : Char} (hc : c ≠ '/') :
    (if c = '-' then '_' else c.toLower) ≠ '/' ∧ (if c = '-' then '_' else c.toLower) ≠ '-' ∧
      (if c = '-' then '_' else c.toLower).toLower = if c = '-' then '_' else c.toLower := by
  by_cases hlt : c.toNat < 128
  · have hascii : ∀ n < 128, Char.ofNat n ≠ '/' →
        (if Char.ofNat n = '-' then '_' else (Char.ofNat n).toLower) ≠ '/' ∧
          (if Char.ofNat n = '-' then '_' else (Char.ofNat n).toLower) ≠ '-' ∧
          (if Char.ofNat n = '-' then '_' else (Char.ofNat n).toLower).toLower =
            if Char.ofNat n = '-' then '_' else (Char.ofNat n).toLower := by
      decide
    have h := hascii c.toNat hlt
    rw [Char.ofNat_toNat] at h
    exact h hc
  · have hlower : c.toLower = c := by
      unfold Char.toLower
      refine dif_neg fun h => hlt ?_
      have hle : c.toNat ≤ 90 := UInt32.le_iff_toNat_le.mp h.2
      omega
    have hne : c ≠ '-' := by
      rintro rfl
      exact hlt (by decide)
    rw [if_neg hne, hlower]
    exact ⟨hc, hne, hlower⟩

theorem spelled_normalizeSegment {piece : List Char} (hne : piece ≠ []) (h : '/' ∉ piece) :
    Spelled (normalizeSegment (String.ofList piece)) := by
  rw [normalizeSegment, String.toList_ofList]
  refine ⟨fun hempty => hne ?_, fun c hc => ?_⟩
  · have hlist := congrArg String.toList hempty
    rw [String.toList_ofList] at hlist
    exact List.map_eq_nil_iff.mp hlist
  · rw [String.toList_ofList] at hc
    obtain ⟨d, hd, rfl⟩ := List.mem_map.mp hc
    exact segmentChar_spec fun heq => h (heq ▸ hd)

theorem Spelled.append {a b : String} (ha : Spelled a) (hb : Spelled b) :
    Spelled (a ++ "_" ++ b) := by
  refine ⟨fun h => ha.1 (String.append_eq_empty_iff.mp (String.append_eq_empty_iff.mp h).1).1, ?_⟩
  intro c hc
  rw [String.toList_append, String.toList_append, List.append_assoc, List.mem_append,
    List.mem_append] at hc
  obtain hc | hc | hc := hc
  · exact ha.2 c hc
  · obtain rfl : c = '_' := List.mem_singleton.mp hc
    decide
  · exact hb.2 c hc

theorem spelled_singularize {a : String} (ha : Spelled a)
    (h : a.toList.getLast? = some 's' ∧ 1 < (asBytes a).length) : Spelled (singularize a) := by
  obtain ⟨init, hinit⟩ := List.getLast?_eq_some_iff.mp h.1
  have hfirst : a = String.ofList init ++ "s" := by
    rw [← String.toList_inj, String.toList_append, String.toList_ofList, hinit]
    rfl
  have hchars : ∀ c ∈ init, c ≠ '/' ∧ c ≠ '-' ∧ c.toLower = c := fun c hc =>
    ha.2 c (hinit ▸ List.mem_append_left _ hc)
  rw [hfirst, singularize_append]
  refine ⟨fun hempty => ?_, by rwa [String.toList_ofList]⟩
  rw [hfirst, hempty] at h
  exact absurd h.2 (by decide)

theorem sep_not_mem_splitList {sep : Char} {l p : List Char} (hp : p ∈ splitList sep l) :
    sep ∉ p := by
  induction l generalizing p with
  | nil =>
    obtain rfl := List.mem_singleton.mp hp
    exact List.not_mem_nil
  | cons a l ih =>
    rw [splitList] at hp
    split_ifs at hp with ha
    · obtain rfl | hp := List.mem_cons.mp hp
      · exact List.not_mem_nil
      · exact ih hp
    · cases hl : splitList sep l with
      | nil => exact absurd hl (splitList_ne_nil sep l)
      | cons q qs =>
        rw [hl] at hp ih
        obtain rfl | hp := List.mem_cons.mp hp
        · intro hmem
          obtain rfl | hmem := List.mem_cons.mp hmem
          · exact ha rfl
          · exact ih List.mem_cons_self hmem
        · exact ih (List.mem_cons_of_mem _ hp)

theorem mem_pathSegments_spelled {path segment : String} (h : segment ∈ pathSegments path) :
    Spelled segment := by
  obtain ⟨piece, hpiece, rfl⟩ := List.mem_map.mp h
  obtain ⟨hpiece, hne⟩ := List.mem_filter.mp hpiece
  exact spelled_normalizeSegment (by simpa using hne) (sep_not_mem_splitList hpiece)

theorem mem_candidatesOf_spelled {segments : List String} (hs : ∀ s ∈ segments, Spelled s)
    {marker : String} (h : marker ∈ candidatesOf segments) : Spelled marker := by
  cases segments with
  | nil => simp [candidatesOf] at h
  | cons first rest =>
    obtain ⟨hfirst, hrest⟩ := List.forall_mem_cons.mp hs
    have hextra : ∀ m ∈ firstSegmentExtras first, Spelled m := by
      unfold firstSegmentExtras
      split <;> decide
    simp only [candidatesOf, Finset.mem_union] at h
    obtain (((h | h) | h) | h) | h := h
    · obtain rfl := Finset.mem_singleton.mp h
      exact hfirst
    · split_ifs at h with hplural
      · obtain rfl := Finset.mem_singleton.mp h
        exact spelled_singularize hfirst hplural
      · simp at h
    · rcases rest with _ | ⟨second, rest⟩
      · simp at h
      · obtain rfl | rfl : marker = second ∨ marker = first ++ "_" ++ second := by simpa using h
        · exact hrest _ (by simp)
        · exact hfirst.append (hrest _ (by simp))
    · rcases rest with _ | ⟨second, _ | ⟨third, rest⟩⟩
      · simp at h
      · simp at h
      · obtain rfl | rfl : marker = first ++ "_" ++ third ∨ marker = third := by simpa using h
        · exact hfirst.append (hrest _ (by simp))
        · exact hrest _ (by simp)
    · exact hextra marker h

/-- **All candidates of a path are spelled**, and so is what admits an endpoint. -/
theorem mem_spelled {path marker : String} {endpoint : EndpointKind}
    (h : marker ∈ endpointMarkers path endpoint) : Spelled marker := by
  cases endpoint with
  | other => exact mem_candidatesOf_spelled (fun _ hs => mem_pathSegments_spelled hs) h
  | responses =>
    have hall : ∀ m ∈ endpointMarkers "" .responses, Spelled m := by decide
    exact hall marker h
  | chatCompletions =>
    have hall : ∀ m ∈ endpointMarkers "" .chatCompletions, Spelled m := by decide
    exact hall marker h
  | messages =>
    have hall : ∀ m ∈ endpointMarkers "" .messages, Spelled m := by decide
    exact hall marker h

/-- Markers that admit something have one that is spelled. -/
theorem Admits.exists_spelled {path : String} {endpoint : EndpointKind} {markers : Finset String}
    (h : Admits path endpoint markers) : ∃ m ∈ markers, Spelled m := by
  obtain ⟨marker, hmem, h | h⟩ := h
  · exact ⟨marker, h, mem_spelled hmem⟩
  · exact ⟨"all", h, by decide⟩

/-! ### A path for two markers -/

/-- A path whose segments are a marker, a letter and another marker. -/
def spellingPath (marker other : String) : String := "/v1/" ++ marker ++ "/x/" ++ other

theorem normalizeSegment_spelled {marker : String} (h : Spelled marker) :
    normalizeSegment marker = marker := by
  have hchars :
      (marker.toList.map fun c => if c = '-' then '_' else c.toLower) = marker.toList := by
    refine (List.map_congr_left fun c hc => ?_).trans (List.map_id _)
    rw [if_neg (h.2 c hc).2.1, (h.2 c hc).2.2, id]
  rw [normalizeSegment, hchars, String.ofList_toList]

theorem pathSegments_spellingPath {marker other : String} (hm : Spelled marker)
    (ho : Spelled other) : pathSegments (spellingPath marker other) = [marker, "x", other] := by
  have hslash {m : String} (h : Spelled m) : '/' ∉ m.toList := fun hmem => (h.2 _ hmem).1 rfl
  have hne {m : String} (h : Spelled m) : m.toList ≠ [] := fun hnil => h.1 (by
    rw [← String.ofList_toList (s := m), hnil])
  have hpath : (spellingPath marker other).toList =
      "/v1/".toList ++ (marker.toList ++ '/' :: (['x'] ++ '/' :: other.toList)) := by
    simp [spellingPath, String.toList_append]
  have hdrop : marker.toList.dropWhile (· == '/') = marker.toList := by
    refine List.dropWhile_eq_self_iff.mpr fun hlen => ?_
    have hhead := hslash hm
    simp only [beq_iff_eq]
    exact fun heq => hhead (heq ▸ List.getElem_mem hlen)
  rw [pathSegments, hpath, stripPrefix_append, Option.getD_some,
    dropWhile_slashes hdrop (hne hm), splitList_append (hslash hm),
    splitList_append (by decide), splitList_of_not_mem (hslash ho)]
  have hx : normalizeSegment "x" = "x" := by decide
  simpa [hne hm, hne ho, normalizeSegment_spelled hm, normalizeSegment_spelled ho] using hx

theorem routedEndpoint_spellingPath {marker other : String} (hm : Spelled marker)
    (ho : Spelled other) : routedEndpoint (spellingPath marker other) = .other := by
  have hshort : ∀ e ∈ ["/v1/responses", "/v1/chat/completions", "/v1/chat/completion",
      "/v1/messages"], e ∈ modelPaths ∧ (pathSegments e).length ≤ 2 := by
    decide +kernel
  have hne (e : String) (he : e ∈ ["/v1/responses", "/v1/chat/completions", "/v1/chat/completion",
      "/v1/messages"]) : trimEndSlashes (spellingPath marker other) ≠ e := by
    intro heq
    obtain ⟨hpath, hlen⟩ := hshort e he
    rw [← pathSegments_of_trim heq hpath, pathSegments_spellingPath hm ho] at hlen
    simp at hlen
  unfold routedEndpoint
  dsimp only
  rw [if_neg (hne _ (by simp)), if_neg (not_or.mpr ⟨hne _ (by simp), hne _ (by simp)⟩),
    if_neg (hne _ (by simp))]

/-! ### When the warning is right -/

/-- No path can spell a marker of the backend, or one that the route exposes. -/
def Unspelled (supports expose : Finset String) : Prop :=
  (∀ m ∈ supports, ¬Spelled m) ∨ (expose ≠ ∅ ∧ ∀ m ∈ expose, ¬Spelled m)

/-- What serves a path has a marker that is spelled, and so has the route. -/
theorem not_unspelled_of_mode {path : String} {supports expose : Finset String}
    {mode : RequestMode} (h : matrixMode path supports (some expose) = some mode) :
    ¬Unspelled supports expose := by
  obtain ⟨row, hmem, ⟨-, hadmits, hroute⟩, -⟩ := exists_row h
  rintro (hnone | ⟨hne, hnone⟩)
  · obtain ⟨m, hm, hspelled⟩ := hadmits.exists_spelled
    exact hnone m hm hspelled
  · cases hmarker : row.marker with
    | none =>
      rw [hmarker] at hroute
      obtain ⟨m, hm, hspelled⟩ := ((hroute expose rfl).resolve_left hne).exists_spelled
      exact hnone m hm hspelled
    | some marker =>
      have hcompat : ∀ row ∈ endpointMatrix, ∀ m ∈ row.marker, Spelled m := by decide
      rw [hmarker] at hroute
      change marker ∈ (if expose = ∅ then supports else expose) at hroute
      rw [if_neg hne] at hroute
      exact hnone marker hroute (hcompat row hmem marker hmarker)

/-- Where a path can spell a marker of each, that path is served. -/
theorem mode_of_spelled {supports expose : Finset String} (h : ¬Unspelled supports expose) :
    ∃ path, matrixMode path supports (some expose) = some .native := by
  obtain ⟨hsupports, hexpose⟩ := not_or.mp h
  push Not at hsupports
  obtain ⟨m, hm, hspelled⟩ := hsupports
  obtain ⟨o, ho, hother⟩ : ∃ o, (expose = ∅ ∨ o ∈ expose) ∧ Spelled o := by
    by_cases hempty : expose = ∅
    · exact ⟨"x", Or.inl hempty, by decide⟩
    · push Not at hexpose
      obtain ⟨o, ho, hother⟩ := hexpose (Finset.nonempty_iff_ne_empty.mpr hempty)
      exact ⟨o, Or.inr ho, hother⟩
  have hroute := routedEndpoint_spellingPath hspelled hother
  have hcand : m ∈ pathCapabilityCandidates (spellingPath m o) ∧
      o ∈ pathCapabilityCandidates (spellingPath m o) := by
    rw [pathCapabilityCandidates, pathSegments_spellingPath hspelled hother]
    exact ⟨mem_candidatesOf (by simp), mem_candidatesOf (by simp)⟩
  refine ⟨spellingPath m o, ?_⟩
  have hnative := (followsMatrix_matrixMode (spellingPath m o) supports (some expose)).native
  rw [hroute] at hnative
  refine hnative.mpr ⟨⟨m, hcand.1, Or.inl hm⟩, ?_⟩
  rintro _ ⟨⟩
  exact ho.imp_right fun ho => ⟨o, hcand.2, Or.inl ho⟩

/-- **What the warning says holds if and only if no path can spell a marker of the backend, or one
that the route exposes.** -/
theorem neverSelected_iff {backends : List ResolvedBackend} {route : ResolvedRoute}
    {binding : RouteBackendBinding} {backend : ResolvedBackend}
    (hbackend : boundBackend backends binding = some backend) :
    NeverSelected backends route binding backend ↔
      Unspelled backend.supports route.expose := by
  constructor
  · intro h
    by_contra hspelled
    obtain ⟨path, hmode⟩ := mode_of_spelled hspelled
    have hnone := h.ineligible ⟨path, none, false, false, none⟩ false
    rw [isEligible_fst, if_pos ⟨nofun, nofun⟩] at hnone
    rw [Option.map_some, hmode] at hnone
    cases hnone
  · intro h
    have hnone (request : BackendSelectionRequest) (flag : Bool) :
        (isEligible request backend (some route) flag).1 = none := by
      rw [isEligible_fst, Option.map_some]
      split_ifs
      · cases hmode : matrixMode request.path backend.supports (some route.expose) with
        | none => rfl
        | some mode => exact absurd h (not_unspelled_of_mode hmode)
      · rfl
    refine ⟨hnone, fun request model st => ?_, fun request st => ?_⟩
    · unfold boundBackend at hbackend
      have hpair : isEligible request backend (some route) st.2 =
          (none, (isEligible request backend (some route) st.2).2) :=
        Prod.ext (hnone request st.2) rfl
      rw [modelStep, hbackend]
      dsimp only
      rw [hpair]
    · have hpair : isEligible request backend (some route) st.2 =
          (none, (isEligible request backend (some route) st.2).2) :=
        Prod.ext (hnone request st.2) rfl
      rw [pathStep]
      split_ifs
      · rfl
      · rw [hpair]

/-- **The warning is right, if and only if** there is none, or no path can spell a marker of the
backend, or one that the route exposes: a backend that serves one path under a name and a route that
exposes another are both open to a path with both names. -/
theorem warning_iff {host : Host} {file : ConfigFile} {config : Config}
    (h : Config.resolve host file = .ok config) :
    ∀ route ∈ config.routes, ∀ binding ∈ route.backends, ∃ backend,
      boundBackend config.backends binding = some backend ∧
        ((formatRouteKey route.key, backend.id) ∈ warnAboutUnreachableBackends route.key
            route.expose config.backends route.backends ↔
          routeCanServe route.expose backend = false) ∧
        ((routeCanServe route.expose backend = false →
            NeverSelected config.backends route binding backend) ↔
          routeCanServe route.expose backend = true ∨
            Unspelled backend.supports route.expose) := by
  obtain ⟨hc, -⟩ := accepted_of_resolve h
  intro route hroute binding hbinding
  obtain ⟨backend, hbackend⟩ :=
    Option.ne_none_iff_exists'.mp (boundBackend_isSome hc hroute hbinding)
  refine ⟨backend, hbackend, ?_, ?_⟩
  · rw [mem_warnAboutUnreachableBackends fun other hother => boundBackend_isSome hc hroute hother]
    constructor
    · rintro ⟨other, -, backend', hother, hserve, hentry⟩
      -- a name stands for one backend
      have hid : binding.backendId = other.backendId :=
        (boundBackend_id hbackend).symm.trans
          ((Prod.mk.inj hentry).2.trans (boundBackend_id hother))
      have hsame : boundBackend config.backends binding = boundBackend config.backends other := by
        unfold boundBackend
        rw [hid]
      rw [hbackend, hother] at hsame
      rw [Option.some.inj hsame]
      exact hserve
    · exact fun hserve => ⟨binding, hbinding, backend, hbackend, hserve, rfl⟩
  · rw [neverSelected_iff hbackend]
    cases routeCanServe route.expose backend <;> simp

/-- Every binding of the sample has a backend, and the warning about it is right or wrong. -/
theorem warning_iff_sample : ∃ config, Config.resolve sampleHost sampleFile = .ok config ∧
    ∀ route ∈ config.routes, ∀ binding ∈ route.backends,
      boundBackend config.backends binding ≠ none := by
  obtain ⟨config, h, -⟩ := resolve_sampleFile
  refine ⟨config, h, fun route hroute binding hbinding => ?_⟩
  obtain ⟨backend, hbackend, -⟩ := warning_iff h route hroute binding hbinding
  rw [hbackend]
  nofun

/-- The route of the sample exposes nothing, so it is open for all that the backend supports; the
warning says that the backend is never selected, and it is. -/
theorem warning_wrong_sample : ∃ config, Config.resolve sampleHost sampleFile = .ok config ∧
    ∃ route ∈ config.routes, ∃ binding ∈ route.backends, ∃ backend,
      boundBackend config.backends binding = some backend ∧
      routeCanServe route.expose backend = false ∧
      (isEligible sampleRequest backend (some route) false).1 = some .native := by
  have h : ((Config.resolve sampleHost sampleFile).toOption.any fun config =>
      config.routes.any fun route => route.backends.any fun binding =>
        (boundBackend config.backends binding).any fun backend =>
          !routeCanServe route.expose backend &&
            (isEligible sampleRequest backend (some route) false).1 == some .native) = true := by
    decide +kernel
  obtain ⟨config, hconfig, h⟩ := (Option.any_eq_true _ _).mp h
  obtain ⟨route, hroute, h⟩ := List.any_eq_true.mp h
  obtain ⟨binding, hbinding, h⟩ := List.any_eq_true.mp h
  obtain ⟨backend, hbackend, h⟩ := (Option.any_eq_true _ _).mp h
  obtain ⟨hserve, hmode⟩ := Bool.and_eq_true_iff.mp h
  exact ⟨config, toOption_eq_some.mp hconfig, route, hroute, binding, hbinding, backend, hbackend,
    by simpa using hserve, by simpa using hmode⟩

end Onair
