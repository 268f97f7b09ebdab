import Mathlib.Data.List.Rotate
import Onair.Proxy.Routing

/-!
# Selection follows the endpoint matrix

The endpoint matrix says which client endpoint an upstream endpoint can serve, and which markers
that takes. A row without a compatibility marker is open if backend and route admit the endpoint, a
row with one if the route has exactly this marker, or the backend where the route exposes nothing.
The first row that is open gives the mode.

* `endpointMatrix`, `MatrixRow.Open`, `matrixMode`: the matrix and the mode it gives;
* `requestModeForPath_eq`: the code goes by the matrix;
* `eligibleCandidates`: the candidates a request should have, in order;
* `listCandidates_spec`: the loops list these;
* `orderCandidates_spec`: every strategy rotates them;
* **`selection_iff`**: selection succeeds if and only if there is a candidate, and then gives a
  rotation of the list.
-/

namespace Onair

open Text

/-! ### The matrix -/

/-- The endpoint that routing takes a path for. -/
def routedEndpoint (path : String) : EndpointKind :=
  let trimmed := trimEndSlashes path
  if trimmed = "/v1/responses" then .responses
  else if trimmed = "/v1/chat/completions" ∨ trimmed = "/v1/chat/completion" then .chatCompletions
  else if trimmed = "/v1/messages" then .messages
  else .other

/-- The markers that admit an endpoint; for other paths these are the candidates of the path. -/
def endpointMarkers (path : String) : EndpointKind → Finset String
  | .responses => {"responses", "response"}
  | .chatCompletions => {"chat", "chat_completions", "completions"}
  | .messages => {"messages"}
  | .other => pathCapabilityCandidates path

/-- The markers admit an endpoint. -/
def Admits (path : String) (endpoint : EndpointKind) (markers : Finset String) : Prop :=
  ∃ marker ∈ endpointMarkers path endpoint, marker ∈ markers ∨ "all" ∈ markers

instance (path : String) (endpoint : EndpointKind) (markers : Finset String) :
    Decidable (Admits path endpoint markers) :=
  inferInstanceAs (Decidable (∃ marker ∈ endpointMarkers path endpoint, _))

/-- The route admits an endpoint: there is none, it exposes nothing, or its markers admit it. -/
def RouteAdmits (path : String) (endpoint : EndpointKind)
    (expose : Option (Finset String)) : Prop :=
  ∀ markers ∈ expose, markers = ∅ ∨ Admits path endpoint markers

instance (path : String) (endpoint : EndpointKind) (expose : Option (Finset String)) :
    Decidable (RouteAdmits path endpoint expose) :=
  inferInstanceAs (Decidable (∀ markers ∈ expose, _))

/-- The markers that decide about compatibility: what the route exposes, or what the backend
supports where there is no route or it exposes nothing. -/
def compatMarkers (supports : Finset String) : Option (Finset String) → Finset String
  | none => supports
  | some markers => if markers = ∅ then supports else markers

/-- A row of the matrix: a client endpoint served by an upstream endpoint. -/
structure MatrixRow where
  client : EndpointKind
  upstream : EndpointKind
  marker : Option String
  mode : RequestMode
  deriving DecidableEq, Repr

/-- The endpoint matrix. Rows of one client endpoint are in the order they are tried. -/
def endpointMatrix : List MatrixRow :=
  [⟨.chatCompletions, .chatCompletions, none, .native⟩,
    ⟨.responses, .responses, none, .native⟩,
    ⟨.messages, .messages, none, .anthropicMessagesNative⟩,
    ⟨.other, .other, none, .native⟩,
    ⟨.responses, .chatCompletions, some responsesViaChatCompletionsMarker,
      .responsesViaChatCompletions⟩,
    ⟨.chatCompletions, .responses, some chatCompletionsViaResponsesMarker,
      .chatCompletionsViaResponses⟩,
    ⟨.chatCompletions, .messages, some chatCompletionsViaMessagesMarker,
      .chatCompletionsViaMessages⟩]

/-- The row is open to a path. -/
def MatrixRow.Open (path : String) (supports : Finset String) (expose : Option (Finset String))
    (row : MatrixRow) : Prop :=
  row.client = routedEndpoint path ∧ Admits path row.upstream supports ∧
    match row.marker with
    | none => RouteAdmits path row.client expose
    | some marker => marker ∈ compatMarkers supports expose

instance (path : String) (supports : Finset String) (expose : Option (Finset String)) :
    DecidablePred (MatrixRow.Open path supports expose) := fun row => by
  unfold MatrixRow.Open
  cases row.marker <;> infer_instance

/-- The mode the matrix gives. -/
def matrixMode (path : String) (supports : Finset String) (expose : Option (Finset String)) :
    Option RequestMode :=
  (endpointMatrix.find? (MatrixRow.Open path supports expose ·)).map MatrixRow.mode

/-! ### The code goes by the matrix -/

theorem hasCapability_iff (markers : Finset String) (marker : String) :
    hasCapability markers marker = true ↔ marker ∈ markers ∨ "all" ∈ markers := by
  simp [hasCapability]

theorem supportsMessages_iff (path : String) (markers : Finset String) :
    supportsMessages markers = true ↔ Admits path .messages markers := by
  simp [supportsMessages, hasCapability_iff, Admits, endpointMarkers]

theorem supportsResponses_iff (path : String) (markers : Finset String) :
    supportsResponses markers = true ↔ Admits path .responses markers := by
  simp [supportsResponses, hasCapability_iff, Admits, endpointMarkers]

theorem supportsChatCompat_iff (path : String) (markers : Finset String) :
    supportsChatCompat markers = true ↔ Admits path .chatCompletions markers := by
  simp [supportsChatCompat, hasCapability_iff, Admits, endpointMarkers, or_assoc]

theorem supportsCandidates_iff (path : String) (markers : Finset String) :
    supportsCandidates markers (pathCapabilityCandidates path) = true ↔
      Admits path .other markers := by
  simp [supportsCandidates, hasCapability_iff, Admits, endpointMarkers]

theorem routeSupports_iff {supported : Finset String → Bool} {path : String}
    {endpoint : EndpointKind} (h : ∀ m, supported m = true ↔ Admits path endpoint m)
    (expose : Option (Finset String)) :
    routeSupports supported expose = true ↔ RouteAdmits path endpoint expose := by
  cases expose <;> simp [routeSupports, RouteAdmits, h]

theorem routeSupportsCompatMarker_iff (supports : Finset String)
    (expose : Option (Finset String)) (marker : String) :
    routeSupportsCompatMarker supports expose marker = true ↔
      marker ∈ compatMarkers supports expose := by
  cases expose with
  | none => simp [routeSupportsCompatMarker, compatMarkers]
  | some markers =>
    by_cases h : markers = ∅ <;> simp [routeSupportsCompatMarker, compatMarkers, h]

theorem find?_row (path : String) (supports : Finset String) (expose : Option (Finset String))
    (row : MatrixRow) (rows : List MatrixRow) :
    ((row :: rows).find? (MatrixRow.Open path supports expose ·)).map MatrixRow.mode =
      if row.Open path supports expose then some row.mode
      else (rows.find? (MatrixRow.Open path supports expose ·)).map MatrixRow.mode := by
  rw [List.find?_cons]
  by_cases h : row.Open path supports expose <;> simp [h]

theorem requestModeForPath_endpoint (path : String) (supports : Finset String)
    (expose : Option (Finset String)) :
    requestModeForPath path (pathCapabilityCandidates path) supports expose =
      match routedEndpoint path with
      | .responses => requestModeForResponses supports expose
      | .chatCompletions => requestModeForChatCompletions supports expose
      | .messages => requestModeForMessages supports expose
      | .other => if Admits path .other supports ∧ RouteAdmits path .other expose then some .native
          else none := by
  unfold requestModeForPath routedEndpoint
  generalize trimEndSlashes path = trimmed
  split
  · rfl
  · rfl
  · rfl
  · rfl
  · rename_i h₁ h₂ h₃ h₄
    dsimp only
    rw [if_neg h₁, if_neg (not_or.mpr ⟨h₂, h₃⟩), if_neg h₄]
    simp only [← supportsCandidates_iff]
    cases expose with
    | none =>
      by_cases hs : supportsCandidates supports (pathCapabilityCandidates path) = true <;>
      simp [RouteAdmits, hs]
    | some markers =>
      simp only [RouteAdmits, Option.mem_def, Option.some.injEq, forall_eq',
        ← supportsCandidates_iff]
      by_cases hs : supportsCandidates supports (pathCapabilityCandidates path) = true <;>
      by_cases he : markers = ∅ <;>
      by_cases hm : supportsCandidates markers (pathCapabilityCandidates path) = true <;>
      simp [hs, he, hm]

/-- **The mode of a request is that of the matrix.** -/
theorem requestModeForPath_eq (path : String) (supports : Finset String)
    (expose : Option (Finset String)) :
    requestModeForPath path (pathCapabilityCandidates path) supports expose =
      matrixMode path supports expose := by
  rw [requestModeForPath_endpoint]
  simp only [matrixMode, endpointMatrix, find?_row]
  cases h : routedEndpoint path
  all_goals
    simp only [MatrixRow.Open, h, reduceCtorEq, false_and, if_false, true_and,
      requestModeForResponses, requestModeForChatCompletions, requestModeForMessages,
      Bool.and_eq_true, supportsResponses_iff path, supportsChatCompat_iff path,
      supportsMessages_iff path, routeSupportsResponses, routeSupportsChatCompat,
      routeSupportsMessages, routeSupports_iff (supportsResponses_iff path),
      routeSupports_iff (supportsChatCompat_iff path),
      routeSupports_iff (supportsMessages_iff path),
      routeSupportsCompatMarker_iff]
    rfl

/-! ### The candidates a request should have -/

/-- The candidate a backend is for a request, if it can serve it. -/
def offer (request : BackendSelectionRequest) (backend : ResolvedBackend)
    (route : Option ResolvedRoute) (binding : Option RouteBackendBinding) :
    Option SelectedRoute :=
  if (request.stream = true → hasCapability backend.supports "streaming" = true) ∧
      (request.tools = true →
        supportsTools backend.supports (route.map ResolvedRoute.expose) = true) then
    (matrixMode request.path backend.supports (route.map ResolvedRoute.expose)).map
      (buildCandidate backend route binding request.model)
  else none

/-- The backend of a binding. -/
def boundBackend (backends : List ResolvedBackend) (binding : RouteBackendBinding) :
    Option ResolvedBackend :=
  backends.find? fun b => b.id == binding.backendId

/-- The route lets the backend serve it, if there is a route. -/
def onRoute (route : Option ResolvedRoute) (backend : ResolvedBackend) : Bool :=
  match route with
  | none => true
  | some route => route.backends.any fun b => b.backendId == backend.id

/-- **The candidates a request should have**: for a model, the bindings of its public route in their
order; without a model, the backends in their order, those of the path's route if there is one. -/
def eligibleCandidates (backends : List ResolvedBackend) (routes : List ResolvedRoute)
    (request : BackendSelectionRequest) : List SelectedRoute :=
  match request.model with
  | some model =>
    match publicRoute routes model with
    | none => []
    | some route => route.backends.filterMap fun binding =>
        (boundBackend backends binding).bind fun backend =>
          offer request backend (some route) (some binding)
  | none =>
    (backends.filter (onRoute (pathRoute routes request.path))).filterMap fun backend =>
      offer request backend (pathRoute routes request.path) none

theorem isEligible_fst (request : BackendSelectionRequest) (backend : ResolvedBackend)
    (route : Option ResolvedRoute) (flag : Bool) :
    (isEligible request backend route flag).1 =
      if (request.stream = true → hasCapability backend.supports "streaming" = true) ∧
          (request.tools = true →
            supportsTools backend.supports (route.map ResolvedRoute.expose) = true) then
        matrixMode request.path backend.supports (route.map ResolvedRoute.expose)
      else none := by
  unfold isEligible
  rw [requestModeForPath_eq]
  cases matrixMode request.path backend.supports (route.map ResolvedRoute.expose) <;>
  cases request.stream <;> cases hasCapability backend.supports "streaming" <;>
  cases request.tools <;>
  cases supportsTools backend.supports (route.map ResolvedRoute.expose) <;> rfl

/-- What the code makes of a backend is what the matrix offers. -/
theorem offer_eq (request : BackendSelectionRequest) (backend : ResolvedBackend)
    (route : Option ResolvedRoute) (binding : Option RouteBackendBinding) (flag : Bool) :
    offer request backend route binding =
      (isEligible request backend route flag).1.map
        (buildCandidate backend route binding request.model) := by
  rw [offer, isEligible_fst]
  split_ifs <;> rfl

theorem foldl_offers {α β γ : Type} {step : List β × γ → α → List β × γ} {f : α → Option β}
    (h : ∀ st a, (step st a).1 = st.1 ++ (f a).toList) (l : List α) (st : List β × γ) :
    (l.foldl step st).1 = st.1 ++ l.filterMap f := by
  induction l generalizing st with
  | nil => simp
  | cons a l ih =>
    rw [List.foldl_cons, ih, h, List.append_assoc, List.filterMap_cons]
    cases f a <;> rfl

theorem modelStep_fst (backends : List ResolvedBackend) (request : BackendSelectionRequest)
    (route : ResolvedRoute) {model : String} (hmodel : request.model = some model)
    (st : CandidateState) (binding : RouteBackendBinding) :
    (modelStep backends request route model st binding).1 =
      st.1 ++ ((boundBackend backends binding).bind fun backend =>
        offer request backend (some route) (some binding)).toList := by
  unfold modelStep boundBackend
  cases backends.find? fun b => b.id == binding.backendId with
  | none => simp
  | some backend =>
    rw [Option.bind_some, offer_eq request backend _ _ st.2, hmodel]
    dsimp only
    rcases isEligible request backend (some route) st.2 with ⟨_ | mode, flag⟩ <;> simp

theorem pathStep_fst (request : BackendSelectionRequest) (route : Option ResolvedRoute)
    (hmodel : request.model = none) (st : CandidateState) (backend : ResolvedBackend) :
    (pathStep request route st backend).1 =
      st.1 ++
        (if onRoute route backend then offer request backend route none else none).toList := by
  have hroute : (route.map fun r => !r.backends.any fun b => b.backendId == backend.id).getD false =
      !onRoute route backend := by
    cases route <;> rfl
  unfold pathStep
  rw [hroute]
  cases onRoute route backend with
  | false => simp
  | true =>
    rw [if_pos rfl, offer_eq request backend _ _ st.2, hmodel]
    rcases isEligible request backend route st.2 with ⟨_ | mode, flag⟩ <;> simp

/-- **The loops list the candidates a request should have.** -/
theorem listCandidates_spec (backends : List ResolvedBackend) (routes : List ResolvedRoute)
    (request : BackendSelectionRequest) :
    (∃ flag, listCandidates backends routes request =
        .ok (eligibleCandidates backends routes request, flag)) ∨
      ∃ model, request.model = some model ∧ publicRoute routes model = none ∧
        listCandidates backends routes request = .error (.modelNotFound model) ∧
        eligibleCandidates backends routes request = [] := by
  rw [listCandidates, eligibleCandidates]
  cases hmodel : request.model with
  | none =>
    have h := foldl_offers (pathStep_fst request (pathRoute routes request.path) hmodel) backends
      ([], false)
    refine Or.inl ⟨(backends.foldl (pathStep request (pathRoute routes request.path))
      ([], false)).2, congrArg Except.ok (Prod.ext ?_ rfl)⟩
    rw [h, List.nil_append]
    exact List.filterMap_filter.symm
  | some model =>
    cases hroute : publicRoute routes model with
    | none => exact Or.inr ⟨model, rfl, hroute, by simp only [hroute], by simp only [hroute]⟩
    | some route =>
      have h := foldl_offers (modelStep_fst backends request route hmodel) route.backends
        ([], false)
      refine Or.inl ⟨(route.backends.foldl (modelStep backends request route model)
        ([], false)).2, ?_⟩
      simp only [hroute]
      refine congrArg Except.ok (Prod.ext ?_ rfl)
      rw [h, List.nil_append]

/-! ### Every strategy rotates -/

/-- Some positive weight makes the range of random values non-empty. -/
theorem weightedRotate_spec {candidates : List SelectedRoute}
    (h : ∀ c ∈ candidates, c.weight ≠ 0) (random : ℕ) :
    ∃ l, weightedRotate random candidates = some l ∧ candidates ~r l := by
  unfold weightedRotate
  dsimp only
  split_ifs with hlen htotal
  · exact ⟨_, rfl, List.IsRotated.refl _⟩
  · -- two candidates at least, and the weight of any of them is positive
    obtain ⟨c, hc⟩ := List.exists_mem_of_length_pos (l := candidates) (by omega)
    have hzero : c.weight.toNat = 0 :=
      List.sum_eq_zero_iff_forall_eq_nat.mp htotal _ (List.mem_map_of_mem hc)
    exact absurd (UInt32.toNat_inj.mp hzero) (h c hc)
  · refine ⟨_, rfl, ?_⟩
    split
    · exact ⟨_, rfl⟩
    · exact List.IsRotated.refl _

/-- **Every strategy rotates the candidates.** -/
theorem orderCandidates_spec (strategy : RoutingStrategy) (request : BackendSelectionRequest)
    (random : ℕ) (counters : RoundRobinCounters) {candidates : List SelectedRoute}
    (h : ∀ c ∈ candidates, c.weight ≠ 0) :
    ∃ l counters', orderCandidates strategy request random counters candidates =
      some (l, counters') ∧ candidates ~r l := by
  cases strategy with
  | priority => exact ⟨_, _, rfl, List.IsRotated.refl _⟩
  | sticky => exact ⟨_, _, rfl, ⟨_, rfl⟩⟩
  | roundRobin => exact ⟨_, _, rfl, ⟨_, rfl⟩⟩
  | weightedRandom =>
    obtain ⟨l, hl, hrot⟩ := weightedRotate_spec h random
    exact ⟨l, counters, by rw [orderCandidates, hl]; rfl, hrot⟩

/-! ### Selection -/

/-- A candidate is a backend of the configuration, on a route of it or on none. -/
theorem exists_of_mem_eligibleCandidates {backends : List ResolvedBackend}
    {routes : List ResolvedRoute} {request : BackendSelectionRequest} {c : SelectedRoute}
    (h : c ∈ eligibleCandidates backends routes request) :
    ∃ backend ∈ backends, ∃ route binding mode, (∀ r ∈ route, r ∈ routes) ∧
      c = buildCandidate backend route binding request.model mode := by
  have hoffer : ∀ {backend route binding}, offer request backend route binding = some c →
      ∃ mode, c = buildCandidate backend route binding request.model mode := by
    intro backend route binding hc
    rw [offer] at hc
    split_ifs at hc
    obtain ⟨mode, -, rfl⟩ := Option.map_eq_some_iff.mp hc
    exact ⟨mode, rfl⟩
  unfold eligibleCandidates at h
  cases hmodel : request.model with
  | none =>
    rw [hmodel] at h
    obtain ⟨backend, hb, hc⟩ := List.mem_filterMap.mp h
    obtain ⟨mode, rfl⟩ := hoffer hc
    refine ⟨backend, (List.mem_filter.mp hb).1, _, none, mode, ?_, by rw [hmodel]⟩
    intro r hr
    exact List.mem_of_find?_eq_some hr
  | some model =>
    rw [hmodel] at h
    dsimp only at h
    cases hroute : publicRoute routes model with
    | none => simp [hroute] at h
    | some route =>
      rw [hroute] at h
      obtain ⟨binding, -, hc⟩ := List.mem_filterMap.mp h
      obtain ⟨backend, hb, hc⟩ := Option.bind_eq_some_iff.mp hc
      obtain ⟨mode, rfl⟩ := hoffer hc
      refine ⟨backend, List.mem_of_find?_eq_some hb, some route, some binding, mode, ?_,
        by rw [hmodel]⟩
      rintro r ⟨⟩
      exact List.mem_of_find?_eq_some hroute

/-- **What selection gives**: no panic, an error without candidates, else a rotation of them. -/
theorem selectBackendCandidates_spec {backends : List ResolvedBackend}
    (routes : List ResolvedRoute) (strategy : RoutingStrategy) (request : BackendSelectionRequest)
    (random : ℕ) (counters : RoundRobinCounters) (hweight : ∀ b ∈ backends, b.weight ≠ 0) :
    (∃ selected counters',
      selectBackendCandidates backends routes strategy request random counters =
        some (.ok selected, counters') ∧
      eligibleCandidates backends routes request ≠ [] ∧
      eligibleCandidates backends routes request ~r selected) ∨
    ∃ error,
      selectBackendCandidates backends routes strategy request random counters =
        some (.error error, counters) ∧
      eligibleCandidates backends routes request = [] ∧
      ((∃ model, request.model = some model ∧ publicRoute routes model = none ∧
          error = .modelNotFound model) ∨
        ∃ flag, error = noCandidateError request flag) := by
  unfold selectBackendCandidates
  rcases listCandidates_spec backends routes request with
    ⟨flag, hlist⟩ | ⟨model, hmodel, hroute, hlist, hnil⟩
  · rw [hlist]
    by_cases hnil : eligibleCandidates backends routes request = []
    · exact Or.inr ⟨_, by simp [hnil], hnil, Or.inr ⟨flag, rfl⟩⟩
    · have hpos : ∀ c ∈ eligibleCandidates backends routes request, c.weight ≠ 0 := by
        intro c hc
        obtain ⟨backend, hb, route, binding, mode, -, rfl⟩ := exists_of_mem_eligibleCandidates hc
        exact hweight backend hb
      obtain ⟨l, counters', horder, hrot⟩ :=
        orderCandidates_spec strategy request random counters hpos
      have hne : l ≠ [] := by
        rintro rfl
        exact hnil (List.isRotated_nil_iff.mp hrot)
      exact Or.inl ⟨l, counters', by simp [hnil, horder, hne], hnil, hrot⟩
  · exact Or.inr ⟨_, by rw [hlist], hnil, Or.inl ⟨model, hmodel, hroute, rfl⟩⟩

/-- The mode in which an endpoint is served as it is. -/
def nativeMode : EndpointKind → RequestMode
  | .messages => .anthropicMessagesNative
  | _ => .native

/-- The mode follows the matrix: native exactly where backend and route admit the endpoint of the
path, else a row with a compatibility marker that is there, and none only if no row is open. -/
structure FollowsMatrix (path : String) (supports : Finset String)
    (expose : Option (Finset String)) (mode : Option RequestMode) : Prop where
  native : mode = some (nativeMode (routedEndpoint path)) ↔
    Admits path (routedEndpoint path) supports ∧ RouteAdmits path (routedEndpoint path) expose
  compat : ∀ m, mode = some m → m ≠ nativeMode (routedEndpoint path) →
    ∃ row ∈ endpointMatrix, row.client = routedEndpoint path ∧ row.mode = m ∧
      Admits path row.upstream supports ∧
      ∃ marker, row.marker = some marker ∧ marker ∈ compatMarkers supports expose
  none : mode = none ↔ ∀ row ∈ endpointMatrix, ¬ row.Open path supports expose

theorem endpointMatrix_native : ∀ row ∈ endpointMatrix,
    (row.marker = none → row.mode = nativeMode row.client ∧ row.upstream = row.client) ∧
    (row.marker ≠ none → row.mode ≠ nativeMode row.client) := by
  decide

theorem exists_row {path : String} {supports : Finset String} {expose : Option (Finset String)}
    {m : RequestMode} (h : matrixMode path supports expose = some m) :
    ∃ row ∈ endpointMatrix, row.Open path supports expose ∧ row.mode = m := by
  obtain ⟨row, hrow, rfl⟩ := Option.map_eq_some_iff.mp h
  exact ⟨row, List.mem_of_find?_eq_some hrow, by simpa using List.find?_some hrow, rfl⟩

theorem followsMatrix_matrixMode (path : String) (supports : Finset String)
    (expose : Option (Finset String)) :
    FollowsMatrix path supports expose (matrixMode path supports expose) where
  native := by
    constructor
    · intro h
      obtain ⟨row, hmem, ⟨hclient, hadmits, hroute⟩, hmode⟩ := exists_row h
      rw [← hclient] at hmode ⊢
      cases hmarker : row.marker with
      | none =>
        obtain ⟨-, hupstream⟩ := (endpointMatrix_native row hmem).1 hmarker
        rw [hmarker] at hroute
        rw [hupstream] at hadmits
        exact ⟨hadmits, hroute⟩
      | some marker =>
        have hne := (endpointMatrix_native row hmem).2 (by simp [hmarker])
        exact absurd hmode hne
    · rintro ⟨hadmits, hroute⟩
      simp only [matrixMode, endpointMatrix, find?_row]
      cases h : routedEndpoint path <;> rw [h] at hadmits hroute <;>
        simp [MatrixRow.Open, h, hadmits, hroute, nativeMode]
  compat := by
    intro m hm hne
    obtain ⟨row, hmem, ⟨hclient, hadmits, hroute⟩, rfl⟩ := exists_row hm
    refine ⟨row, hmem, hclient, rfl, hadmits, ?_⟩
    cases hmarker : row.marker with
    | none =>
      obtain ⟨hmode, -⟩ := (endpointMatrix_native row hmem).1 hmarker
      rw [hclient] at hmode
      exact absurd hmode hne
    | some marker =>
      rw [hmarker] at hroute
      exact ⟨marker, rfl, hroute⟩
  none := by
    rw [matrixMode, Option.map_eq_none_iff, List.find?_eq_none]
    simp

/-- **Selection is sound and complete**: it succeeds exactly if there is an eligible candidate, and
then gives a rotation of the eligible candidates; their modes follow the matrix. -/
theorem selection_iff {backends : List ResolvedBackend} (routes : List ResolvedRoute)
    (strategy : RoutingStrategy) (request : BackendSelectionRequest) (random : ℕ)
    (counters : RoundRobinCounters) (hweight : ∀ b ∈ backends, b.weight ≠ 0) :
    (∃ result counters',
      selectBackendCandidates backends routes strategy request random counters =
        some (result, counters') ∧
      ((∃ selected, result = .ok selected) ↔
        eligibleCandidates backends routes request ≠ []) ∧
      ∀ selected, result = .ok selected →
        eligibleCandidates backends routes request ~r selected) ∧
    ∀ supports expose, FollowsMatrix request.path supports expose
      (requestModeForPath request.path (pathCapabilityCandidates request.path) supports
        expose) := by
  refine ⟨?_, ?_⟩
  · rcases selectBackendCandidates_spec routes strategy request random counters hweight with
      ⟨selected, counters', h, hne, hrot⟩ | ⟨error, h, hnil, -⟩
    · refine ⟨.ok selected, counters', h, ⟨fun _ => hne, fun _ => ⟨selected, rfl⟩⟩, ?_⟩
      rintro _ ⟨⟩
      exact hrot
    · refine ⟨.error error, counters, h, ⟨?_, fun hne => absurd hnil hne⟩, ?_⟩
      · rintro ⟨selected, ⟨⟩⟩
      · rintro selected ⟨⟩
  · intro supports expose
    rw [requestModeForPath_eq]
    exact followsMatrix_matrixMode request.path supports expose

/-- Backends for chat completions that a route exposes for responses too. -/
def sampleBackends : List ResolvedBackend :=
  [{ id := "llama", supports := {"chat", "streaming"}, weight := 3 },
    { id := "vllm", supports := {"chat", "streaming"}, weight := 1 }]

/-- The routes of a model to both backends, and of another one to the second. -/
def sampleRoutes : List ResolvedRoute :=
  [{ key := .publicModel "whisper", expose := {"chat"}, backends := [⟨"vllm", "whisper-1"⟩] },
    { key := .publicModel "gpt"
      expose := {"chat", responsesViaChatCompletionsMarker}
      backends := [⟨"llama", "llama-3"⟩, ⟨"vllm", "llama-3"⟩] }]

/-- A request for responses that both backends can serve. -/
def sampleSelection : BackendSelectionRequest := ⟨"/v1/responses", some "gpt", true, false, none⟩

/-- The second of two backends is drawn, and the first one is tried after it. -/
theorem selection_iff_sample :
    (∀ b ∈ sampleBackends, b.weight ≠ 0) ∧
      (eligibleCandidates sampleBackends sampleRoutes sampleSelection).map SelectedRoute.backendId =
        ["llama", "vllm"] ∧
      ∃ selected counters', selectBackendCandidates sampleBackends sampleRoutes .weightedRandom
          sampleSelection 7 (fun _ => 0) = some (.ok selected, counters') ∧
        eligibleCandidates sampleBackends sampleRoutes sampleSelection ~r selected ∧
        selected.map SelectedRoute.backendId = ["vllm", "llama"] := by
  obtain ⟨hweight, heligible, horder⟩ : (∀ b ∈ sampleBackends, b.weight ≠ 0) ∧
      (eligibleCandidates sampleBackends sampleRoutes sampleSelection).map SelectedRoute.backendId =
        ["llama", "vllm"] ∧
      (selectBackendCandidates sampleBackends sampleRoutes .weightedRandom sampleSelection 7
        fun _ => 0).bind (fun result => result.1.toOption.map fun selected =>
          selected.map SelectedRoute.backendId) = some ["vllm", "llama"] := by
    decide +kernel
  have hne : eligibleCandidates sampleBackends sampleRoutes sampleSelection ≠ [] := by
    intro h
    rw [h] at heligible
    cases heligible
  obtain ⟨⟨result, counters', h, hok, hrot⟩, -⟩ :=
    selection_iff sampleRoutes .weightedRandom sampleSelection 7 (fun _ => 0) hweight
  obtain ⟨selected, rfl⟩ := hok.mpr hne
  rw [h] at horder
  exact ⟨hweight, heligible, selected, counters', h, hrot selected rfl, Option.some.inj horder⟩

end Onair
