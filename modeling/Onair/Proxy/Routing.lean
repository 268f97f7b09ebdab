import Mathlib.Algebra.GroupWithZero.Nat
import Onair.Core.Config
import Onair.Proxy.Endpoints

/-!
# Selecting a backend

`selectBackendCandidates` lists the backends that can serve a request and orders them by the
strategy of the configuration. Where the source would panic, the result is `none`.

* `requestModeForPath`: how a backend can serve a path, from the markers of backend and route;
* `isEligible`, `modelStep`, `pathStep`, `listCandidates`: the loops over bindings and over
  backends;
* `weightedRotate`, `stickyIndex`, `nextIndex`: the strategies;
* `selectBackendCandidates`: the candidates, in order.
-/

namespace Onair

open Text

/-! ### Markers -/

/-- Chat completions by way of responses. -/
def chatCompletionsViaResponsesMarker : String := "chat_completions_via_responses"

/-- Chat completions by way of messages. -/
def chatCompletionsViaMessagesMarker : String := "chat_completions_via_messages"

/-- The set has the capability, or all of them. -/
def hasCapability (capabilities : Finset String) (capability : String) : Bool :=
  capability ∈ capabilities || "all" ∈ capabilities

/-- The set has one of the candidates. -/
def supportsCandidates (capabilities candidates : Finset String) : Bool :=
  decide (∃ candidate ∈ candidates, hasCapability capabilities candidate = true)

/-- The messages endpoint. -/
def supportsMessages (supports : Finset String) : Bool := hasCapability supports "messages"

/-- The responses endpoint. -/
def supportsResponses (supports : Finset String) : Bool :=
  hasCapability supports "responses" || hasCapability supports "response"

/-- The chat completions endpoint. -/
def supportsChatCompat (supports : Finset String) : Bool :=
  hasCapability supports "chat" || hasCapability supports "chat_completions" ||
    hasCapability supports "completions"

/-- Tools. -/
def hasToolCapability (supports : Finset String) : Bool :=
  hasCapability supports "tools" || hasCapability supports "tool_calls" ||
    hasCapability supports "function_calling" || hasCapability supports "functions"

/-- What a route exposes restricts it only if it exposes anything. -/
def routeSupports (supported : Finset String → Bool)
    (routeExpose : Option (Finset String)) : Bool :=
  match routeExpose with
  | none => true
  | some expose => expose == ∅ || supported expose

/-- The route is open for messages. -/
def routeSupportsMessages : Option (Finset String) → Bool := routeSupports supportsMessages

/-- The route is open for responses. -/
def routeSupportsResponses : Option (Finset String) → Bool := routeSupports supportsResponses

/-- The route is open for chat completions. -/
def routeSupportsChatCompat : Option (Finset String) → Bool := routeSupports supportsChatCompat

/-- The route is open for tools. -/
def routeSupportsTools : Option (Finset String) → Bool := routeSupports hasToolCapability

/-- The route, or the backend if the route exposes nothing, has exactly this marker. -/
def routeSupportsCompatMarker (backendSupports : Finset String)
    (routeExpose : Option (Finset String)) (marker : String) : Bool :=
  match routeExpose with
  | some expose => if expose = ∅ then marker ∈ backendSupports else marker ∈ expose
  | none => marker ∈ backendSupports

/-- Backend and route are open for tools. -/
def supportsTools (backendSupports : Finset String) (routeExpose : Option (Finset String)) : Bool :=
  hasToolCapability backendSupports && routeSupportsTools routeExpose

/-! ### Modes -/

/-- How a request for responses can be served. -/
def requestModeForResponses (backendSupports : Finset String)
    (routeExpose : Option (Finset String)) : Option RequestMode :=
  if supportsResponses backendSupports && routeSupportsResponses routeExpose then some .native
  else if supportsChatCompat backendSupports &&
      routeSupportsCompatMarker backendSupports routeExpose responsesViaChatCompletionsMarker then
    some .responsesViaChatCompletions
  else none

/-- How a request for chat completions can be served. -/
def requestModeForChatCompletions (backendSupports : Finset String)
    (routeExpose : Option (Finset String)) : Option RequestMode :=
  if supportsChatCompat backendSupports && routeSupportsChatCompat routeExpose then some .native
  else if supportsResponses backendSupports &&
      routeSupportsCompatMarker backendSupports routeExpose chatCompletionsViaResponsesMarker then
    some .chatCompletionsViaResponses
  else if supportsMessages backendSupports &&
      routeSupportsCompatMarker backendSupports routeExpose chatCompletionsViaMessagesMarker then
    some .chatCompletionsViaMessages
  else none

/-- How a request for messages can be served. -/
def requestModeForMessages (backendSupports : Finset String)
    (routeExpose : Option (Finset String)) : Option RequestMode :=
  if supportsMessages backendSupports && routeSupportsMessages routeExpose then
    some .anthropicMessagesNative
  else none

/-- How a request to the path can be served. -/
def requestModeForPath (path : String) (pathCandidates backendSupports : Finset String)
    (routeExpose : Option (Finset String)) : Option RequestMode :=
  match trimEndSlashes path with
  | "/v1/responses" => requestModeForResponses backendSupports routeExpose
  | "/v1/chat/completions" => requestModeForChatCompletions backendSupports routeExpose
  | "/v1/chat/completion" => requestModeForChatCompletions backendSupports routeExpose
  | "/v1/messages" => requestModeForMessages backendSupports routeExpose
  | _ =>
    if !supportsCandidates backendSupports pathCandidates then none
    else match routeExpose with
      | some expose =>
        if expose ≠ ∅ ∧ supportsCandidates expose pathCandidates = false then none else some .native
      | none => some .native

/-! ### Candidates -/

/-- What backend selection is asked. -/
structure BackendSelectionRequest where
  path : String
  model : Option String
  stream : Bool
  tools : Bool
  stickyKey : Option String
  deriving DecidableEq, Repr

/-- A backend that was selected, and how the request is forwarded to it. -/
structure SelectedRoute where
  backendId : String
  baseUrl : String
  apiKey : Option String
  timeoutMs : ℕ
  publicModel : Option String
  backendModel : Option String
  requestMode : RequestMode
  policies : RoutePolicies
  weight : UInt32
  routeKeyLabel : String
  extraBody : List (String × Toml)
  requestHeaders : List (String × String)
  exposeBackendErrors : Bool
  streamCapture : Bool
  anthropicMaxTokens : Option ℕ

/-- Whether a backend can serve the request on a route. The flag tells that tools were all that a
backend lacked. -/
def isEligible (request : BackendSelectionRequest) (backend : ResolvedBackend)
    (route : Option ResolvedRoute) (toolIncompatible : Bool) : Option RequestMode × Bool :=
  if request.stream && !hasCapability backend.supports "streaming" then (none, toolIncompatible)
  else
    match requestModeForPath request.path (pathCapabilityCandidates request.path)
        backend.supports (route.map ResolvedRoute.expose) with
    | none => (none, toolIncompatible)
    | some mode =>
      if request.tools && !supportsTools backend.supports (route.map ResolvedRoute.expose) then
        (none, true)
      else (some mode, toolIncompatible)

/-- A backend as it is selected. -/
def buildCandidate (backend : ResolvedBackend) (route : Option ResolvedRoute)
    (binding : Option RouteBackendBinding) (model : Option String) (mode : RequestMode) :
    SelectedRoute where
  backendId := backend.id
  baseUrl := backend.baseUrl
  apiKey := backend.apiKey
  timeoutMs := backend.timeoutMs
  publicModel := model
  backendModel := binding.map RouteBackendBinding.backendModel
  requestMode := mode
  policies := match route with
    | some route => route.policies
    | none => backend.policies
  weight := backend.weight
  routeKeyLabel := match route with
    | some route => formatRouteKey route.key
    | none => "none"
  extraBody := (route.map ResolvedRoute.extraBody).getD []
  requestHeaders := (route.map ResolvedRoute.requestHeaders).getD []
  exposeBackendErrors := (route.map ResolvedRoute.exposeBackendErrors).getD false
  streamCapture := (route.map ResolvedRoute.streamCapture).getD false
  anthropicMaxTokens := route.bind ResolvedRoute.anthropicMaxTokens

/-- The candidates so far, and whether a backend lacked tools only. -/
abbrev CandidateState : Type := List SelectedRoute × Bool

/-- One turn of the loop over the bindings of a public route. -/
def modelStep (backends : List ResolvedBackend) (request : BackendSelectionRequest)
    (route : ResolvedRoute) (model : String) (st : CandidateState)
    (binding : RouteBackendBinding) : CandidateState :=
  match backends.find? fun b => b.id == binding.backendId with
  | none => st
  | some backend =>
    match isEligible request backend (some route) st.2 with
    | (none, toolIncompatible) => (st.1, toolIncompatible)
    | (some mode, toolIncompatible) =>
      (st.1 ++ [buildCandidate backend (some route) (some binding) (some model) mode],
        toolIncompatible)

/-- One turn of the loop over the backends, for a request without a model. -/
def pathStep (request : BackendSelectionRequest) (route : Option ResolvedRoute)
    (st : CandidateState) (backend : ResolvedBackend) : CandidateState :=
  if (route.map fun r => !r.backends.any fun b => b.backendId == backend.id).getD false then st
  else
    match isEligible request backend route st.2 with
    | (none, toolIncompatible) => (st.1, toolIncompatible)
    | (some mode, toolIncompatible) =>
      (st.1 ++ [buildCandidate backend route none none mode], toolIncompatible)

/-- The public route of a model. -/
def publicRoute (routes : List ResolvedRoute) (model : String) : Option ResolvedRoute :=
  routes.find? fun r => r.key == .publicModel model

/-- The route of a path. -/
def pathRoute (routes : List ResolvedRoute) (path : String) : Option ResolvedRoute :=
  routes.find? fun r => match r.key with
    | .path p => trimEndSlashes p == trimEndSlashes path
    | .publicModel _ => false

/-- The candidates of a request, before they are ordered. -/
def listCandidates (backends : List ResolvedBackend) (routes : List ResolvedRoute)
    (request : BackendSelectionRequest) : Except ApiError CandidateState :=
  match request.model with
  | some model =>
    match publicRoute routes model with
    | none => .error (.modelNotFound model)
    | some route => .ok (route.backends.foldl (modelStep backends request route model) ([], false))
  | none => .ok (backends.foldl (pathStep request (pathRoute routes request.path)) ([], false))

/-! ### Strategies -/

/-- The counters of the round-robin strategy, by key; a key that was not used yet counts 0. -/
abbrev RoundRobinCounters : Type := String → UInt64

/-- The index to start at, and the counters afterwards. -/
def nextIndex (counters : RoundRobinCounters) (key : String) (count : ℕ) :
    ℕ × RoundRobinCounters :=
  if count = 0 then (0, counters)
  else ((counters key).toNat % count, Function.update counters key (counters key + 1))

/-- The FNV-1a hash of some bytes. -/
def fnvHash (bytes : Bytes) : UInt64 :=
  bytes.foldl (fun state byte => (state ^^^ byte.toUInt64) * 0x00000100000001b3)
    0xcbf29ce484222325

/-- The index of a key. Hashing a text ends with the byte `0xff`. -/
def stickyIndex (key : String) (count : ℕ) : ℕ :=
  if count ≤ 1 then 0 else (fnvHash (asBytes key ++ [0xff])).toNat % count

/-- The first index at which the weights add up to more than `pick`. -/
def weightedIndex (pick : ℕ) : ℕ → List SelectedRoute → Option ℕ
  | _, [] => none
  | cumulative, candidate :: rest =>
    if pick < cumulative + candidate.weight.toNat then some 0
    else (weightedIndex pick (cumulative + candidate.weight.toNat) rest).map (· + 1)

/-- Rotate by a random index, drawn by weight from `random`. An empty range of weights is a
panic. -/
def weightedRotate (random : ℕ) (candidates : List SelectedRoute) : Option (List SelectedRoute) :=
  if candidates.length ≤ 1 then some candidates
  else
    let total := (candidates.map fun c => c.weight.toNat).sum
    if total = 0 then none
    else some (match weightedIndex (random % total) 0 candidates with
      | some i => candidates.rotate i
      | none => candidates)

/-- The candidates in the order of the strategy, and the counters afterwards. -/
def orderCandidates (strategy : RoutingStrategy) (request : BackendSelectionRequest) (random : ℕ)
    (counters : RoundRobinCounters) (candidates : List SelectedRoute) :
    Option (List SelectedRoute × RoundRobinCounters) :=
  match strategy with
  | .priority => some (candidates, counters)
  | .sticky =>
    let index := stickyIndex (request.stickyKey.getD request.path) candidates.length
    some (candidates.rotate index, counters)
  | .roundRobin =>
    let (index, counters) := nextIndex counters (request.model.getD request.path) candidates.length
    some (candidates.rotate index, counters)
  | .weightedRandom => (weightedRotate random candidates).map fun l => (l, counters)

/-- Why there is no candidate. -/
def noCandidateError (request : BackendSelectionRequest) (toolIncompatible : Bool) : ApiError :=
  if request.tools && toolIncompatible then
    .badRequest "The selected model does not support tool calling." (some "tools")
  else .endpointUnavailable request.path request.model

/-- **The backends to try for a request**, and the counters afterwards; `none` is a panic. The
random value is what the generator would draw from. -/
def selectBackendCandidates (backends : List ResolvedBackend) (routes : List ResolvedRoute)
    (strategy : RoutingStrategy) (request : BackendSelectionRequest) (random : ℕ)
    (counters : RoundRobinCounters) :
    Option (Except ApiError (List SelectedRoute) × RoundRobinCounters) :=
  match listCandidates backends routes request with
  | .error error => some (.error error, counters)
  | .ok (candidates, toolIncompatible) =>
    if candidates.isEmpty then some (.error (noCandidateError request toolIncompatible), counters)
    else
      match orderCandidates strategy request random counters candidates with
      | none => none
      | some (ordered, counters) =>
        if ordered.isEmpty then none else some (.ok ordered, counters)

end Onair
