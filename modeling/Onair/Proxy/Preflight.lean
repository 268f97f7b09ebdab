import Onair.Core.Auth
import Onair.Lib.Json.Reference
import Onair.Proxy.Endpoints
import Onair.Request.Inspect

/-!
# The checks before a backend is selected

Before a backend is selected, a request is authenticated, looked into, and checked against the
models its client may use. `preflight` ends with an error, or with what selection is given. The
check that a model is named goes by the whole path, while selection goes by its segments, so that
another spelling of an endpoint is served by the same backends and escapes the check.

* `preflight_ok`: what a request that passes has been checked for;
* **`model_check_iff`**: the check cannot be escaped on a path exactly if the path is one of those
  that need a model, as they are written, or has other segments.
-/

namespace Onair

open Json Text

/-- What the proxy reads of a request. -/
structure ProxyRequest where
  headers : HeaderMap
  path : String
  query : Option String := none
  body : Bytes := []
  deriving DecidableEq, Repr

/-- What backend selection is told of a request. -/
structure BackendSelection where
  path : String
  model : Option String
  stream : Bool
  tools : Bool
  stickyKey : String
  deriving DecidableEq, Repr

/-- The key that ties requests to a backend. -/
def stickyRoutingKey (identity path : String) (model promptCacheKey : Option String) : String :=
  identity ++ "\x00" ++ path ++ "\x00" ++ model.getD "" ++ "\x00" ++ promptCacheKey.getD ""

section

variable (c : Codec) (f : Form)

/-- What the request asks for. -/
def ProxyRequest.shape (request : ProxyRequest) : RequestShape :=
  inspectRequest c f request.body (headerStr request.headers "content-type") request.query

/-- The checks `proxy_v1` makes before it selects a backend. -/
def preflight (clients : List ResolvedClient) (request : ProxyRequest) :
    Except ApiError BackendSelection :=
  if trimEndSlashes request.path = "/v1/messages/count_tokens" then
    .error (.notFound "The requested endpoint does not exist.")
  else match authenticate request.headers clients with
  | .error error => .error error
  | .ok identity =>
    let shape := request.shape c f
    if shape.model.isNone && pathRequiresModel request.path then
      .error (.badRequest "Missing required parameter: model." (some "model"))
    else match shape.model.filter fun model => model ∉ identity.models with
    | some model => .error (.modelNotFound model)
    | none =>
      .ok { path := request.path
            model := shape.model
            stream := shape.stream
            tools := shape.hasTools
            stickyKey :=
              stickyRoutingKey identity.id request.path shape.model shape.promptCacheKey }

end

variable {c : Codec} {f : Form} {clients : List ResolvedClient} {request : ProxyRequest}

/-- A request that passes names a model its client may use, or goes to a path that needs none. -/
theorem preflight_ok {selection : BackendSelection}
    (h : preflight c f clients request = .ok selection) :
    ∃ identity, authenticate request.headers clients = .ok identity ∧
      selection.path = request.path ∧ selection.model = (request.shape c f).model ∧
      (selection.model = none → pathRequiresModel request.path = false) ∧
      ∀ model, selection.model = some model → model ∈ identity.models := by
  unfold preflight at h
  split_ifs at h with hcount
  cases hauth : authenticate request.headers clients with
  | error error =>
    rw [hauth] at h
    cases h
  | ok identity =>
    rw [hauth] at h
    simp only at h
    split_ifs at h with hmissing
    split at h
    · cases h
    · rename_i hallowed
      cases h
      have hneeds : (request.shape c f).model = none → pathRequiresModel request.path = false := by
        simpa using hmissing
      have hmodels : ∀ model, (request.shape c f).model = some model → model ∈ identity.models := by
        simpa using hallowed
      exact ⟨identity, rfl, rfl, rfl, hneeds, hmodels⟩

/-- The check for a model cannot be escaped on a path: no path with the same capabilities is
checked unless this one is, and where one is, a request that names no model is refused. -/
def ModelChecked (c : Codec) (f : Form) (path : String) : Prop :=
  (∀ other, pathCapabilityCandidates path = pathCapabilityCandidates other →
    pathRequiresModel other = true → pathRequiresModel path = true) ∧
  ((∃ other, pathCapabilityCandidates path = pathCapabilityCandidates other ∧
      pathRequiresModel other = true) →
    ∀ (clients : List ResolvedClient) (request : ProxyRequest), request.path = path →
      (request.shape c f).model = none →
      ∃ error, preflight c f clients request = .error error)

/-- **Where the check for a model cannot be escaped.** -/
theorem model_check_iff (c : Codec) (f : Form) (path : String) :
    ModelChecked c f path ↔
      pathRequiresModel path = true ∨ (pathSegments path).take 3 ∉ modelSegments := by
  constructor
  · rintro ⟨hsame, -⟩
    by_cases hmem : (pathSegments path).take 3 ∈ modelSegments
    · obtain ⟨other, hcand, hother⟩ := (candidates_requiring_iff path).mpr hmem
      exact Or.inl (hsame other hcand hother)
    · exact Or.inr hmem
  · intro h
    have hsame : ∀ other, pathCapabilityCandidates path = pathCapabilityCandidates other →
        pathRequiresModel other = true → pathRequiresModel path = true := by
      intro other hcand hother
      refine h.resolve_right fun hmem => hmem ?_
      exact (candidates_requiring_iff path).mp ⟨other, hcand, hother⟩
    refine ⟨hsame, ?_⟩
    rintro ⟨other, hcand, hother⟩ clients request rfl hnone
    cases hpre : preflight c f clients request with
    | error error => exact ⟨error, rfl⟩
    | ok selection =>
      -- a selection without a model would say that the path needs none
      obtain ⟨identity, -, -, hmodel, hneeds, -⟩ := preflight_ok hpre
      have := hneeds (hmodel.trans hnone)
      rw [hsame other hcand hother] at this
      cases this

/-- A client whose whitelist is empty. -/
def guest : ResolvedClient := { id := "guest", apiKey := "key", models := ∅ }

/-- A request of the guest to the endpoint of chat completions, written in capitals, that names no
model. -/
def guestRequest : ProxyRequest where
  headers := [("authorization", asBytes "Bearer key")]
  path := "/v1/Chat/Completions"
  body := asBytes "\x7b\"messages\":[]\x7d"

/-- The endpoint in capitals has the capabilities of the endpoint, and a request without a model is
let through. -/
theorem model_check_escaped :
    pathCapabilityCandidates guestRequest.path = pathCapabilityCandidates "/v1/chat/completions" ∧
      pathRequiresModel "/v1/chat/completions" = true ∧
      pathRequiresModel guestRequest.path = false ∧
      (guestRequest.shape reference Form.reference).model = none ∧
      preflight reference Form.reference [guest] guestRequest =
        .ok { path := "/v1/Chat/Completions", model := none, stream := false, tools := false,
              stickyKey := stickyRoutingKey "guest" "/v1/Chat/Completions" none none } := by
  refine ⟨by decide +kernel, by decide +kernel, by decide +kernel, by decide +kernel, ?_⟩
  decide +kernel

end Onair
