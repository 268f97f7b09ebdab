import Onair.Proxy.Selection
import Onair.Request.Rewrite

/-!
# Where a request is sent

The path of a request is read three times: by routing, which knows the alias
`/v1/chat/completion` and ignores trailing slashes; by `upstreamPath`, which replaces the alias
only as it is written; and by `endpointKind`, which ignores trailing slashes and does not know the
alias.

* `upstreamPath`, `upstreamPathForMode`, `upstreamUrl`: the path and the URL of the upstream;
* `endpointKind_upstreamPath`: all readings agree, except on the alias with a trailing slash;
* **`upstream_agrees_iff`**: there, and only there, a converted body goes to another endpoint than
  its own, or a body is not rewritten as on the canonical path.
-/

namespace Onair

open Json Text

/-- The path without its alias. -/
def upstreamPath (path : String) : String :=
  match path with
  | "/v1/chat/completion" => "/v1/chat/completions"
  | path => path

/-- The endpoint a request is sent to in a mode. -/
def upstreamPathForMode (path : String) (mode : RequestMode) : String :=
  match mode, endpointKind path with
  | .responsesViaChatCompletions, .responses => "/v1/chat/completions"
  | .chatCompletionsViaResponses, .chatCompletions => "/v1/responses"
  | .chatCompletionsViaMessages, .chatCompletions => "/v1/messages"
  | _, _ => path

/-- The URL a request is sent to. -/
def upstreamUrl (baseUrl path : String) (query : Option String) : String :=
  baseUrl ++ path ++ (query.map ("?" ++ ·)).getD ""

/-- The endpoint whose format a body has that was converted for a mode. -/
def convertedEndpoint : RequestMode → Option String
  | .responsesViaChatCompletions => some "/v1/chat/completions"
  | .chatCompletionsViaResponses => some "/v1/responses"
  | .chatCompletionsViaMessages => some "/v1/messages"
  | .native | .anthropicMessagesNative => none

/-- The path of an endpoint, as the rewriters know it. -/
def canonicalPath : EndpointKind → Option String
  | .chatCompletions => some "/v1/chat/completions"
  | .responses => some "/v1/responses"
  | .messages | .other => none

/-! ### The readings of a path -/

/-- The path is the alias with slashes behind it. -/
def SlashedAlias (path : String) : Prop :=
  trimEndSlashes path = "/v1/chat/completion" ∧ path ≠ "/v1/chat/completion"

theorem upstreamPath_of_ne {path : String} (h : path ≠ "/v1/chat/completion") :
    upstreamPath path = path := by
  unfold upstreamPath
  split
  · exact absurd rfl h
  · rfl

theorem endpointKind_eq (path : String) : endpointKind path =
    if trimEndSlashes path = "/v1/responses" then .responses
    else if trimEndSlashes path = "/v1/chat/completions" then .chatCompletions
    else if trimEndSlashes path = "/v1/messages" then .messages
    else .other := by
  unfold endpointKind
  generalize trimEndSlashes path = trimmed
  split
  · rfl
  · rfl
  · rfl
  · rename_i h₁ h₂ h₃
    rw [if_neg h₁, if_neg h₂, if_neg h₃]

/-- **The rewriters take the upstream path for the endpoint that routing takes the path for**,
except for the alias with slashes behind it. -/
theorem endpointKind_upstreamPath {path : String} (h : ¬ SlashedAlias path) :
    endpointKind (upstreamPath path) = routedEndpoint path := by
  by_cases halias : path = "/v1/chat/completion"
  · subst halias
    decide +kernel
  · have htrim : trimEndSlashes path ≠ "/v1/chat/completion" := fun ht => h ⟨ht, halias⟩
    rw [upstreamPath_of_ne halias, endpointKind_eq, routedEndpoint]
    simp [htrim]

theorem endpointKind_slashedAlias {path : String} (h : SlashedAlias path) :
    upstreamPath path = path ∧ endpointKind path = .other ∧
      routedEndpoint path = .chatCompletions := by
  refine ⟨upstreamPath_of_ne h.2, ?_, ?_⟩
  · rw [endpointKind_eq, h.1]
    decide
  · rw [routedEndpoint, h.1]
    decide

/-- Rewriting a body in mode `native` depends on the path by its endpoint only. -/
theorem rewriteNativeRequestBody_congr {path path' : String}
    (h : endpointKind path = endpointKind path') (c : Codec) (f : Form) (body : Bytes)
    (contentType backendModel : Option String) (policies : RequestRewritePolicies)
    (extraBody : List (String × Toml)) :
    rewriteNativeRequestBody c f body contentType backendModel path policies extraBody =
      rewriteNativeRequestBody c f body contentType backendModel path' policies extraBody := by
  unfold rewriteNativeRequestBody
  rw [h]

/-! ### Agreement -/

/-- Body and upstream path agree on a path: a converted body goes to its own endpoint, and a body
that is forwarded as it is to chat completions or responses is rewritten as on the canonical
path. -/
structure UpstreamAgrees (c : Codec) (f : Form) (path : String) : Prop where
  converted : ∀ supports expose mode endpoint,
    requestModeForPath path (pathCapabilityCandidates path) supports expose = some mode →
      convertedEndpoint mode = some endpoint →
      upstreamPathForMode (upstreamPath path) mode = endpoint
  native : ∀ supports expose canonical,
    requestModeForPath path (pathCapabilityCandidates path) supports expose = some .native →
      canonicalPath (routedEndpoint path) = some canonical →
      ∀ body contentType backendModel policies extraBody,
        rewriteNativeRequestBody c f body contentType backendModel (upstreamPath path) policies
            extraBody =
          rewriteNativeRequestBody c f body contentType backendModel canonical policies extraBody

/-- The rows of the matrix convert for the endpoint of the client. -/
theorem endpointMatrix_converted : ∀ row ∈ endpointMatrix, ∀ path endpoint,
    endpointKind path = row.client → convertedEndpoint row.mode = some endpoint →
      upstreamPathForMode path row.mode = endpoint := by
  intro row hrow path endpoint hkind hend
  simp only [endpointMatrix, List.mem_cons, List.not_mem_nil, or_false] at hrow
  rcases hrow with rfl | rfl | rfl | rfl | rfl | rfl | rfl <;>
    simp_all [convertedEndpoint, upstreamPathForMode]

theorem endpointKind_canonicalPath : ∀ kind canonical, canonicalPath kind = some canonical →
    endpointKind canonical = kind := by
  intro kind canonical h
  cases kind <;> cases h <;> decide +kernel

/-- **Body and upstream path agree, except on the alias with slashes behind it.** -/
theorem upstream_agrees_iff (c : Codec) (f : Form) (path : String) :
    UpstreamAgrees c f path ↔
      (trimEndSlashes path = "/v1/chat/completion" → path = "/v1/chat/completion") := by
  constructor
  · intro h htrim
    by_contra hne
    obtain ⟨hup, hkind, hrouted⟩ := endpointKind_slashedAlias ⟨htrim, hne⟩
    -- a backend for responses that also converts chat completions
    have hmode : requestModeForPath path (pathCapabilityCandidates path)
        {"responses", chatCompletionsViaResponsesMarker} none =
        some .chatCompletionsViaResponses := by
      rw [requestModeForPath_endpoint, hrouted]
      change requestModeForChatCompletions _ _ = _
      decide
    have hsent := h.converted _ _ _ _ hmode rfl
    rw [hup] at hsent
    unfold upstreamPathForMode at hsent
    rw [hkind] at hsent
    change path = "/v1/responses" at hsent
    rw [hsent] at htrim
    revert htrim
    decide +kernel
  · intro h
    have hslashed : ¬ SlashedAlias path := fun hs => hs.2 (h hs.1)
    have hkind := endpointKind_upstreamPath hslashed
    refine ⟨?_, ?_⟩
    · intro supports expose mode endpoint hmode hend
      rw [requestModeForPath_eq] at hmode
      obtain ⟨row, hrow, ⟨hclient, -, -⟩, rfl⟩ := exists_row hmode
      exact endpointMatrix_converted row hrow _ _ (hkind.trans hclient.symm) hend
    · intro supports expose canonical hmode hcanonical body contentType backendModel policies extra
      exact rewriteNativeRequestBody_congr
        (hkind.trans (endpointKind_canonicalPath _ _ hcanonical).symm) ..

/-- Chat completions for a backend that only has responses: behind the alias with a slash, the
converted body is sent to the alias. -/
theorem upstream_disagrees_slashed_alias :
    requestModeForPath "/v1/chat/completion/" (pathCapabilityCandidates "/v1/chat/completion/")
        {"responses", chatCompletionsViaResponsesMarker} none =
      some .chatCompletionsViaResponses ∧
    upstreamPathForMode (upstreamPath "/v1/chat/completion/") .chatCompletionsViaResponses =
      "/v1/chat/completion/" ∧
    convertedEndpoint .chatCompletionsViaResponses = some "/v1/responses" := by
  refine ⟨by decide +kernel, by decide +kernel, rfl⟩

end Onair
