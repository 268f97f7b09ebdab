import Onair.Request.ToMessages

/-!
# The body of a request in every mode

* `rewriteRequestBodyForModeWithPolicies`: what is forwarded in place of the body of a client;
* `ForwardedBody`, `forwardedBody`: the JSON object that is forwarded, if it is one;
* **`rewriteRequestBody_eq`**: the body is the text of that object.
-/

namespace Onair

open Json Text Fallible

/-! ### The modes -/

/-- The arguments of `rewrite_request_body_for_mode_with_policies`. -/
structure RewriteArgs where
  body : Bytes
  contentType : Option String
  backendModel : Option String
  upstreamPath : String
  requestMode : RequestMode
  policies : RoutePolicies
  anthropicMaxTokens : Option ℕ
  extraBody : List (String × Toml)
  routeLabel : String

/-- The policies that are read when a request is forwarded as it came. -/
def RoutePolicies.native (policies : RoutePolicies) : RequestRewritePolicies where
  responsesStore := policies.responsesStore
  responsesMaxOutputTokens := policies.responsesMaxOutputTokens
  chatStreamUsage := policies.chatStreamUsage

/-- The check of the tool calls that comes first. -/
def validateToolHistory (c : Codec) (args : RewriteArgs) : Except RequestRewriteError Unit :=
  if decide (endpointKind args.upstreamPath = .responses) &&
      shouldParseJson args.contentType args.body then
    validateResponsesToolHistory c args.body
  else .ok ()

/-- **What is forwarded in place of the body of a client.** -/
def rewriteRequestBodyForModeWithPolicies (c : Codec) (f : Form) (args : RewriteArgs) :
    Except RequestRewriteError Bytes := do
  validateToolHistory c args
  match args.requestMode with
  | .anthropicMessagesNative =>
    rewriteAnthropicMessagesRequestBody c args.body args.contentType args.backendModel
      args.anthropicMaxTokens
  | .responsesViaChatCompletions =>
    rewriteResponsesRequestAsChat c args.body args.contentType args.backendModel
      args.policies.toolSchemaMode args.policies.chatStreamUsage args.extraBody
  | .chatCompletionsViaResponses =>
    rewriteChatRequestAsResponses c args.body args.contentType args.backendModel
      args.policies.responsesStore args.policies.responsesMaxOutputTokens args.extraBody
  | .chatCompletionsViaMessages =>
    rewriteChatRequestAsAnthropic c args.body args.contentType args.backendModel
      args.anthropicMaxTokens args.extraBody
  | .native =>
    rewriteNativeRequestBody c f args.body args.contentType args.backendModel args.upstreamPath
      args.policies.native args.extraBody

/-! ### What is forwarded -/

/-- A JSON object, or any bytes. -/
inductive ForwardedBody where
  | object (m : List (String × Value))
  | bytes (b : Bytes)

namespace ForwardedBody

/-- The bytes that are sent. -/
def text (c : Codec) : ForwardedBody → Bytes
  | .object m => c.toVec (.object m)
  | .bytes b => b

/-- The object that is sent. -/
def json (c : Codec) : ForwardedBody → Option (List (String × Value))
  | .object m => some m
  | .bytes b => (c.fromSlice b).bind Value.asObject

end ForwardedBody

/-- The object of a body that is read as JSON and has a model. -/
def nativeObject (c : Codec) (args : RewriteArgs) : Option (List (String × Value)) :=
  if shouldParseJson args.contentType args.body then
    ((c.fromSlice args.body).bind Value.asObject).filter fun object =>
      (OrdMap.get "model" object).isSome
  else none

/-- What is forwarded for a request that is sent as it came. -/
def nativeBody (c : Codec) (f : Form) (args : RewriteArgs) : ForwardedBody :=
  match args.backendModel with
  | none => .bytes args.body
  | some backendModel =>
    if args.body.isEmpty then .bytes []
    else
      match nativeObject c args with
      | some object => .object (rewriteJsonObject object backendModel
          (decide (endpointKind args.upstreamPath = .responses))
          (decide (endpointKind args.upstreamPath = .chatCompletions)) args.policies.native
          args.extraBody)
      | none =>
        let form :=
          if isUrlencodedContentType args.contentType || looksLikeUrlencoded args.body then
            rewriteUrlencodedRequestBody f args.body backendModel
          else none
        let multipart := (args.contentType.bind multipartBoundary).bind fun boundary =>
          rewriteMultipartBody args.body boundary backendModel
        .bytes ((form.or multipart).getD args.body)

/-- **What is forwarded**, as an object if it is one. -/
def forwardedBody (c : Codec) (f : Form) (args : RewriteArgs) :
    Except RequestRewriteError ForwardedBody := do
  validateToolHistory c args
  match args.requestMode with
  | .anthropicMessagesNative =>
    let object ← readMessagesObject c args.body args.contentType
    .object <$> anthropicMessagesFields object args.backendModel args.anthropicMaxTokens
  | .responsesViaChatCompletions =>
    let object ← readRequestObject c args.body args.contentType "input" "Responses-to-chat"
      "Responses"
    let chat ← responsesRequestToChat c object args.backendModel args.policies.toolSchemaMode
      args.policies.chatStreamUsage
    return .object (applyExtraBody chat args.extraBody)
  | .chatCompletionsViaResponses =>
    let object ← readRequestObject c args.body args.contentType "messages" "Chat-to-responses"
      "Chat"
    let responses ← chatRequestToResponses c object args.backendModel
      args.policies.responsesStore args.policies.responsesMaxOutputTokens
    return .object (applyExtraBody responses args.extraBody)
  | .chatCompletionsViaMessages =>
    let object ← readRequestObject c args.body args.contentType "messages" "Chat-to-messages"
      "Chat"
    let anthropic ← chatRequestToAnthropic c object args.backendModel args.anthropicMaxTokens
    return .object (applyExtraBody anthropic args.extraBody)
  | .native => return nativeBody c f args

/-- **When a body is forwarded**, and what then is. -/
theorem forwardedBody_eq_ok {c : Codec} {f : Form} {args : RewriteArgs} {out : ForwardedBody} :
    forwardedBody c f args = .ok out ↔ validateToolHistory c args = .ok () ∧
      match args.requestMode with
      | .anthropicMessagesNative =>
        ∃ object, readMessagesObject c args.body args.contentType = .ok object ∧
          ∃ fields, anthropicMessagesFields object args.backendModel args.anthropicMaxTokens =
            .ok fields ∧ .object fields = out
      | .responsesViaChatCompletions =>
        ∃ object, readRequestObject c args.body args.contentType "input" "Responses-to-chat"
            "Responses" = .ok object ∧
          ∃ chat, responsesRequestToChat c object args.backendModel args.policies.toolSchemaMode
            args.policies.chatStreamUsage = .ok chat ∧
            .object (applyExtraBody chat args.extraBody) = out
      | .chatCompletionsViaResponses =>
        ∃ object, readRequestObject c args.body args.contentType "messages" "Chat-to-responses"
            "Chat" = .ok object ∧
          ∃ responses, chatRequestToResponses c object args.backendModel
            args.policies.responsesStore args.policies.responsesMaxOutputTokens =
              .ok responses ∧
            .object (applyExtraBody responses args.extraBody) = out
      | .chatCompletionsViaMessages =>
        ∃ object, readRequestObject c args.body args.contentType "messages" "Chat-to-messages"
            "Chat" = .ok object ∧
          ∃ anthropic, chatRequestToAnthropic c object args.backendModel
            args.anthropicMaxTokens = .ok anthropic ∧
            .object (applyExtraBody anthropic args.extraBody) = out
      | .native => nativeBody c f args = out := by
  unfold forwardedBody
  rw [bind_eq_ok]
  constructor
  · rintro ⟨u, hvalid, h⟩
    refine ⟨hvalid, ?_⟩
    cases hmode : args.requestMode <;>
      simpa only [hmode, bind_eq_ok, map_eq_ok, pure_eq_ok] using h
  · rintro ⟨hvalid, h⟩
    refine ⟨(), hvalid, ?_⟩
    cases hmode : args.requestMode <;>
      simpa only [hmode, bind_eq_ok, map_eq_ok, pure_eq_ok] using h

theorem rewriteJsonRequestBody_eq (c : Codec) (args : RewriteArgs) (backendModel : String)
    (n k : Bool) : (if shouldParseJson args.contentType args.body then
        rewriteJsonRequestBody c args.body backendModel n k args.policies.native args.extraBody
      else none) =
    (nativeObject c args).map fun object =>
      c.toVec (.object (rewriteJsonObject object backendModel n k args.policies.native
        args.extraBody)) := by
  unfold nativeObject rewriteJsonRequestBody
  split_ifs with hjson
  · cases (c.fromSlice args.body).bind Value.asObject with
    | none => rfl
    | some object => cases hmodel : OrdMap.get "model" object <;> simp [Option.filter, hmodel]
  · rfl

/-- The history is checked once more, with the same result. -/
theorem rewriteNativeRequestBody_eq {c : Codec} {f : Form} {args : RewriteArgs}
    (h : validateToolHistory c args = .ok ()) :
    rewriteNativeRequestBody c f args.body args.contentType args.backendModel args.upstreamPath
      args.policies.native args.extraBody = .ok ((nativeBody c f args).text c) := by
  unfold validateToolHistory at h
  unfold rewriteNativeRequestBody nativeBody
  dsimp only
  by_cases hcheck : (decide (endpointKind args.upstreamPath = .responses) &&
      shouldParseJson args.contentType args.body) = true
  on_goal 1 =>
    rw [if_pos hcheck] at h ⊢
    rw [h]
  on_goal 2 => rw [if_neg hcheck]
  all_goals
    cases args.backendModel with
    | none => rfl
    | some backendModel =>
      dsimp only
      cases args.body.isEmpty with
      | true => rfl
      | false =>
        rw [rewriteJsonRequestBody_eq]
        cases nativeObject c args <;> rfl

/-- **What is sent is the text of what is forwarded.** -/
theorem rewriteRequestBody_eq (c : Codec) (f : Form) (args : RewriteArgs) :
    rewriteRequestBodyForModeWithPolicies c f args =
      (forwardedBody c f args).map (ForwardedBody.text c) := by
  unfold rewriteRequestBodyForModeWithPolicies forwardedBody
  cases hvalid : validateToolHistory c args with
  | error e => rfl
  | ok u =>
    cases args.requestMode with
    | native =>
      dsimp only
      rw [rewriteNativeRequestBody_eq hvalid]
      rfl
    | anthropicMessagesNative =>
      simp only [rewriteAnthropicMessagesRequestBody]
      cases readMessagesObject c args.body args.contentType with
      | error e => rfl
      | ok object =>
        cases h : anthropicMessagesFields object args.backendModel args.anthropicMaxTokens <;>
          simp [h, bind, Except.bind, Except.map, Functor.map, pure, Except.pure,
            ForwardedBody.text]
    | responsesViaChatCompletions =>
      simp only [rewriteResponsesRequestAsChat]
      cases readRequestObject c args.body args.contentType "input" "Responses-to-chat"
          "Responses" with
      | error e => rfl
      | ok object =>
        cases h : responsesRequestToChat c object args.backendModel args.policies.toolSchemaMode
            args.policies.chatStreamUsage <;>
          simp [h, bind, Except.bind, Except.map, pure, Except.pure, ForwardedBody.text]
    | chatCompletionsViaResponses =>
      simp only [rewriteChatRequestAsResponses]
      cases readRequestObject c args.body args.contentType "messages" "Chat-to-responses"
          "Chat" with
      | error e => rfl
      | ok object =>
        cases h : chatRequestToResponses c object args.backendModel args.policies.responsesStore
            args.policies.responsesMaxOutputTokens <;>
          simp [h, bind, Except.bind, Except.map, pure, Except.pure, ForwardedBody.text]
    | chatCompletionsViaMessages =>
      simp only [rewriteChatRequestAsAnthropic]
      cases readRequestObject c args.body args.contentType "messages" "Chat-to-messages"
          "Chat" with
      | error e => rfl
      | ok object =>
        cases h : chatRequestToAnthropic c object args.backendModel args.anthropicMaxTokens <;>
          simp [h, bind, Except.bind, Except.map, pure, Except.pure, ForwardedBody.text]
end Onair
