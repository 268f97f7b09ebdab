import Onair.Request.ToChat

/-!
# Chat completion requests in, Responses requests out

`rewriteChatRequestAsResponses` turns the body of a chat completion request into that of a Responses
request. What cannot be converted is refused.

* `validateChatToResponsesOptions`: what is refused;
* `appendChatMessageToResponses`: a message as instructions, or as items of the input;
* `chatToolsToResponsesTools`, `chatToolChoiceToResponses`: the tools;
* `chatRequestToResponses`, `rewriteChatRequestAsResponses`: the request.
-/

namespace Onair

open Json Text Fallible

/-! ### Options -/

/-- One answer is asked for, if a number is. -/
def asksForOne (object : List (String × Value)) : Bool :=
  ((OrdMap.get "n" object).map fun n => n.asU64 == some 1).getD true

/-- The field says no, or nothing. -/
def isOff (object : List (String × Value)) (field : String) : Bool :=
  ((OrdMap.get field object).map fun value => value.isNull || value.asBool == some false).getD true

/-- The options that cannot be converted. -/
def validateChatToResponsesOptions (object : List (String × Value)) :
    Except RequestRewriteError Unit := do
  refuseIf (!asksForOne object)
    (paramError "n" "n > 1 is not supported by the chat-to-responses compatibility path.")
  refuseIf (!isOff object "logprobs") (paramError "logprobs"
    "logprobs is not supported by the chat-to-responses compatibility path.")
  refuseIf (OrdMap.get "top_logprobs" object).isSome (paramError "top_logprobs"
    "top_logprobs is not supported by the chat-to-responses compatibility path.")

/-! ### Content -/

/-- A part of the text of a system message. -/
def chatInstructionPart (part : Value) : Except RequestRewriteError String := do
  let object ← okOr part.asObject (paramError "messages" "Chat content parts must be objects.")
  if stringField object "type" = some "text" then return (stringField object "text").getD ""
  else
    .error (paramError "messages" "System and developer messages only support text content.")

/-- The text of a system message. -/
def chatContentToInstructionText (content : Value) : Except RequestRewriteError String :=
  match content with
  | .string text => .ok text
  | .array parts => do return String.join (← parts.mapM chatInstructionPart)
  | .null => .ok ""
  | _ => .error (paramError "messages" "System and developer message content must be text.")

/-- An image of a chat message. -/
def chatImagePartToResponses (object : List (String × Value)) :
    Except RequestRewriteError Value := do
  let imageUrl ← okOr (OrdMap.get "image_url" object)
    (paramError "messages" "Chat image_url content parts require image_url.")
  match imageUrl with
  | .string url => return .obj [("type", .string "input_image"), ("image_url", .string url)]
  | .object imageUrl =>
    let url ← okOr (OrdMap.get "url" imageUrl)
      (paramError "messages" "Chat image_url content parts require image_url.url.")
    return .object (copyFields ["detail"] imageUrl
      (OrdMap.ofList [("type", .string "input_image"), ("image_url", url)]))
  | _ =>
    .error (paramError "messages" "Chat image_url content image_url must be a string or object.")

/-- A text of a Responses content. -/
def responsesTextPart (role text : String) : Value :=
  .obj [("type", .string (if role = "assistant" then "output_text" else "input_text")),
    ("text", .string text)]

/-- A part of a chat message, and whether it is a text. -/
def chatContentPartToResponses (role : String) (part : Value) :
    Except RequestRewriteError (Value × Bool) := do
  let object ← okOr part.asObject (paramError "messages" "Chat content parts must be objects.")
  let partType := stringField object "type"
  if partType = some "text" then
    let text ← okOr (stringField object "text")
      (paramError "messages" "Chat text content parts require text.")
    return (responsesTextPart role text, true)
  else if partType = some "image_url" ∧ role = "user" then
    return (← chatImagePartToResponses object, false)
  else if partType = some "refusal" ∧ role = "assistant" then
    return (responsesTextPart role ((stringField object "refusal").getD ""), true)
  else
    .error (paramError "messages"
      "Chat content part type is unsupported by the compatibility path.")

/-- The content of a chat message. -/
def chatContentToResponsesContent (c : Codec) (content : Value) (role : String) :
    Except RequestRewriteError Value :=
  match content with
  | .string text => .ok (.string text)
  | .array parts => do return contentOfParts (← parts.mapM (chatContentPartToResponses role))
  | .null => .ok (.string "")
  | content => .ok (.string (printString c content))

/-! ### Tool calls -/

/-- The fields of a tool call of the assistant, which is a function with a name. -/
def chatFunctionFields (path : String) (toolCall : Value) :
    Except RequestRewriteError (List (String × Value) × List (String × Value)) := do
  let object ← okOr toolCall.asObject
    (paramError "messages" "assistant tool_calls must be objects.")
  refuseIf ((stringField object "type").any (· ≠ "function")) (paramError "messages"
    s!"Only function tool calls are supported by the {path} compatibility path.")
  let function ← okOr ((OrdMap.get "function" object).bind Value.asObject)
    (paramError "messages" "assistant function tool calls require function.")
  return (object, function)

theorem chatFunctionFields_eq_ok {path : String} {toolCall : Value}
    {object function : List (String × Value)}
    (h : chatFunctionFields path toolCall = .ok (object, function)) :
    toolCall = .object object ∧ OrdMap.get "function" object = some (.object function) := by
  unfold chatFunctionFields at h
  simp only [bind_eq_ok, okOr_eq_ok, pure_eq_ok, Value.asObject_eq_some,
    Option.bind_eq_some_iff] at h
  obtain ⟨_, rfl, _, -, _, ⟨_, hfunction, rfl⟩, heq⟩ := h
  obtain ⟨rfl, rfl⟩ := Prod.mk.inj heq
  exact ⟨rfl, hfunction⟩

/-- The id of the tool call, or one made from its place. -/
def chatToolCallId (object : List (String × Value)) (index : ℕ) : String :=
  ((stringField object "id").filter nonBlank).getD s!"call_{index}"

/-- A tool call as an item of the input. -/
def functionCallInput (callId name arguments : String) : Value :=
  .obj [("type", .string "function_call"), ("call_id", .string callId), ("name", .string name),
    ("arguments", .string arguments)]

/-- A tool call of a chat message as an item of the input. -/
def chatToolCallToResponses (toolCall : Value × ℕ) : Except RequestRewriteError Value := do
  let (object, function) ← chatFunctionFields "chat-to-responses" toolCall.1
  let name ← okOr (stringField function "name")
    (paramError "messages" "assistant function tool calls require function.name.")
  return functionCallInput (chatToolCallId object toolCall.2) name
    ((stringField function "arguments").getD "\x7b\x7d")

/-- The tool calls of a message as items of the input. -/
def chatToolCallsToResponses (toolCalls : Value) : Except RequestRewriteError (List Value) := do
  let toolCalls ← okOr toolCalls.asArray
    (paramError "messages" "assistant tool_calls must be an array.")
  toolCalls.zipIdx.mapM chatToolCallToResponses

/-- The output of a tool as an item of the input. -/
def functionOutputInput (callId output : String) : Value :=
  .obj [("type", .string "function_call_output"), ("call_id", .string callId),
    ("output", .string output)]

/-- The output of a tool as a text. -/
def chatToolOutputToString (c : Codec) (output : Value) : String :=
  match output with
  | .string text => text
  | .array parts =>
    let text := String.join (parts.filterMap partText)
    if text = "" then printString c output else text
  | output => printString c output

/-! ### Messages -/

/-- The role of a message. -/
def chatRole (object : List (String × Value)) : Except RequestRewriteError String :=
  okOr (stringField object "role") (paramError "messages" "Chat messages require role.")

/-- The id of the tool call that a message of a tool answers. -/
def chatToolMessageId (object : List (String × Value)) : Except RequestRewriteError String :=
  okOr ((stringField object "tool_call_id").filter nonBlank)
    (paramError "messages" "Tool messages require tool_call_id.")

/-- A message as an item of the input. -/
def messageInput (role : String) (content : Value) : Value :=
  .obj [("role", .string role), ("content", content)]

/-- A message of the user or the assistant as an item of the input, if it has a content. -/
def chatTextToResponses (c : Codec) (object : List (String × Value)) (role : String) :
    Except RequestRewriteError (List Value) :=
  match (OrdMap.get "content" object).filter fun content => !content.isNull with
  | none => .ok []
  | some content => do
    let content ← chatContentToResponsesContent c content role
    return [messageInput role content]

/-- The tool calls of a message as items of the input, if it has any. -/
def chatCallsToResponses (object : List (String × Value)) :
    Except RequestRewriteError (List Value) :=
  match OrdMap.get "tool_calls" object with
  | some toolCalls => chatToolCallsToResponses toolCalls
  | none => .ok []

/-- Add a message to the instructions or to the input. -/
def appendChatMessageToResponses (c : Codec) (out : List String × List Value) (message : Value) :
    Except RequestRewriteError (List String × List Value) := do
  let object ← okOr message.asObject (paramError "messages" "Chat messages must be objects.")
  let role ← chatRole object
  if ["system", "developer"].elem role then
    let content ← okOr (OrdMap.get "content" object)
      (paramError "messages" "System and developer messages require content.")
    let text ← chatContentToInstructionText content
    return (out.1 ++ (if nonBlank text then [text] else []), out.2)
  else if role = "user" then
    return (out.1, out.2 ++ (← chatTextToResponses c object role))
  else if role = "assistant" then
    let text ← chatTextToResponses c object role
    let calls ← chatCallsToResponses object
    return (out.1, out.2 ++ text ++ calls)
  else if role = "tool" then
    let callId ← chatToolMessageId object
    let output := (OrdMap.get "content" object).getD .null
    return (out.1, out.2 ++ [functionOutputInput callId (chatToolOutputToString c output)])
  else
    .error (paramError "messages" "Chat message role is unsupported by the compatibility path.")

/-! ### Tools -/

/-- A tool of a chat, with an error for what is no function. -/
def chatFunctionOfTool (path : String) (tool : Value) :
    Except RequestRewriteError (List (String × Value)) := do
  let object ← okOr tool.asObject (paramError "tools" "tool definitions must be objects.")
  refuseIf (stringField object "type" != some "function") (paramError "tools"
    s!"Only function tools are supported by the {path} compatibility path.")
  okOr ((OrdMap.get "function" object).bind Value.asObject)
    (paramError "tools" "function tools require function.")

/-- A tool of a chat as one of a Responses request. -/
def chatToolToResponses (tool : Value) : Except RequestRewriteError Value := do
  let function ← chatFunctionOfTool "chat-to-responses" tool
  return .object (OrdMap.insert "type" (.string "function") function)

/-- The tools of a chat as those of a Responses request. -/
def chatToolsToResponsesTools (tools : Value) : Except RequestRewriteError (List Value) := do
  let tools ← okOr tools.asArray
    (paramError "tools" "tools must be an array for chat-to-responses conversion.")
  tools.mapM chatToolToResponses

/-- The choice of a tool. -/
def chatToolChoiceToResponses (toolChoice : Value) : Except RequestRewriteError Value :=
  match toolChoice with
  | .object object =>
    if stringField object "type" ≠ some "function" then .ok toolChoice
    else do
      let function ← okOr ((OrdMap.get "function" object).bind Value.asObject)
        (paramError "tool_choice" "function tool_choice requires function.")
      let name ← okOr (OrdMap.get "name" function)
        (paramError "tool_choice" "function tool_choice requires function.name.")
      return .obj [("type", .string "function"), ("name", name)]
  | toolChoice => .ok toolChoice

/-! ### The request -/

/-- The fields that mean the same in both requests. -/
def sharedChatFields : List String :=
  ["temperature", "top_p", "stream", "store", "metadata", "parallel_tool_calls",
    "prompt_cache_key", "prompt_cache_retention"]

/-- The choice of a tool that is there, converted. -/
def withToolChoice (convert : Value → Except RequestRewriteError Value)
    (source target : List (String × Value)) :
    Except RequestRewriteError (List (String × Value)) :=
  match OrdMap.get "tool_choice" source with
  | none => .ok target
  | some toolChoice => do return OrdMap.insert "tool_choice" (← convert toolChoice) target

theorem get_withToolChoice_ne {convert : Value → Except RequestRewriteError Value}
    {source target result : List (String × Value)}
    (h : withToolChoice convert source target = .ok result) {k : String} (hk : k ≠ "tool_choice") :
    OrdMap.get k result = OrdMap.get k target := by
  unfold withToolChoice at h
  split at h
  · obtain rfl := Except.ok.inj h
    rfl
  · obtain ⟨toolChoice, -, h⟩ := bind_eq_ok.mp h
    obtain rfl := pure_eq_ok.mp h
    exact OrdMap.get_insert_ne hk _ _

/-- The messages of a chat. -/
def chatMessages (object : List (String × Value)) : Except RequestRewriteError (List Value) :=
  okOr ((OrdMap.get "messages" object).bind Value.asArray)
    (paramError "messages" "Missing required parameter: messages.")

/-- The texts with blank lines in between, if there are any. -/
def joinedTexts (field : String) (texts : List String) : List (String × Value) :=
  if texts.isEmpty then [] else [(field, .string ("\n\n".intercalate texts))]

/-- **A chat completion request as a Responses request**, without the extra fields of the route. -/
def chatRequestToResponses (c : Codec) (object : List (String × Value))
    (backendModel : Option String) (responsesStore : ResponsesStorePolicy)
    (responsesMaxOutputTokens : ResponsesMaxOutputTokensPolicy) :
    Except RequestRewriteError (List (String × Value)) := do
  validateChatToResponsesOptions object
  let messages ← chatMessages object
  let (instructions, input) ← messages.foldlM (appendChatMessageToResponses c) ([], [])
  let model ← requestModel backendModel object
  let responses := OrdMap.ofList ([("model", .string model)] ++
    joinedTexts "instructions" instructions ++ [("input", .array input)])
  let responses := copyFields sharedChatFields object responses
  let responses :=
    match (OrdMap.get "max_completion_tokens" object).or (OrdMap.get "max_tokens" object) with
    | some value => OrdMap.insert "max_output_tokens" value responses
    | none => responses
  let responses := match OrdMap.get "response_format" object with
    | some responseFormat => OrdMap.insert "text" (.obj [("format", responseFormat)]) responses
    | none => responses
  let responses ← withTools chatToolsToResponsesTools object responses
  let responses ← withToolChoice chatToolChoiceToResponses object responses
  let responses :=
    if responsesStore = .forceFalse then insertAbsent "store" (.bool false) responses
    else responses
  return rewriteNativeResponsesMaxOutputTokens responses responsesMaxOutputTokens

/-- **The body of a chat completion request as that of a Responses request.** -/
def rewriteChatRequestAsResponses (c : Codec) (body : Bytes) (contentType : Option String)
    (backendModel : Option String) (responsesStore : ResponsesStorePolicy)
    (responsesMaxOutputTokens : ResponsesMaxOutputTokensPolicy)
    (extraBody : List (String × Toml)) : Except RequestRewriteError Bytes := do
  let object ← readRequestObject c body contentType "messages" "Chat-to-responses" "Chat"
  let responses ← chatRequestToResponses c object backendModel responsesStore
    responsesMaxOutputTokens
  return c.toVec (.object (applyExtraBody responses extraBody))

end Onair
