import Onair.Request.ToResponses

/-!
# Chat completion requests in, Anthropic messages requests out

`rewriteChatRequestAsAnthropic` turns the body of a chat completion request into that of a request
for a message, `rewriteAnthropicMessagesRequestBody` is the rewriting of one that is forwarded as it
came.

* `validateChatToAnthropicOptions`, `resolveMaxTokens`: what is refused, and how long an answer is;
* `appendChatMessageToAnthropic`: a message as a part of the system prompt, or as a message;
* `chatToolsToAnthropicTools`, `chatToolChoiceToAnthropic`: the tools;
* `chatRequestToAnthropic`, `rewriteChatRequestAsAnthropic`: the request.
-/

namespace Onair

open Json Text Fallible

/-! ### Options -/

/-- The parameters that are known. -/
def knownChatParameters : List String :=
  ["model", "messages", "tools", "tool_choice", "max_tokens", "max_completion_tokens", "stop",
    "temperature", "top_p", "stream", "n", "logprobs", "top_logprobs", "presence_penalty",
    "frequency_penalty", "logit_bias", "seed", "response_format", "parallel_tool_calls",
    "stream_options", "user", "audio", "modalities", "prediction"]

/-- The parameters that must not be there. -/
def refusedChatParameters : List String :=
  ["presence_penalty", "frequency_penalty", "logit_bias", "seed", "response_format", "user",
    "audio", "modalities", "prediction"]

/-- The parameter is not supported. -/
def notSupported (parameter : String) : RequestRewriteError :=
  paramError parameter
    s!"{parameter} is not supported by the chat-to-messages compatibility path."

/-- The options of a stream. -/
def validateStreamOptions (streamOptions : Value) : Except RequestRewriteError Unit := do
  let object ← okOr streamOptions.asObject
    (paramError "stream_options" "stream_options must be an object.")
  match object.find? fun e => e.1 ≠ "include_usage" with
  | some (key, _) =>
    let option := s!"stream_options.{key}"
    .error ⟨(notSupported option).message, some "stream_options"⟩
  | none =>
    refuseIf ((OrdMap.get "include_usage" object).any fun includeUsage =>
        includeUsage.asBool.isNone && !includeUsage.isNull)
      (paramError "stream_options" "stream_options.include_usage must be a boolean.")

/-- The options that cannot be converted. -/
def validateChatToAnthropicOptions (object : List (String × Value)) :
    Except RequestRewriteError Unit := do
  match object.find? fun e => !knownChatParameters.elem e.1 with
  | some (key, _) => .error (paramError key s!"Unsupported parameter: {key}.")
  | none => .ok ()
  refuseIf (!asksForOne object)
    (paramError "n" "n > 1 is not supported by the chat-to-messages compatibility path.")
  refuseIf (!isOff object "logprobs") (notSupported "logprobs")
  refuseIf (OrdMap.get "top_logprobs" object).isSome (notSupported "top_logprobs")
  match refusedChatParameters.find? fun key => (OrdMap.get key object).isSome with
  | some key => .error (notSupported key)
  | none => .ok ()
  refuseIf (!isOff object "parallel_tool_calls") (notSupported "parallel_tool_calls")
  match OrdMap.get "stream_options" object with
  | some streamOptions => validateStreamOptions streamOptions
  | none => .ok ()

/-- A number of tokens. -/
def tokenCount (object : List (String × Value)) (field : String) : Option ℕ :=
  (((OrdMap.get field object).bind Value.asU64).map UInt64.toNat).filter (· < 2 ^ 32)

/-- How long an answer may be. -/
def resolveMaxTokens (object : List (String × Value)) (anthropicMaxTokens : Option ℕ) :
    Except RequestRewriteError ℕ := do
  let maxTokens := tokenCount object "max_tokens"
  let maxCompletionTokens := tokenCount object "max_completion_tokens"
  refuseIf (maxTokens.isSome && maxCompletionTokens.isSome && maxTokens != maxCompletionTokens)
    (paramError "max_tokens" "max_tokens and max_completion_tokens disagree.")
  okOr ((maxTokens.or maxCompletionTokens).or anthropicMaxTokens)
    (paramError "max_tokens" "Missing required parameter: max_tokens.")

/-- Where an answer stops. -/
def normalizeStopSequences (stop : Value) : Except RequestRewriteError Value :=
  match stop with
  | .string text => .ok (.array [.string text])
  | .array values => .ok (.array values)
  | .null => .ok .null
  | _ => .error (paramError "stop" "stop must be a string or array.")

/-! ### Content -/

/-- The text of a part, with the errors of the place where it is. -/
def textOfPart (notObject noText notTextual : String) (part : Value) :
    Except RequestRewriteError String := do
  let object ← okOr part.asObject (paramError "messages" notObject)
  if stringField object "type" = some "text" then
    okOr (stringField object "text") (paramError "messages" noText)
  else .error (paramError "messages" notTextual)

/-- The text of a system message. -/
def chatInstructionText (content : Value) : Except RequestRewriteError String :=
  match content with
  | .string text => .ok text
  | .array parts => do
    return String.join (← parts.mapM (textOfPart
      "System and developer content parts must be objects."
      "System and developer text content parts require text."
      "System and developer messages only support text content."))
  | .null => .ok ""
  | _ => .error (paramError "messages" "System and developer message content must be text.")

/-- A block with a text. -/
def textBlock (text : String) : Value := .obj [("type", .string "text"), ("text", .string text)]

/-- The content of a message as blocks. -/
def chatMessageContentToAnthropicBlocks (content : Value) (allowEmptyNull : Bool) :
    Except RequestRewriteError (List Value) :=
  match content with
  | .string text => .ok [textBlock text]
  | .array parts => do
    return (← parts.mapM (textOfPart "Chat content parts must be objects."
      "Chat text content parts require text."
      ("Chat content part type is unsupported by the chat-to-messages compatibility " ++
        "path."))).map textBlock
  | .null => .ok (if allowEmptyNull then [] else [textBlock ""])
  | _ =>
    .error (paramError "messages" "Chat message content must be a string, array, or null.")

/-- The output of a tool as a text. -/
def toolMessageContentToAnthropic (c : Codec) (content : Option Value) :
    Except RequestRewriteError String :=
  match content with
  | none | some .null => .ok ""
  | some (.string text) => .ok text
  | some (.array parts) => do
    return String.join (← parts.mapM (textOfPart "Tool message content parts must be objects."
      "Tool text content parts require text." "Tool messages only support text content."))
  | some content => .ok (printString c content)

/-! ### Messages -/

/-- A block with the use of a tool. -/
def toolUseBlock (id name : String) (input : Value) : Value :=
  .obj [("type", .string "tool_use"), ("id", .string id), ("name", .string name),
    ("input", input)]

/-- A tool call as a block. -/
def chatToolCallToAnthropic (c : Codec) (toolCall : Value × ℕ) :
    Except RequestRewriteError Value := do
  let (object, function) ← chatFunctionFields "chat-to-messages" toolCall.1
  let name ← okOr ((stringField function "name").filter nonBlank)
    (paramError "messages" "assistant function tool calls require function.name.")
  let input ← okOr (c.fromSlice (asBytes ((stringField function "arguments").getD "\x7b\x7d")))
    (paramError "messages" "assistant function tool call arguments must be valid JSON.")
  return toolUseBlock (chatToolCallId object toolCall.2) name input

/-- The tool calls of a message as blocks. -/
def chatToolCallsToAnthropic (c : Codec) (object : List (String × Value)) :
    Except RequestRewriteError (List Value) :=
  match (OrdMap.get "tool_calls" object).filter fun toolCalls => !toolCalls.isNull with
  | none => .ok []
  | some toolCalls => do
    let toolCalls ← okOr toolCalls.asArray
      (paramError "messages" "assistant tool_calls must be an array.")
    toolCalls.zipIdx.mapM (chatToolCallToAnthropic c)

/-- A message with blocks. -/
def anthropicMessage (role : String) (blocks : List Value) : Value :=
  .obj [("role", .string role), ("content", .array blocks)]

/-- Add a message to the system prompt or to the messages. -/
def appendChatMessageToAnthropic (c : Codec) (out : List String × List Value) (message : Value) :
    Except RequestRewriteError (List String × List Value) := do
  let object ← okOr message.asObject (paramError "messages" "Chat messages must be objects.")
  let role ← chatRole object
  if ["system", "developer"].elem role then
    let content ← okOr (OrdMap.get "content" object)
      (paramError "messages" "System and developer messages require content.")
    let text ← chatInstructionText content
    return (out.1 ++ (if nonBlank text then [text] else []), out.2)
  else if role = "user" then
    let blocks ← chatMessageContentToAnthropicBlocks
      ((OrdMap.get "content" object).getD .null) false
    return (out.1, out.2 ++ [anthropicMessage "user" blocks])
  else if role = "assistant" then
    let blocks ← chatMessageContentToAnthropicBlocks
      ((OrdMap.get "content" object).getD .null) true
    let calls ← chatToolCallsToAnthropic c object
    return (out.1, out.2 ++ [anthropicMessage "assistant" (blocks ++ calls)])
  else if role = "tool" then
    let toolCallId ← chatToolMessageId object
    let content ← toolMessageContentToAnthropic c (OrdMap.get "content" object)
    return (out.1, out.2 ++ [anthropicMessage "user" [.obj [("type", .string "tool_result"),
      ("tool_use_id", .string toolCallId), ("content", .string content)]]])
  else
    .error (paramError "messages" "Chat message role is unsupported by the compatibility path.")

/-! ### Tools -/

/-- A tool without parameters. -/
def emptyInputSchema : Value :=
  .obj [("type", .string "object"), ("properties", .obj [])]

/-- A tool of a chat as one of an Anthropic request. -/
def chatToolToAnthropic (tool : Value) : Except RequestRewriteError Value := do
  let function ← chatFunctionOfTool "chat-to-messages" tool
  let name ← okOr ((stringField function "name").filter nonBlank)
    (paramError "tools" "function tools require function.name.")
  return .object (OrdMap.insert "input_schema"
    ((OrdMap.get "parameters" function).getD emptyInputSchema)
    (copyFields ["description"] function [("name", .string name)]))

/-- The tools of a chat as those of an Anthropic request. -/
def chatToolsToAnthropicTools (tools : Value) : Except RequestRewriteError (List Value) := do
  let tools ← okOr tools.asArray (paramError "tools" "tools must be an array.")
  tools.mapM chatToolToAnthropic

/-- The choice of a tool. -/
def chatToolChoiceToAnthropic (toolChoice : Value) : Except RequestRewriteError Value :=
  match toolChoice with
  | .string "auto" => .ok (.obj [("type", .string "auto")])
  | .string "required" => .ok (.obj [("type", .string "any")])
  | .string "none" => .ok (.obj [("type", .string "none")])
  | .string _ => .error (paramError "tool_choice"
      "tool_choice value is unsupported by the chat-to-messages compatibility path.")
  | .object object => do
    refuseIf (stringField object "type" != some "function") (paramError "tool_choice"
      "tool_choice object is unsupported by the chat-to-messages compatibility path.")
    let function ← okOr ((OrdMap.get "function" object).bind Value.asObject)
      (paramError "tool_choice" "function tool_choice requires function.")
    let name ← okOr ((stringField function "name").filter nonBlank)
      (paramError "tool_choice" "function tool_choice requires function.name.")
    return .obj [("type", .string "tool"), ("name", .string name)]
  | _ =>
    .error (paramError "tool_choice"
      "tool_choice is unsupported by the chat-to-messages compatibility path.")

/-! ### The request -/

/-- The stop sequences that are there, converted. -/
def withStopSequences (source target : List (String × Value)) :
    Except RequestRewriteError (List (String × Value)) :=
  match OrdMap.get "stop" source with
  | none => .ok target
  | some stop => do return OrdMap.insert "stop_sequences" (← normalizeStopSequences stop) target

/-- **A chat completion request as a request for a message**, without the extra fields of the
route. -/
def chatRequestToAnthropic (c : Codec) (object : List (String × Value))
    (backendModel : Option String) (anthropicMaxTokens : Option ℕ) :
    Except RequestRewriteError (List (String × Value)) := do
  validateChatToAnthropicOptions object
  let messages ← chatMessages object
  let model ← requestModel backendModel object
  let maxTokens ← resolveMaxTokens object anthropicMaxTokens
  let (systemParts, messages) ← messages.foldlM (appendChatMessageToAnthropic c) ([], [])
  let anthropic := OrdMap.ofList ([("model", .string model), ("messages", .array messages),
    ("max_tokens", .u64 (UInt64.ofNat maxTokens))] ++ joinedTexts "system" systemParts)
  let anthropic ← withStopSequences object anthropic
  let anthropic := copyFields ["temperature", "top_p", "stream"] object anthropic
  let anthropic ← withTools chatToolsToAnthropicTools object anthropic
  withToolChoice chatToolChoiceToAnthropic object anthropic

/-- **The body of a chat completion request as that of a request for a message.** -/
def rewriteChatRequestAsAnthropic (c : Codec) (body : Bytes) (contentType : Option String)
    (backendModel : Option String) (anthropicMaxTokens : Option ℕ)
    (extraBody : List (String × Toml)) : Except RequestRewriteError Bytes := do
  let object ← readRequestObject c body contentType "messages" "Chat-to-messages" "Chat"
  let anthropic ← chatRequestToAnthropic c object backendModel anthropicMaxTokens
  return c.toVec (.object (applyExtraBody anthropic extraBody))

/-! ### Requests that are forwarded as they came -/

/-- The fields of a request for a message, with the model of the backend and a number of tokens. -/
def anthropicMessagesFields (object : List (String × Value)) (backendModel : Option String)
    (anthropicMaxTokens : Option ℕ) : Except RequestRewriteError (List (String × Value)) :=
  let object := match backendModel with
    | some model => OrdMap.insert "model" (.string model) object
    | none => object
  match OrdMap.get "max_tokens" object, anthropicMaxTokens with
  | some _, _ => .ok object
  | none, some tokens => .ok (OrdMap.insert "max_tokens" (.u64 (UInt64.ofNat tokens)) object)
  | none, none => .error (paramError "max_tokens" "Missing required parameter: max_tokens.")

/-- The object that the body is read as. -/
def readMessagesObject (c : Codec) (body : Bytes) (contentType : Option String) :
    Except RequestRewriteError (List (String × Value)) := do
  refuseIf body.isEmpty (paramError "messages" "Missing required parameter: messages.")
  refuseIf (!shouldParseJson contentType body)
    ⟨"Anthropic Messages API requires a JSON request body.", none⟩
  let value ← okOr (c.fromSlice body) ⟨"Request body is not valid JSON.", none⟩
  okOr value.asObject ⟨"Request body is not a JSON object.", none⟩

theorem readMessagesObject_eq_ok {c : Codec} {body : Bytes} {contentType : Option String}
    {object : List (String × Value)} (h : readMessagesObject c body contentType = .ok object) :
    c.fromSlice body = some (.object object) := by
  unfold readMessagesObject at h
  simp only [bind_eq_ok, okOr_eq_ok, Value.asObject_eq_some] at h
  obtain ⟨-, -, -, -, value, hvalue, rfl⟩ := h
  exact hvalue

/-- **The body of a request for a message.** -/
def rewriteAnthropicMessagesRequestBody (c : Codec) (body : Bytes) (contentType : Option String)
    (backendModel : Option String) (anthropicMaxTokens : Option ℕ) :
    Except RequestRewriteError Bytes := do
  let object ← readMessagesObject c body contentType
  return c.toVec (.object (← anthropicMessagesFields object backendModel anthropicMaxTokens))

end Onair
