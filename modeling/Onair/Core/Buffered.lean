import Onair.Core.Rewritten
import Onair.Core.Paths
import Onair.Request.Inspect

/-!
# Whole responses

`rewriteResponseBody` rewrites and converts a response that is not a stream.

* `chatCompletionToResponse`, `responseToChatCompletion`, `anthropicMessageToChatCompletion`: the
  conversions, one for each converting mode;
* `responseOutputToChatMessage`, `anthropicContentToChatMessage`: text and tool calls of a message;
* `convertResponse`, `rewriteResponseBody`: the response of a request mode.
-/

namespace Onair

open Json Text

/-- A JSON value as a text. -/
def printString (c : Codec) (value : Value) : String := fromUtf8Lossy (c.toVec value)

/-! ### Chat completions into responses -/

/-- The text of a part: its `text`, or else its `refusal`. -/
def partText (part : Value) : Option String :=
  ((part.get "text").bind Value.asStr).or ((part.get "refusal").bind Value.asStr)

/-- The text of a chat message's `content`. -/
def chatMessageContentToText (c : Codec) (content : Value) : String :=
  match content with
  | .string text => text
  | .array parts => String.join (parts.filterMap partText)
  | content => printString c content

/-- The message item for a text. -/
def messageItem (messageId text : String) : Value :=
  .obj [("id", .string messageId), ("type", .string "message"), ("status", .string "completed"),
    ("role", .string "assistant"), ("content", .array [.obj [("type", .string "output_text"),
      ("text", .string text), ("annotations", .array [])]])]

/-- The item for tool call `toolIndex` of choice `index`. -/
def functionCallItem (index : ℕ) (toolCall : Value × ℕ) : Value :=
  let function := (toolCall.1.get "function").bind Value.asObject
  .obj [("type", .string "function_call"), ("status", .string "completed"),
    ("call_id", .string (((toolCall.1.get "id").bind Value.asStr).getD
      ("call_" ++ toString index ++ "_" ++ toString toolCall.2))),
    ("name", .string (((function.bind fun function => OrdMap.get "name" function).bind
      Value.asStr).getD "unknown")),
    ("arguments", .string (((function.bind fun function => OrdMap.get "arguments" function).bind
      Value.asStr).getD "\x7b\x7d"))]

/-- The text of a choice's message, where it has some. -/
def choiceText (c : Codec) (message : List (String × Value)) : Option String :=
  match OrdMap.get "content" message with
  | some content =>
    if content.isNull then none
    else
      let text := chatMessageContentToText c content
      if text = "" then none else some text
  | none => none

/-- One choice: its items and its text. -/
def choiceToOutput (c : Codec) (responseId : String) (choice : Value × ℕ) :
    List Value × List String :=
  match (choice.1.get "message").bind Value.asObject with
  | some message =>
    let text := choiceText c message
    let toolCalls := ((OrdMap.get "tool_calls" message).bind Value.asArray).getD []
    ((text.map (messageItem (messageIdFromResponse responseId choice.2))).toList ++
      toolCalls.zipIdx.map (functionCallItem choice.2), text.toList)
  | none => ([], [])

/-- The usage of a chat completion as that of a response. -/
def chatUsageToResponsesUsage (usage : Option Value) : Value :=
  let fields := usageFieldsFromObject (usage.bind Value.asObject)
  .obj [("input_tokens", .u64 fields.input),
    ("input_tokens_details", .obj [("cached_tokens", .u64 fields.cached)]),
    ("output_tokens", .u64 fields.output),
    ("output_tokens_details", .obj [("reasoning_tokens", .u64 fields.reasoning)]),
    ("total_tokens", .u64 fields.total)]

/-- A chat completion as a response. -/
def chatCompletionToResponse (c : Codec) (value : Value) : Value :=
  match value with
  | .object object =>
    let responseId := responseIdFromChat
      (((OrdMap.get "id" object).bind Value.asStr).getD "chatcmpl_unknown")
    let choices := ((OrdMap.get "choices" object).bind Value.asArray).getD []
    let outputs := choices.zipIdx.map (choiceToOutput c responseId)
    .obj [("id", .string responseId), ("object", .string "response"),
      ("created_at", .u64 (((OrdMap.get "created" object).bind Value.asU64).getD 0)),
      ("status", .string "completed"),
      ("model", (OrdMap.get "model" object).getD (.string "unknown")),
      ("output", .array (outputs.flatMap Prod.fst)),
      ("output_text", .string (String.join (outputs.flatMap Prod.snd))),
      ("usage", chatUsageToResponsesUsage (OrdMap.get "usage" object))]
  | value => value

/-! ### Responses and Anthropic messages into chat completions -/

/-- A tool call as it is sent. -/
def ChatToolCall.toValue (toolCall : ChatToolCall) : Value :=
  .obj [("id", .string toolCall.id), ("type", .string "function"),
    ("function", .obj [("name", .string toolCall.name),
      ("arguments", .string toolCall.arguments)])]

/-- A chat completion with one choice. -/
def chatCompletion (id : String) (created : UInt64) (model message : Value)
    (finishReason : FinishReason) (usage : Value) : Value :=
  .obj [("id", .string id), ("object", .string "chat.completion"), ("created", .u64 created),
    ("model", model),
    ("choices", .array [.obj [("index", indexValue 0), ("message", message),
      ("finish_reason", .string finishReason.text)]]),
    ("usage", usage)]

/-- A response as a chat completion. -/
def responseToChatCompletion (value : Value) : Value :=
  match value with
  | .object object =>
    let (content, toolCalls) := responseOutputToChatMessage (OrdMap.get "output" object)
    let hasToolCalls := !toolCalls.isEmpty
    chatCompletion
      (chatIdFromResponse (((OrdMap.get "id" object).bind Value.asStr).getD "resp_unknown"))
      ((((OrdMap.get "created_at" object).or (OrdMap.get "created" object)).bind
        Value.asU64).getD 0)
      ((OrdMap.get "model" object).getD (.string "unknown"))
      (.obj ([("role", .string "assistant"), ("content", .string content)] ++
        (if hasToolCalls then [("tool_calls", .array (toolCalls.map ChatToolCall.toValue))]
        else [])))
      (responseFinishReason object hasToolCalls)
      (ChatUsage.detailed
        (usageFieldsFromObject ((OrdMap.get "usage" object).bind Value.asObject))).toValue
  | value => value

/-- One block of an Anthropic message added to a chat message. -/
def anthropicBlockToChatMessage (c : Codec) (message : String × List ChatToolCall)
    (block : Value × ℕ) : String × List ChatToolCall :=
  match block.1 with
  | .object object =>
    match (OrdMap.get "type" object).bind Value.asStr with
    | some "text" =>
      match (OrdMap.get "text" object).bind Value.asStr with
      | some text => (message.1 ++ text, message.2)
      | none => message
    | some "tool_use" =>
      (message.1, message.2 ++ [{
        id := ((OrdMap.get "id" object).bind Value.asStr).getD (syntheticCallId block.2)
        name := ((OrdMap.get "name" object).bind Value.asStr).getD "unknown"
        arguments := printString c ((OrdMap.get "input" object).getD (.obj [])) }])
    | _ => message
  | _ => message

/-- The `content` of an Anthropic message as a chat message. -/
def anthropicContentToChatMessage (c : Codec) (content : Option Value) :
    String × List ChatToolCall :=
  match content.bind Value.asArray with
  | some blocks => blocks.zipIdx.foldl (anthropicBlockToChatMessage c) ("", [])
  | none => ("", [])

/-- The usage of an Anthropic message as that of a chat completion. -/
def anthropicUsageToChatUsage (usage : Option Value) : ChatUsage :=
  let count := fun field =>
    ((usage.bind Value.asObject).bind fun usage => numberField usage field).getD 0
  .plain (count "input_tokens") (count "output_tokens")
    (count "input_tokens" + count "output_tokens")

/-- The chat spelling of the stop reason of an Anthropic message. -/
def anthropicFinishReason (object : List (String × Value)) : FinishReason :=
  (((OrdMap.get "stop_reason" object).bind Value.asStr).map
    chatFinishReasonFromAnthropicStopReason).getD .stop

/-- The id of the chat completion for an Anthropic message. -/
def chatIdFromAnthropic (id : String) : String := chatIdFromResponse id

/-- An Anthropic message as a chat completion. -/
def anthropicMessageToChatCompletion (c : Codec) (value : Value) : Value :=
  match value with
  | .object object =>
    let (content, toolCalls) := anthropicContentToChatMessage c (OrdMap.get "content" object)
    chatCompletion
      (chatIdFromAnthropic (((OrdMap.get "id" object).bind Value.asStr).getD "msg_unknown"))
      0
      ((OrdMap.get "model" object).getD (.string "unknown"))
      (.obj ([("role", .string "assistant"),
          ("content", if content = "" then .null else .string content)] ++
        (if toolCalls.isEmpty then []
        else [("tool_calls", .array (toolCalls.map ChatToolCall.toValue))])))
      (anthropicFinishReason object)
      (anthropicUsageToChatUsage (OrdMap.get "usage" object)).toValue
  | value => value

/-! ### The response of a request mode -/

/-- The content type of an event stream. -/
def isEventStreamContentType : Option String → Bool
  | none => false
  | some value => Text.contains (Text.toAsciiLowercase value) "text/event-stream"

/-- Rewrite the top-level `model` of an Anthropic message. -/
def rewriteAnthropicMessagesResponseBodyValue (backendModel publicModel : String) :
    Value → Value
  | .object m => .object (rewriteTopModel backendModel publicModel m)
  | value => value

/-- Apply a rewriting of model names where both names are known. -/
def withModels (backendModel publicModel : Option String)
    (rewrite : String → String → Value → Value) (value : Value) : Value :=
  match backendModel, publicModel with
  | some backendModel, some publicModel => rewrite backendModel publicModel value
  | _, _ => value

/-- Rewrite and convert a response. -/
def convertResponse (c : Codec) (backendModel publicModel : Option String) (mode : RequestMode)
    (json : Value) : Value :=
  let models := withModels backendModel publicModel
  ensureUsageTotalTokens <| match mode with
    | .native => models rewriteResponseModels json
    | .anthropicMessagesNative => models rewriteAnthropicMessagesResponseBodyValue json
    | .responsesViaChatCompletions =>
      chatCompletionToResponse c (models rewriteResponseModels json)
    | .chatCompletionsViaResponses => responseToChatCompletion (models rewriteResponseModels json)
    | .chatCompletionsViaMessages =>
      anthropicMessageToChatCompletion c (models rewriteAnthropicMessagesResponseBodyValue json)

/-- Rewrite and convert the body of a response, and count its usage. A body that is no JSON is sent
on as it came. -/
def rewriteResponseBody (c : Codec) (body : Bytes) (contentType : Option String)
    (backendModel publicModel : Option String) (mode : RequestMode) : Bytes × UsageTotals :=
  if !isJsonContentType contentType && !looksLikeJson body then (body, {})
  else
    match c.fromSlice body with
    | some json =>
      (c.toVec (convertResponse c backendModel publicModel mode json),
        (extractUsageObservation json).totals)
    | none => (body, {})

end Onair
