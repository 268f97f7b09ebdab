import Onair.Core.Responses

/-!
# Responses events in, chat completion chunks out

`ChatCompletionsSseNormalizer` turns the events of a Responses stream into the chunks of a chat
completion stream.

* `ChatCompletionStreamToolCall`, `announceToolCallIfReady`: a tool call is announced once it has a
  name (shared with the Anthropic conversion);
* `ChatStream`: the state of the chat stream; its moves `processTextDelta`,
  `processFunctionArgumentsDelta`, `processOutputItem`, `emitCompletedOutputIfNeeded`,
  `finishResponse`, `failResponse`;
* `ChatCompletionsSseNormalizer.handleFrame`, `finishTail`: the normalizer.
-/

namespace Onair

open Json Text

/-- The id of the chat completion for a response. -/
def chatIdFromResponse (responseId : String) : String :=
  if (stripPrefix "chatcmpl".toList responseId.toList).isSome then responseId
  else "chatcmpl_" ++ responseId

/-- The message of an error frame where the upstream gives none that may be shown. -/
def couldNotComplete : String := "The selected model could not complete the request."

/-- A tool call of a chat stream under construction. -/
structure ChatCompletionStreamToolCall where
  callId : Option String := none
  name : Option String := none
  arguments : String := ""
  announced : Bool := false
  deriving DecidableEq, Repr

/-! ### Reading a response object -/

/-- The text of a message's `content`. -/
def responsesMessageContentToChatText (content : Value) : String :=
  match content with
  | .string text => text
  | .array parts => String.join (parts.filterMap fun part =>
      ((part.get "text").bind Value.asStr).or ((part.get "refusal").bind Value.asStr))
  | _ => ""

/-- A tool call of a chat message. -/
structure ChatToolCall where
  id : String
  name : String
  arguments : String
  deriving DecidableEq, Repr

/-- A `function_call` item as a tool call. -/
def responseFunctionCallToChatToolCall (object : List (String × Value)) (index : ℕ) :
    ChatToolCall where
  id := (((OrdMap.get "call_id" object).or (OrdMap.get "id" object)).bind Value.asStr).getD
    (syntheticCallId index)
  name := ((OrdMap.get "name" object).bind Value.asStr).getD "unknown"
  arguments := ((OrdMap.get "arguments" object).bind Value.asStr).getD "\x7b\x7d"

/-- One output item of a response added to a chat message: its text and its tool calls. -/
def responseItemToChatMessage (message : String × List ChatToolCall) (item : Value × ℕ) :
    String × List ChatToolCall :=
  match item.1 with
  | .object object =>
    match (OrdMap.get "type" object).bind Value.asStr with
    | some "message" =>
      if ((OrdMap.get "role" object).bind Value.asStr).all (· == "assistant") then
        match OrdMap.get "content" object with
        | some content => (message.1 ++ responsesMessageContentToChatText content, message.2)
        | none => message
      else message
    | some "function_call" =>
      (message.1, message.2 ++ [responseFunctionCallToChatToolCall object item.2])
    | _ => message
  | _ => message

/-- The `output` of a response as a chat message. -/
def responseOutputToChatMessage (output : Option Value) : String × List ChatToolCall :=
  match output.bind Value.asArray with
  | some items => items.zipIdx.foldl responseItemToChatMessage ("", [])
  | none => ("", [])

/-- Why a response ended. -/
def responseFinishReason (object : List (String × Value)) (hasToolCalls : Bool) : FinishReason :=
  if hasToolCalls then .toolCalls
  else if (OrdMap.get "status" object).bind Value.asStr = some "incomplete" then .length
  else .stop

/-! ### The chat stream -/

/-- The state of a chat stream under construction. -/
structure ChatStream where
  emitUsageToClient : Bool
  responseId : Option String := none
  createdAt : UInt64 := 0
  model : Option String := none
  roleSent : Bool := false
  textSent : Bool := false
  toolCalls : List (ℕ × ChatCompletionStreamToolCall) := []
  completed : Bool := false
  doneSent : Bool := false
  deriving DecidableEq

namespace ChatStream

/-- What every chunk begins with. -/
def head (s : ChatStream) : ChunkHead where
  id := chatIdFromResponse (s.responseId.getD "resp_unknown")
  created := s.createdAt
  model := s.model.getD "unknown"

/-- A chunk. -/
def chatChunk (s : ChatStream) (delta : ChatDelta) (finishReason : Option FinishReason) :
    ChatFrame :=
  .chunk s.head delta finishReason s.emitUsageToClient

/-- The end marker, once. -/
def doneEvent (s : ChatStream) : ChatStream × List ChatFrame :=
  if s.doneSent then (s, []) else ({ s with doneSent := true }, [.done])

/-- Take id, creation time and model from a response object. -/
def setResponseMetadata (s : ChatStream) (response : Value) : ChatStream :=
  { s with
    responseId := s.responseId.or ((response.get "id").bind Value.asStr)
    createdAt := if s.createdAt = 0 then
        (((response.get "created_at").or (response.get "created")).bind Value.asU64).getD 0
      else s.createdAt
    model := s.model.or ((response.get "model").bind Value.asStr) }

/-- Take id, creation time and model from an event. -/
def setEventMetadata (s : ChatStream) (event : Value) : ChatStream :=
  let s := match event.get "response" with
    | some response => s.setResponseMetadata response
    | none => s
  { s with
    responseId := s.responseId.or
      (((event.get "response_id").or (event.get "id")).bind Value.asStr)
    createdAt := if s.createdAt = 0 then
        (((event.get "created_at").or (event.get "created")).bind Value.asU64).getD 0
      else s.createdAt
    model := s.model.or ((event.get "model").bind Value.asStr) }

/-- Send text, with the role if it was not sent yet. -/
def sendText (s : ChatStream) (text : String) : ChatStream × List ChatFrame :=
  let frame := s.chatChunk (.content (!s.roleSent) text) none
  ({ s with textSent := true, roleSent := true }, [frame])

/-- Announce the tool call at `index` once it has a name. -/
def announceToolCallIfReady (s : ChatStream) (index : ℕ) : ChatStream × List ChatFrame :=
  match OrdMap.get index s.toolCalls with
  | some state =>
    match state.announced, state.name with
    | false, some name =>
      let callId := state.callId.getD (syntheticCallId index)
      let frame := s.chatChunk (.announce (!s.roleSent) index callId name) none
      ({ s with
          toolCalls := OrdMap.insert index { state with announced := true } s.toolCalls
          roleSent := true }, [frame])
    | _, _ => (s, [])
  | none => (s, [])

/-- Send a fragment of arguments. -/
def sendArguments (s : ChatStream) (index : ℕ) (fragment : String) : List ChatFrame :=
  [s.chatChunk (.arguments index fragment) none]

/-- The output index of an event; one without an index is a new call. -/
def eventIndex (s : ChatStream) (event : Value) (field : String) : ℕ :=
  (((event.get field).bind Value.asU64).map UInt64.toNat).getD s.toolCalls.length

/-- `response.output_text.delta`. -/
def processTextDelta (s : ChatStream) (event : Value) : ChatStream × List ChatFrame :=
  match (event.get "delta").bind Value.asStr with
  | some delta => if delta = "" then (s, []) else s.sendText delta
  | none => (s, [])

/-- `response.function_call_arguments.delta`. -/
def processFunctionArgumentsDelta (s : ChatStream) (event : Value) :
    ChatStream × List ChatFrame :=
  let index := s.eventIndex event "output_index"
  let delta := ((event.get "delta").bind Value.asStr).getD ""
  let callId := ((event.get "call_id").or (event.get "item_id")).bind Value.asStr
  let state := (OrdMap.get index s.toolCalls).getD {}
  let state := { state with
    callId := state.callId.or callId
    arguments := state.arguments ++ delta }
  let s := { s with toolCalls := OrdMap.insert index state s.toolCalls }
  let (s, out) := s.announceToolCallIfReady index
  (s, out ++ (if delta = "" then [] else s.sendArguments index delta))

/-- A `function_call` item, added or done. -/
def processFunctionItem (s : ChatStream) (event : Value) (item : List (String × Value))
    (done : Bool) : ChatStream × List ChatFrame :=
  let index := s.eventIndex event "output_index"
  let callId := ((OrdMap.get "call_id" item).or (OrdMap.get "id" item)).bind Value.asStr
  let name := (OrdMap.get "name" item).bind Value.asStr
  let arguments := ((OrdMap.get "arguments" item).bind Value.asStr).getD ""
  let state := (OrdMap.get index s.toolCalls).getD {}
  let state := { state with callId := state.callId.or callId, name := state.name.or name }
  let emitArguments := done && decide (arguments ≠ "") && decide (state.arguments = "")
  let state := if emitArguments then { state with arguments } else state
  let s := { s with toolCalls := OrdMap.insert index state s.toolCalls }
  let (s, out) := s.announceToolCallIfReady index
  (s, out ++ (if emitArguments then s.sendArguments index arguments else []))

/-- `response.output_item.added` and `response.output_item.done`. -/
def processOutputItem (s : ChatStream) (event : Value) (done : Bool) :
    ChatStream × List ChatFrame :=
  match (event.get "item").bind Value.asObject with
  | some item =>
    match (OrdMap.get "type" item).bind Value.asStr with
    | some "function_call" => s.processFunctionItem event item done
    | some "message" =>
      if done && !s.textSent then
        match OrdMap.get "content" item with
        | some content =>
          let text := responsesMessageContentToChatText content
          if text = "" then (s, []) else s.sendText text
        | none => (s, [])
      else (s, [])
    | _ => (s, [])
  | none => (s, [])

/-- Send a whole tool call of a finished response. -/
def emitToolCall (s : ChatStream) (entry : ChatToolCall × ℕ) : ChatStream × List ChatFrame :=
  let state := (OrdMap.get entry.2 s.toolCalls).getD {}
  let state := { state with
    callId := some entry.1.id
    name := some entry.1.name
    arguments := entry.1.arguments }
  let s := { s with toolCalls := OrdMap.insert entry.2 state s.toolCalls }
  let (s, out) := s.announceToolCallIfReady entry.2
  (s, out ++ (if entry.1.arguments = "" then [] else s.sendArguments entry.2 entry.1.arguments))

/-- Send the output of a finished response if nothing of it was sent before. -/
def emitCompletedOutputIfNeeded (s : ChatStream) (response : Option Value) :
    ChatStream × List ChatFrame :=
  if s.textSent || !s.toolCalls.isEmpty then (s, [])
  else
    match response with
    | some response =>
      let (content, toolCalls) := responseOutputToChatMessage (response.get "output")
      let (s, out) := if content = "" then (s, []) else s.sendText content
      let (s, out') := Mealy.run emitToolCall s toolCalls.zipIdx
      (s, out ++ out')
    | none => (s, [])

/-- The usage object of a response. -/
def responseUsage (response : Option Value) : Option (List (String × Value)) :=
  (response.bind fun response => response.get "usage").bind Value.asObject

/-- Send the last chunk, and the usage if it is asked for, once. -/
def finishResponse (s : ChatStream) (response : Option Value) : ChatStream × List ChatFrame :=
  if s.completed then (s, [])
  else
    let s := { s with completed := true }
    let s := match response with
      | some response => s.setResponseMetadata response
      | none => s
    let hasToolCalls := !s.toolCalls.isEmpty
    let finishReason := match response.bind Value.asObject with
      | some object => responseFinishReason object hasToolCalls
      | none => if hasToolCalls then .toolCalls else .stop
    let usage := match s.emitUsageToClient, responseUsage response with
      | true, some usage =>
        [ChatFrame.usage s.head (.detailed (usageFieldsFromObject (some usage)))]
      | _, _ => []
    (s, s.chatChunk .empty (some finishReason) :: usage)

/-- Send an error frame and the end marker, once. -/
def failResponse (s : ChatStream) (response : Option Value) : ChatStream × List ChatFrame :=
  if s.completed then (s, [])
  else
    let s := { s with completed := true }
    let s := match response with
      | some response => s.setResponseMetadata response
      | none => s
    let (s, out) := s.doneEvent
    (s, .error couldNotComplete :: out)

/-- One Responses event. -/
def processResponseEvent (s : ChatStream) (event : Value) : ChatStream × List ChatFrame :=
  let s := s.setEventMetadata event
  match (event.get "type").bind Value.asStr with
  | some "response.output_text.delta" => s.processTextDelta event
  | some "response.function_call_arguments.delta" => s.processFunctionArgumentsDelta event
  | some "response.output_item.added" => s.processOutputItem event false
  | some "response.output_item.done" => s.processOutputItem event true
  | some "response.completed" | some "response.incomplete" =>
    let response := event.get "response"
    let (s, out) := s.emitCompletedOutputIfNeeded response
    let (s, out') := s.finishResponse response
    (s, out ++ out')
  | some "response.failed" | some "response.cancelled" | some "error" =>
    s.failResponse (event.get "response")
  | _ => (s, [])

/-- The end of the upstream stream: a last chunk if none was sent, and the end marker. -/
def finishStream (s : ChatStream) : ChatStream × List ChatFrame :=
  let (s, out) := s.finishResponse none
  let (s, out') := s.doneEvent
  (s, out ++ out')

end ChatStream

/-- The state of `ChatCompletionsSseNormalizer`, beside its parser. -/
structure ChatCompletionsSseNormalizer where
  observer : SseObserver
  stream : ChatStream
  deriving DecidableEq

namespace ChatCompletionsSseNormalizer

/-- A `data:` frame: a Responses event. -/
def handleData (n : ChatCompletionsSseNormalizer) (value : Value) :
    ChatCompletionsSseNormalizer × List SseOut :=
  let (observer, event, _) := n.observer.applyDataPrologue value
  let (stream, out) := n.stream.processResponseEvent event
  ({ observer, stream }, out.map .chat)

/-- Close the chat stream. -/
def finishTail (n : ChatCompletionsSseNormalizer) : ChatCompletionsSseNormalizer × List SseOut :=
  let (stream, out) := n.stream.finishStream
  ({ n with stream }, out.map .chat)

/-- Handle one frame. -/
def handleFrame (n : ChatCompletionsSseNormalizer) :
    SseFrame → ChatCompletionsSseNormalizer × List SseOut
  | .event name _ => ({ n with observer := n.observer.observeEvent name }, [])
  | .data value _ _ => n.handleData value
  | .dataUnparseable _ => ({ n with observer := n.observer.clearEvent }, [])
  | .done _ => { n with observer := n.observer.clearEvent }.finishTail
  | .passThrough _ => (n, [])

end ChatCompletionsSseNormalizer

end Onair
