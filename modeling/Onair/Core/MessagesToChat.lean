import Onair.Core.Native
import Onair.Core.ChatCompletions

/-!
# Anthropic messages in, chat completion chunks out

`AnthropicMessagesToChatSseNormalizer` turns the events of an Anthropic message stream into the
chunks of a chat completion stream. Its usage counters are overwritten by what the stream last
said, not added up.

* `MessagesStream`: the state of the chat stream, and its moves `processContentBlockStart`,
  `processContentBlockDelta`, `processMessageDelta`, `finishResponse`, `errorFrame`;
* `observeUsage`: reading the usage of an event;
* `AnthropicMessagesToChatSseNormalizer.handleFrame`, `finishTail`: the normalizer.
-/

namespace Onair

open Json Text

/-- The chat spelling of an Anthropic stop reason. -/
def chatFinishReasonFromAnthropicStopReason (stopReason : String) : FinishReason :=
  match stopReason with
  | "end_turn" | "stop_sequence" => .stop
  | "max_tokens" => .length
  | "tool_use" => .toolCalls
  | _ => .stop

/-- The state of a chat stream made from Anthropic events. -/
structure MessagesStream where
  emitUsageToClient : Bool
  messageId : Option String := none
  model : Option String := none
  roleSent : Bool := false
  contentStarted : Bool := false
  toolCalls : List (ℕ × ChatCompletionStreamToolCall) := []
  finishReason : Option FinishReason := none
  completed : Bool := false
  doneSent : Bool := false
  deriving DecidableEq

namespace MessagesStream

/-- What every chunk begins with. -/
def head (s : MessagesStream) : ChunkHead where
  id := s.messageId.getD "chatcmpl_unknown"
  created := 0
  model := s.model.getD "unknown"

/-- A chunk. -/
def chatChunk (s : MessagesStream) (delta : ChatDelta) (finishReason : Option FinishReason) :
    ChatFrame :=
  .chunk s.head delta finishReason s.emitUsageToClient

/-- The end marker, once. -/
def doneEvent (s : MessagesStream) : MessagesStream × List ChatFrame :=
  if s.doneSent then (s, []) else ({ s with doneSent := true }, [.done])

/-- Announce the tool call at `index` once it has a name. -/
def announceToolCallIfReady (s : MessagesStream) (index : ℕ) :
    MessagesStream × List ChatFrame :=
  match OrdMap.get index s.toolCalls with
  | some state =>
    match state.announced, state.name with
    | false, some name =>
      let callId := state.callId.getD (syntheticCallId index)
      let frame := s.chatChunk (.announce (!s.roleSent) index callId name) none
      ({ s with
          toolCalls := OrdMap.insert index { state with announced := true } s.toolCalls
          roleSent := true }, [frame])
    | _, _ => (s, [])
  | none => (s, [])

/-- The index of an event's block; one without an index is a new tool call. -/
def eventIndex (s : MessagesStream) (event : Value) : ℕ :=
  (((event.get "index").bind Value.asU64).map UInt64.toNat).getD s.toolCalls.length

/-- `content_block_start`: a `tool_use` block opens a tool call. -/
def processContentBlockStart (s : MessagesStream) (event : Value) :
    MessagesStream × List ChatFrame :=
  let index := s.eventIndex event
  match (event.get "content_block").bind Value.asObject with
  | some contentBlock =>
    match (OrdMap.get "type" contentBlock).bind Value.asStr with
    | some "tool_use" =>
      let state := (OrdMap.get index s.toolCalls).getD {}
      let state := { state with
        callId := ((OrdMap.get "id" contentBlock).bind Value.asStr).or
          (some (syntheticCallId index))
        name := (OrdMap.get "name" contentBlock).bind Value.asStr }
      { s with toolCalls := OrdMap.insert index state s.toolCalls }.announceToolCallIfReady index
    | _ => (s, [])
  | none => (s, [])

/-- `content_block_delta`: a piece of text or of tool arguments. -/
def processContentBlockDelta (s : MessagesStream) (event : Value) :
    MessagesStream × List ChatFrame :=
  let index := s.eventIndex event
  match (event.get "delta").bind Value.asObject with
  | some delta =>
    match (OrdMap.get "type" delta).bind Value.asStr with
    | some "text_delta" =>
      let text := ((OrdMap.get "text" delta).bind Value.asStr).getD ""
      if text = "" then (s, [])
      else
        let frame := s.chatChunk (.content (!s.roleSent) text) none
        ({ s with contentStarted := true, roleSent := true }, [frame])
    | some "input_json_delta" =>
      let partialJson := ((OrdMap.get "partial_json" delta).bind Value.asStr).getD ""
      if partialJson = "" then (s, [])
      else
        let state := (OrdMap.get index s.toolCalls).getD {}
        let state := { state with arguments := state.arguments ++ partialJson }
        let (s, out) :=
          { s with toolCalls := OrdMap.insert index state s.toolCalls }.announceToolCallIfReady
            index
        (s, out ++ [s.chatChunk (.arguments index partialJson) none])
    | _ => (s, [])
  | none => (s, [])

/-- `message_delta`: the stop reason. -/
def processMessageDelta (s : MessagesStream) (event : Value) : MessagesStream :=
  match ((event.get "delta").bind Value.asObject).bind fun delta =>
      (OrdMap.get "stop_reason" delta).bind Value.asStr with
  | some stopReason =>
    { s with finishReason := some (chatFinishReasonFromAnthropicStopReason stopReason) }
  | none => s

/-- Send the last chunk, the usage if it is asked for and was seen, and the end marker, once. -/
def finishResponse (usage : UsageTotals) (usageObjectCount : ℕ) (s : MessagesStream) :
    MessagesStream × List ChatFrame :=
  if s.completed then (s, [])
  else
    let s := { s with completed := true }
    let finishReason := s.finishReason.getD (if s.toolCalls.isEmpty then .stop else .toolCalls)
    let usageChunk := if s.emitUsageToClient && decide (usageObjectCount > 0) then
        [ChatFrame.usage s.head (.plain usage.input usage.output usage.total)]
      else []
    let last := s.chatChunk .empty (some finishReason)
    let (s, out) := s.doneEvent
    (s, last :: usageChunk ++ out)

/-- Send an error frame and the end marker. -/
def errorFrame (s : MessagesStream) (event : Value) : MessagesStream × List ChatFrame :=
  let s := { s with completed := true }
  let message := (((event.get "error").bind Value.asObject).bind fun error =>
    (OrdMap.get "message" error).bind Value.asStr).getD couldNotComplete
  let (s, out) := s.doneEvent
  (s, .error message :: out)

/-- One Anthropic event. -/
def processEvent (usage : UsageTotals) (usageObjectCount : ℕ) (s : MessagesStream)
    (event : Value) : MessagesStream × List ChatFrame :=
  match (event.get "type").bind Value.asStr with
  | some "message_start" => (s, [])
  | some "content_block_start" => s.processContentBlockStart event
  | some "content_block_delta" => s.processContentBlockDelta event
  | some "message_delta" => (s.processMessageDelta event, [])
  | some "message_stop" => s.finishResponse usage usageObjectCount
  | some "error" => s.errorFrame event
  | _ => (s, [])

/-- Take id and model from an event, and never keep the backend's model name. -/
def setMetadata (backendModel publicModel : Option String) (s : MessagesStream) (event : Value) :
    MessagesStream :=
  let s := match event.get "message" with
    | some message =>
      { s with
        messageId := s.messageId.or (((message.get "id").bind Value.asStr).map chatIdFromResponse)
        model := s.model.or ((message.get "model").bind Value.asStr) }
    | none => s
  let s := { s with model := s.model.or ((event.get "model").bind Value.asStr) }
  match backendModel, publicModel, s.model with
  | some backendModel, some publicModel, some model =>
    if model = backendModel then { s with model := some publicModel } else s
  | _, _, _ => s

/-- The end of the upstream stream: a last chunk if a message was begun, and the end marker. -/
def finishStream (usage : UsageTotals) (usageObjectCount : ℕ) (s : MessagesStream) :
    MessagesStream × List ChatFrame :=
  let (s, out) := if s.messageId.isSome then s.finishResponse usage usageObjectCount else (s, [])
  let (s, out') := s.doneEvent
  (s, out ++ out')

end MessagesStream

/-- The usage object of an Anthropic event. -/
def anthropicEventUsage (event : Value) : Option (List (String × Value)) :=
  (((event.get "usage").or ((event.get "message").bind fun message => message.get "usage")).or
    (((event.get "delta").bind Value.asObject).bind fun delta => OrdMap.get "usage" delta)).bind
    Value.asObject

/-- The counters after a usage object: what it says overwrites what was there. -/
def overwriteUsage (usage : UsageTotals) (object : List (String × Value)) : UsageTotals :=
  let input := (numberField object "input_tokens").getD usage.input
  let output := (numberField object "output_tokens").getD usage.output
  { usage with input, output, total := input + output }

/-- Read the usage of an event. -/
def SseObserver.observeUsage (o : SseObserver) (event : Value) : SseObserver :=
  match anthropicEventUsage event with
  | some usage =>
    { o with
      diagnostics := o.diagnostics.observeObject usage
      usage := overwriteUsage o.usage usage }
  | none => o

/-- The state of `AnthropicMessagesToChatSseNormalizer`, beside its parser. -/
structure AnthropicMessagesToChatSseNormalizer where
  observer : SseObserver
  stream : MessagesStream
  deriving DecidableEq

namespace AnthropicMessagesToChatSseNormalizer

/-- Rewrite the top-level `model` of an event. -/
def rewriteEvent (o : SseObserver) (event : Value) : Value :=
  match o.backendModel, o.publicModel, event with
  | some backend, some pub, .object m => .object (rewriteTopModel backend pub m)
  | _, _, event => event

/-- A `data:` frame: an Anthropic event. -/
def handleData (n : AnthropicMessagesToChatSseNormalizer) (value : Value) :
    AnthropicMessagesToChatSseNormalizer × List SseOut :=
  let event := rewriteEvent n.observer value
  let stream := n.stream.setMetadata n.observer.backendModel n.observer.publicModel event
  let observer := n.observer.observeUsage event
  let (stream, out) :=
    stream.processEvent observer.usage observer.diagnostics.usageObjectCount event
  ({ observer, stream }, out.map .chat)

/-- Close the chat stream. -/
def finishTail (n : AnthropicMessagesToChatSseNormalizer) :
    AnthropicMessagesToChatSseNormalizer × List SseOut :=
  let (stream, out) :=
    n.stream.finishStream n.observer.usage n.observer.diagnostics.usageObjectCount
  ({ n with stream }, out.map .chat)

/-- Handle one frame. -/
def handleFrame (n : AnthropicMessagesToChatSseNormalizer) :
    SseFrame → AnthropicMessagesToChatSseNormalizer × List SseOut
  | .event name _ => ({ n with observer := n.observer.observeEvent name }, [])
  | .data value _ _ => n.handleData value
  | .dataUnparseable _ => ({ n with observer := n.observer.clearEvent }, [])
  | .done _ => { n with observer := n.observer.clearEvent }.finishTail
  | .passThrough _ => (n, [])

end AnthropicMessagesToChatSseNormalizer

end Onair
