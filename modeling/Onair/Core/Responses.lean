import Onair.Core.Frame

/-!
# Chat completions in, Responses events out

`ResponsesSseNormalizer` turns the chunks of a chat completion stream into the events of the
Responses API.

* `StreamToolCall`, `ResponsesStream`: the tool calls seen so far, and the state of the response;
* `startResponseEvents`, `processContent`, `processToolCallDelta`, `finishResponse`: the events of
  one move;
* `processChoice`, `processChatChunk`: the loops over tool calls and choices;
* `ResponsesSseNormalizer.handleFrame`, `finishTail`: the normalizer.
-/

namespace Onair

open Json Text

/-- The id of the response for a chat completion. -/
def responseIdFromChat (chatId : String) : String :=
  if (stripPrefix "resp_".toList chatId.toList).isSome then chatId else "resp_" ++ chatId

/-- The id of a message item. -/
def messageIdFromResponse (responseId : String) (index : ℕ) : String :=
  "msg_" ++ responseId ++ "_" ++ toString index

/-- The call id made up for a tool call without one. -/
def syntheticCallId (index : ℕ) : String := "call_" ++ toString index

/-- A tool call under construction. -/
structure StreamToolCall where
  callId : Option String := none
  name : Option String := none
  arguments : String := ""
  added : Bool := false
  deriving DecidableEq, Repr

/-- The state of a response under construction. -/
structure ResponsesStream where
  responseId : Option String := none
  messageId : Option String := none
  createdAt : UInt64 := 0
  model : Option String := none
  responseStarted : Bool := false
  textStarted : Bool := false
  outputText : String := ""
  toolCalls : List (ℕ × StreamToolCall) := []
  completed : Bool := false
  deriving DecidableEq

namespace ResponsesStream

/-- The id of the response. -/
def getResponseId (s : ResponsesStream) : String := s.responseId.getD "resp_unknown"

/-- The id of the message item. -/
def getMessageId (s : ResponsesStream) : String :=
  s.messageId.getD (messageIdFromResponse s.getResponseId 0)

/-- The response object of the moment. -/
def responseObject (usage : UsageTotals) (s : ResponsesStream) (status : ItemStatus)
    (output : List OutputItem) : ResponseObject where
  id := s.getResponseId
  createdAt := s.createdAt
  status
  model := s.model.getD "unknown"
  output
  outputText := s.outputText
  usage

/-- Take id, creation time and model from the first chunk that has them. -/
def setChunkMetadata (s : ResponsesStream) (chunk : Value) : ResponsesStream :=
  let s := match s.responseId with
    | some _ => s
    | none =>
      let chatId := ((chunk.get "id").bind Value.asStr).getD "chatcmpl_unknown"
      let responseId := responseIdFromChat chatId
      { s with
        messageId := some (messageIdFromResponse responseId 0)
        responseId := some responseId }
  let s := if s.createdAt = 0 then
      { s with createdAt := ((chunk.get "created").bind Value.asU64).getD 0 }
    else s
  match s.model with
  | some _ => s
  | none => { s with model := (chunk.get "model").bind Value.asStr }

/-- The two events that open a response. -/
def startResponseEvents (usage : UsageTotals) (s : ResponsesStream) :
    ResponsesStream × List ResponsesEvent :=
  if s.responseStarted then (s, [])
  else
    let s := { s with responseStarted := true }
    let response := s.responseObject usage .inProgress []
    (s, [.created response, .inProgress response])

/-- The two events that open the message item. -/
def startTextEvents (s : ResponsesStream) : ResponsesStream × List ResponsesEvent :=
  if s.textStarted then (s, [])
  else
    let s := { s with textStarted := true }
    (s, [.outputItemAdded 0 (.message s.getMessageId .inProgress []),
      .contentPartAdded s.getMessageId])

/-- The text of a delta. -/
def processContent (s : ResponsesStream) (content : Option String) :
    ResponsesStream × List ResponsesEvent :=
  match content with
  | some text =>
    if text = "" then (s, [])
    else
      let (s, out) := s.startTextEvents
      let s := { s with outputText := s.outputText ++ text }
      (s, out ++ [.outputTextDelta s.getMessageId text])
  | none => (s, [])

/-- Announce a tool call once its name is known. -/
def announce (index : ℕ) (state : StreamToolCall) : StreamToolCall × List ResponsesEvent :=
  match state.added, state.callId, state.name with
  | false, some callId, some name =>
    ({ state with added := true },
      [.outputItemAdded index (.functionCall .inProgress callId name "")])
  | _, _, _ => (state, [])

/-- Append a fragment of arguments. -/
def appendArguments (index : ℕ) (state : StreamToolCall) (arguments : Option String) :
    StreamToolCall × List ResponsesEvent :=
  match arguments with
  | some arguments =>
    if arguments = "" then (state, [])
    else
      let callId := state.callId.getD (syntheticCallId index)
      ({ state with callId := some callId, arguments := state.arguments ++ arguments },
        [.functionCallArgumentsDelta callId index arguments])
  | none => (state, [])

/-- Take the name of a tool call; a named call without an id gets one. -/
def nameCall (index : ℕ) (state : StreamToolCall) (function : List (String × Value)) :
    StreamToolCall :=
  let state := match (OrdMap.get "name" function).bind Value.asStr with
    | some name => { state with name := some name }
    | none => state
  if state.callId.isNone && state.name.isSome then
    { state with callId := some (syntheticCallId index) }
  else state

/-- The `function` of a tool call delta. -/
def processFunction (index : ℕ) (state : StreamToolCall) (function : List (String × Value)) :
    StreamToolCall × List ResponsesEvent :=
  let (state, out) := announce index (nameCall index state function)
  let (state, out') :=
    appendArguments index state ((OrdMap.get "arguments" function).bind Value.asStr)
  (state, out ++ out')

/-- The index of a tool call delta; one without an index is a new call. A `usize` holds every
`u64` on the 64-bit targets the program is built for. -/
def toolIndex (s : ResponsesStream) (toolCall : Value) : ℕ :=
  (((toolCall.get "index").bind Value.asU64).map UInt64.toNat).getD s.toolCalls.length

/-- The tool call at an index, a fresh one if there is none, with its id if it had none. -/
def toolState (s : ResponsesStream) (index : ℕ) (id : Option String) : StreamToolCall :=
  let state := (OrdMap.get index s.toolCalls).getD {}
  { state with callId := state.callId.or id }

/-- One tool call delta. -/
def processToolCallDelta (s : ResponsesStream) (toolCall : Value) :
    ResponsesStream × List ResponsesEvent :=
  let index := s.toolIndex toolCall
  let state := s.toolState index ((toolCall.get "id").bind Value.asStr)
  let (state, out) := match (toolCall.get "function").bind Value.asObject with
    | some function => processFunction index state function
    | none => (state, [])
  ({ s with toolCalls := OrdMap.insert index state s.toolCalls }, out)

/-- The message item of the response. -/
def messageItem (s : ResponsesStream) : OutputItem :=
  .message s.getMessageId .completed [s.outputText]

/-- The events that close the message item. -/
def textDoneEvents (s : ResponsesStream) : List ResponsesEvent :=
  if s.textStarted then
    [.outputTextDone s.getMessageId s.outputText, .contentPartDone s.getMessageId s.outputText,
      .outputItemDone 0 s.messageItem]
  else []

/-- The call id of a tool call, made up if none came. -/
def finalCallId (index : ℕ) (toolCall : StreamToolCall) : String :=
  toolCall.callId.getD (syntheticCallId index)

/-- The item of a tool call. -/
def toolItem (entry : ℕ × StreamToolCall) : OutputItem :=
  .functionCall .completed (finalCallId entry.1 entry.2) (entry.2.name.getD "unknown")
    entry.2.arguments

/-- The events that close a tool call. -/
def toolDoneEvents (entry : ℕ × StreamToolCall) : List ResponsesEvent :=
  [.functionCallArgumentsDone (finalCallId entry.1 entry.2) entry.1 entry.2.arguments,
    .outputItemDone entry.1 (toolItem entry)]

/-- The `output` of the response: the message item, then the tool calls by index. -/
def finalOutput (s : ResponsesStream) : List OutputItem :=
  (if s.textStarted then [s.messageItem] else []) ++ s.toolCalls.map toolItem

/-- Close every item and the response, once. -/
def finishResponse (usage : UsageTotals) (s : ResponsesStream) :
    ResponsesStream × List ResponsesEvent :=
  if s.completed then (s, [])
  else
    let s := { s with completed := true }
    (s, s.textDoneEvents ++ s.toolCalls.flatMap toolDoneEvents ++
      [.completed (s.responseObject usage .completed s.finalOutput)])

/-- The `delta` of a choice: its text, then its tool calls. -/
def processDelta (s : ResponsesStream) (delta : List (String × Value)) :
    ResponsesStream × List ResponsesEvent :=
  let (s, out) := s.processContent ((OrdMap.get "content" delta).bind Value.asStr)
  let (s, out') := Mealy.run processToolCallDelta s
    (((OrdMap.get "tool_calls" delta).bind Value.asArray).getD [])
  (s, out ++ out')

/-- A choice that ends the response. -/
def choiceFinishes (choice : Value) : Bool := !((choice.get "finish_reason").getD .null).isNull

/-- One choice of a chunk. -/
def processChoice (usage : UsageTotals) (s : ResponsesStream) (choice : Value) :
    ResponsesStream × List ResponsesEvent :=
  let (s, out) := match (choice.get "delta").bind Value.asObject with
    | some delta => s.processDelta delta
    | none => (s, [])
  let (s, out') := if choiceFinishes choice then s.finishResponse usage else (s, [])
  (s, out ++ out')

/-- The choices of a chunk. -/
def chunkChoices (chunk : Value) : List Value := ((chunk.get "choices").bind Value.asArray).getD []

/-- One chat chunk. -/
def processChatChunk (usage : UsageTotals) (s : ResponsesStream) (chunk : Value) :
    ResponsesStream × List ResponsesEvent :=
  let s := s.setChunkMetadata chunk
  let (s, out) := s.startResponseEvents usage
  let (s, out') := Mealy.run (processChoice usage) s (chunkChoices chunk)
  (s, out ++ out')

end ResponsesStream

/-- The state of `ResponsesSseNormalizer`, beside its parser. -/
structure ResponsesSseNormalizer where
  observer : SseObserver
  stream : ResponsesStream := {}
  deriving DecidableEq

namespace ResponsesSseNormalizer

/-- A `data:` frame: a chat chunk. -/
def handleData (n : ResponsesSseNormalizer) (value : Value) :
    ResponsesSseNormalizer × List SseOut :=
  let (observer, chunk, _) := n.observer.applyDataPrologue value
  let (stream, out) := n.stream.processChatChunk observer.usage chunk
  ({ observer, stream }, out.map .event)

/-- Close the response. -/
def finishTail (n : ResponsesSseNormalizer) : ResponsesSseNormalizer × List SseOut :=
  let (stream, out) := n.stream.finishResponse n.observer.usage
  ({ n with stream }, out.map .event)

/-- Handle one frame. -/
def handleFrame (n : ResponsesSseNormalizer) : SseFrame → ResponsesSseNormalizer × List SseOut
  | .event name line => ({ n with observer := n.observer.observeEvent name }, [.line line])
  | .data value _ _ => n.handleData value
  | .dataUnparseable line => ({ n with observer := n.observer.clearEvent }, [.line line])
  | .done line =>
    let (n, out) := { n with observer := n.observer.clearEvent }.finishTail
    (n, out ++ [.line line])
  | .passThrough line => (n, [.line line])

end ResponsesSseNormalizer

end Onair
