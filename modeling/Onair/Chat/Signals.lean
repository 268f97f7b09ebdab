import Onair.Chat.Sending
import Onair.Core.Rewritten
import Onair.Stream.Chunks

/-!
# Chat streams as runs over signals

A chat stream is told of the events of the upstream stream and of its end, and of nothing else.

* `ResponsesKind`, `ChatStream.deltaStep`, `closeStep`: an event sends deltas, then may close the
  stream;
* `MessagesKind`, `MessagesStream.deltaStep`, `closeStep`: the same of an Anthropic event;
* `ChatStream.deltaStep_spec`, `MessagesStream.deltaStep_spec`: **the first half only sends
  deltas**;
* `chatSignals`, `messagesSignals`: the signals of a stream of frames;
* `runAll_chat`, `runAll_messages`: **the frames a client is sent are those of a run over them**.
-/

namespace Onair

open Json

/-! ### Responses events -/

/-- What a Responses event is about. -/
inductive ResponsesKind where
  | text
  | arguments
  | item (done : Bool)
  | completed
  | failed
  | other
  deriving DecidableEq

/-- The kind of a Responses event. -/
def responsesKind (event : Value) : ResponsesKind :=
  match (event.get "type").bind Value.asStr with
  | some "response.output_text.delta" => .text
  | some "response.function_call_arguments.delta" => .arguments
  | some "response.output_item.added" => .item false
  | some "response.output_item.done" => .item true
  | some "response.completed" | some "response.incomplete" => .completed
  | some "response.failed" | some "response.cancelled" | some "error" => .failed
  | _ => .other

namespace ChatStream

/-- The first half of an event: the deltas it sends. -/
def deltaStep (s : ChatStream) (event : Value) : ChatStream × List ChatFrame :=
  let s := s.setEventMetadata event
  match responsesKind event with
  | .text => s.processTextDelta event
  | .arguments => s.processFunctionArgumentsDelta event
  | .item done => s.processOutputItem event done
  | .completed => s.emitCompletedOutputIfNeeded (event.get "response")
  | .failed | .other => (s, [])

/-- The second half of an event: whether it closes the stream. -/
def closeStep (s : ChatStream) (event : Value) : ChatStream × List ChatFrame :=
  match responsesKind event with
  | .completed => s.finishResponse (event.get "response")
  | .failed => s.failResponse (event.get "response")
  | _ => (s, [])

theorem processResponseEvent_eq (s : ChatStream) (event : Value) :
    s.processResponseEvent event = ((s.deltaStep event).1.closeStep event |>.1,
      (s.deltaStep event).2 ++ ((s.deltaStep event).1.closeStep event).2) := by
  rw [processResponseEvent]
  dsimp only
  split <;> rename_i htype <;>
    simp only [deltaStep, closeStep, responsesKind, htype, List.append_nil, List.nil_append]

theorem setEventMetadata_core (s : ChatStream) (event : Value) :
    (s.setEventMetadata event).core = s.core := by
  unfold setEventMetadata
  cases event.get "response" <;> rfl

theorem sendText_spec (s : ChatStream) (text : String) :
    DeltaStep s.core (s.sendText text).2 (s.sendText text).1.core :=
  .content s.core s.head text s.emitUsageToClient

theorem processTextDelta_spec (s : ChatStream) (event : Value) :
    DeltaStep s.core (s.processTextDelta event).2 (s.processTextDelta event).1.core := by
  unfold processTextDelta
  split
  · split_ifs
    · exact .refl _
    · exact s.sendText_spec _
  · exact .refl _

/-- The fragment of an arguments event. -/
def argumentsDelta (event : Value) : String := ((event.get "delta").bind Value.asStr).getD ""

/-- The tool call after an arguments event. -/
def argumentsCall (s : ChatStream) (event : Value) : ChatCompletionStreamToolCall :=
  let call := callAt s.toolCalls (s.eventIndex event "output_index")
  { call with
    callId := call.callId.or (((event.get "call_id").or (event.get "item_id")).bind Value.asStr)
    arguments := call.arguments ++ argumentsDelta event }

theorem processFunctionArgumentsDelta_eq (s : ChatStream) (event : Value) :
    s.processFunctionArgumentsDelta event =
      s.store (s.eventIndex event "output_index") (s.argumentsCall event)
        (argumentsDelta event) := by
  rw [store_eq]
  rfl

/-- The arguments that a finished item sends: those of a call that had none before. -/
def itemArguments (s : ChatStream) (event : Value) (item : List (String × Value)) (done : Bool) :
    String :=
  let arguments := ((OrdMap.get "arguments" item).bind Value.asStr).getD ""
  if done ∧ (callAt s.toolCalls (s.eventIndex event "output_index")).arguments = "" then arguments
  else ""

/-- The name a `function_call` item gives. -/
def itemName (item : List (String × Value)) : Option String :=
  (OrdMap.get "name" item).bind Value.asStr

/-- The tool call after a `function_call` item. -/
def itemCall (s : ChatStream) (event : Value) (item : List (String × Value)) (done : Bool) :
    ChatCompletionStreamToolCall :=
  let call := callAt s.toolCalls (s.eventIndex event "output_index")
  { call with
    callId := call.callId.or
      (((OrdMap.get "call_id" item).or (OrdMap.get "id" item)).bind Value.asStr)
    name := call.name.or (itemName item)
    arguments := call.arguments ++ s.itemArguments event item done }

theorem processFunctionItem_eq (s : ChatStream) (event : Value) (item : List (String × Value))
    (done : Bool) :
    s.processFunctionItem event item done =
      s.store (s.eventIndex event "output_index") (s.itemCall event item done)
        (s.itemArguments event item done) := by
  -- The code writes the same call in two ways, by whether it sends the arguments of the item.
  have hcall : s.itemCall event item done =
      (let call := callAt s.toolCalls (s.eventIndex event "output_index")
       let arguments := ((OrdMap.get "arguments" item).bind Value.asStr).getD ""
       let call := { call with
         callId := call.callId.or
           (((OrdMap.get "call_id" item).or (OrdMap.get "id" item)).bind Value.asStr)
         name := call.name.or (itemName item) }
       if done && decide (arguments ≠ "") && decide (call.arguments = "") then
         { call with arguments }
       else call) := by
    simp only [itemCall, itemArguments]
    split_ifs <;> simp_all
  have hfragment : s.itemArguments event item done =
      (let arguments := ((OrdMap.get "arguments" item).bind Value.asStr).getD ""
       if done && decide (arguments ≠ "") &&
           decide ((callAt s.toolCalls (s.eventIndex event "output_index")).arguments = "") then
         arguments
       else "") := by
    simp only [itemArguments]
    split_ifs <;> simp_all
  rw [store_eq, hcall, hfragment, processFunctionItem]
  by_cases hemit : (done &&
      decide (((OrdMap.get "arguments" item).bind Value.asStr).getD "" ≠ "") &&
      decide ((callAt s.toolCalls (s.eventIndex event "output_index")).arguments = "")) = true
  · have hne : ((OrdMap.get "arguments" item).bind Value.asStr).getD "" ≠ "" := by
      simp only [Bool.and_eq_true, decide_eq_true_eq] at hemit
      exact hemit.1.2
    simp only [hemit, if_true, if_neg hne]
    unfold callAt at hemit
    simp only [hemit, if_true]
    rfl
  · simp only [hemit]
    unfold callAt at hemit
    simp only [hemit]
    rfl

theorem processOutputItem_spec (s : ChatStream) (event : Value) (done : Bool) :
    DeltaStep s.core (s.processOutputItem event done).2
      (s.processOutputItem event done).1.core := by
  unfold processOutputItem
  split
  · split
    · rw [processFunctionItem_eq]
      refine s.store_spec _ ?_ _
      rfl
    · split_ifs
      · split
        · dsimp only
          split_ifs
          · exact .refl _
          · exact s.sendText_spec _
        · exact .refl _
      · exact .refl _
    · exact .refl _
  · exact .refl _

/-- The tool call for an entry of a finished response. -/
def entryCall (s : ChatStream) (entry : ChatToolCall × ℕ) : ChatCompletionStreamToolCall :=
  { callAt s.toolCalls entry.2 with
    callId := some entry.1.id
    name := some entry.1.name
    arguments := entry.1.arguments }

theorem emitToolCall_eq (s : ChatStream) (entry : ChatToolCall × ℕ) :
    s.emitToolCall entry = s.store entry.2 (s.entryCall entry) entry.1.arguments := by
  rw [store_eq]
  rfl

theorem run_emitToolCall_spec (s : ChatStream) (entries : List (ChatToolCall × ℕ)) :
    DeltaStep s.core (Mealy.run emitToolCall s entries).2
      (Mealy.run emitToolCall s entries).1.core := by
  induction entries generalizing s with
  | nil => exact .refl _
  | cons entry entries ih =>
    have hentry : DeltaStep s.core (s.emitToolCall entry).2 (s.emitToolCall entry).1.core := by
      rw [emitToolCall_eq]
      refine s.store_spec _ ?_ _
      rfl
    exact hentry.trans (ih _)

theorem emitCompletedOutputIfNeeded_spec (s : ChatStream) (response : Option Value) :
    DeltaStep s.core (s.emitCompletedOutputIfNeeded response).2
      (s.emitCompletedOutputIfNeeded response).1.core := by
  unfold emitCompletedOutputIfNeeded
  split_ifs
  · exact .refl _
  · cases response with
    | none => exact .refl _
    | some response =>
      refine DeltaStep.trans ?_ (run_emitToolCall_spec _ _)
      split_ifs
      · exact .refl _
      · exact s.sendText_spec _

/-- **The first half of an event only sends deltas.** -/
theorem deltaStep_spec (s : ChatStream) (event : Value) :
    DeltaStep s.core (s.deltaStep event).2 (s.deltaStep event).1.core := by
  unfold deltaStep
  rw [← s.setEventMetadata_core event]
  cases responsesKind event with
  | text => exact processTextDelta_spec _ _
  | arguments =>
    dsimp only
    rw [processFunctionArgumentsDelta_eq]
    refine store_spec _ _ ?_ _
    rfl
  | item done => exact processOutputItem_spec _ _ _
  | completed => exact emitCompletedOutputIfNeeded_spec _ _
  | failed => exact .refl _
  | other => exact .refl _

end ChatStream

/-! ### Anthropic events -/

/-- What an Anthropic event is about. -/
inductive MessagesKind where
  | start
  | blockStart
  | blockDelta
  | messageDelta
  | stop
  | failed
  | other
  deriving DecidableEq

/-- The kind of an Anthropic event. -/
def messagesKind (event : Value) : MessagesKind :=
  match (event.get "type").bind Value.asStr with
  | some "message_start" => .start
  | some "content_block_start" => .blockStart
  | some "content_block_delta" => .blockDelta
  | some "message_delta" => .messageDelta
  | some "message_stop" => .stop
  | some "error" => .failed
  | _ => .other

namespace MessagesStream

/-- The first half of an event: the deltas it sends. -/
def deltaStep (backendModel publicModel : Option String) (s : MessagesStream) (event : Value) :
    MessagesStream × List ChatFrame :=
  let s := s.setMetadata backendModel publicModel event
  match messagesKind event with
  | .blockStart => s.processContentBlockStart event
  | .blockDelta => s.processContentBlockDelta event
  | .messageDelta => (s.processMessageDelta event, [])
  | .start | .stop | .failed | .other => (s, [])

/-- The second half of an event: whether it closes the stream. -/
def closeStep (usage : UsageTotals) (usageObjectCount : ℕ) (s : MessagesStream) (event : Value) :
    MessagesStream × List ChatFrame :=
  match messagesKind event with
  | .stop => s.finishResponse usage usageObjectCount
  | .failed => s.errorFrame event
  | _ => (s, [])

theorem processEvent_eq (backendModel publicModel : Option String) (usage : UsageTotals)
    (usageObjectCount : ℕ) (s : MessagesStream) (event : Value) :
    (s.setMetadata backendModel publicModel event).processEvent usage usageObjectCount event =
      let r := s.deltaStep backendModel publicModel event
      let r' := r.1.closeStep usage usageObjectCount event
      (r'.1, r.2 ++ r'.2) := by
  rw [processEvent]
  split <;> rename_i htype <;>
    simp only [deltaStep, closeStep, messagesKind, htype, List.append_nil, List.nil_append]

theorem setMetadata_core (backendModel publicModel : Option String) (s : MessagesStream)
    (event : Value) : (s.setMetadata backendModel publicModel event).core = s.core := by
  unfold setMetadata
  cases event.get "message" <;> dsimp only <;> split <;> first | rfl | (split_ifs <;> rfl)

/-- The tool call that a `tool_use` block opens. -/
def blockCall (s : MessagesStream) (event : Value) (contentBlock : List (String × Value)) :
    ChatCompletionStreamToolCall :=
  { callAt s.toolCalls (s.eventIndex event) with
    callId := ((OrdMap.get "id" contentBlock).bind Value.asStr).or
      (some (syntheticCallId (s.eventIndex event)))
    name := (OrdMap.get "name" contentBlock).bind Value.asStr }

/-- The tool call after a fragment of its input. -/
def fragmentCall (s : MessagesStream) (event : Value) (fragment : String) :
    ChatCompletionStreamToolCall :=
  let call := callAt s.toolCalls (s.eventIndex event)
  { call with arguments := call.arguments ++ fragment }

theorem processContentBlockStart_tool (s : MessagesStream) {event : Value}
    {block : List (String × Value)}
    (hblock : (event.get "content_block").bind Value.asObject = some block)
    (htype : (OrdMap.get "type" block).bind Value.asStr = some "tool_use") :
    s.processContentBlockStart event =
      s.store (s.eventIndex event) (s.blockCall event block) "" := by
  rw [processContentBlockStart, hblock]
  simp only [htype]
  exact s.announceToolCallIfReady_eq _ _

/-- The fragment of input in a delta. -/
def inputFragment (delta : List (String × Value)) : String :=
  ((OrdMap.get "partial_json" delta).bind Value.asStr).getD ""

theorem processContentBlockDelta_input (s : MessagesStream) {event : Value}
    {delta : List (String × Value)} (hdelta : (event.get "delta").bind Value.asObject = some delta)
    (htype : (OrdMap.get "type" delta).bind Value.asStr = some "input_json_delta") :
    s.processContentBlockDelta event =
      if inputFragment delta = "" then (s, [])
      else s.store (s.eventIndex event) (s.fragmentCall event (inputFragment delta))
        (inputFragment delta) := by
  rw [processContentBlockDelta, hdelta]
  simp only [htype]
  by_cases h : inputFragment delta = ""
  · rw [if_pos h]
    exact if_pos h
  · rw [if_neg h]
    simp only [store_eq, if_neg h]
    exact if_neg h

theorem processContentBlockStart_spec (s : MessagesStream) (event : Value) :
    DeltaStep s.core (s.processContentBlockStart event).2
      (s.processContentBlockStart event).1.core := by
  unfold processContentBlockStart
  dsimp only
  split
  · split
    · rw [announceToolCallIfReady_eq]
      refine s.store_spec _ ?_ _
      rfl
    · exact .refl _
  · exact .refl _

theorem processContentBlockDelta_spec (s : MessagesStream) (event : Value) :
    DeltaStep s.core (s.processContentBlockDelta event).2
      (s.processContentBlockDelta event).1.core := by
  cases hdelta : (event.get "delta").bind Value.asObject with
  | none =>
    rw [processContentBlockDelta, hdelta]
    exact .refl _
  | some delta =>
    by_cases htype : (OrdMap.get "type" delta).bind Value.asStr = some "input_json_delta"
    · rw [s.processContentBlockDelta_input hdelta htype]
      split_ifs
      · exact .refl _
      · refine s.store_spec _ ?_ _
        rfl
    · rw [processContentBlockDelta, hdelta]
      dsimp only
      split
      · split_ifs
        · exact .refl _
        · exact .content s.core s.head _ s.emitUsageToClient
      · contradiction
      · exact .refl _

/-- **The first half of an event only sends deltas.** -/
theorem deltaStep_spec (backendModel publicModel : Option String) (s : MessagesStream)
    (event : Value) :
    DeltaStep s.core (s.deltaStep backendModel publicModel event).2
      (s.deltaStep backendModel publicModel event).1.core := by
  unfold deltaStep
  rw [← s.setMetadata_core backendModel publicModel event]
  cases messagesKind event with
  | blockStart => exact processContentBlockStart_spec _ _
  | blockDelta => exact processContentBlockDelta_spec _ _
  | messageDelta =>
    dsimp only
    unfold processMessageDelta
    split <;> exact .refl _
  | _ => exact .refl _

end MessagesStream

/-! ### Signals -/

/-- What a chat stream is told: an event, or that the upstream stream has ended. -/
inductive ChatSignal where
  | event (event : Value)
  | stop
  deriving DecidableEq

/-- One signal. -/
def ChatStream.signal (s : ChatStream) : ChatSignal → ChatStream × List ChatFrame
  | .event event => s.processResponseEvent event
  | .stop => s.finishStream

/-- The signals of a frame: an event with its models rewritten, or the end marker. -/
def frameSignals (o : SseObserver) : SseFrame → List ChatSignal
  | .data value _ _ => [.event (o.rewritten value)]
  | .done _ => [.stop]
  | _ => []

/-- The signals of a whole stream; its end is one. -/
def chatSignals (o : SseObserver) (fs : List SseFrame) : List ChatSignal :=
  fs.flatMap (frameSignals o) ++ [.stop]

/-- What a chat stream made from Anthropic events is told, with the usage counted by then. -/
inductive MessagesSignal where
  | event (usage : UsageTotals) (usageObjectCount : ℕ) (event : Value)
  | stop (usage : UsageTotals) (usageObjectCount : ℕ)
  deriving DecidableEq

/-- One signal. -/
def MessagesStream.signal (backendModel publicModel : Option String) (s : MessagesStream) :
    MessagesSignal → MessagesStream × List ChatFrame
  | .event usage count event =>
    (s.setMetadata backendModel publicModel event).processEvent usage count event
  | .stop usage count => s.finishStream usage count

/-- The observer after a frame. -/
def SseObserver.observeMessages (o : SseObserver) : SseFrame → SseObserver
  | .event name _ => o.observeEvent name
  | .data value _ _ => o.observeUsage (AnthropicMessagesToChatSseNormalizer.rewriteEvent o value)
  | .dataUnparseable _ | .done _ => o.clearEvent
  | .passThrough _ => o

/-- The signals of a frame. -/
def messagesFrameSignals (o : SseObserver) : SseFrame → List MessagesSignal
  | .data value leadingSpace line =>
    let o' := o.observeMessages (.data value leadingSpace line)
    [.event o'.usage o'.diagnostics.usageObjectCount
      (AnthropicMessagesToChatSseNormalizer.rewriteEvent o value)]
  | .done _ => [.stop o.usage o.diagnostics.usageObjectCount]
  | _ => []

/-- The signals of a whole stream; its end is one. -/
def messagesSignals (o : SseObserver) : List SseFrame → List MessagesSignal
  | [] => [.stop o.usage o.diagnostics.usageObjectCount]
  | f :: fs => messagesFrameSignals o f ++ messagesSignals (o.observeMessages f) fs

/-- The frames a client is sent for an upstream stream of Responses events. -/
def chatFrames (o : SseObserver) (emit : Bool) (fs : List SseFrame) : List ChatFrame :=
  (Mealy.run ChatStream.signal { emitUsageToClient := emit } (chatSignals o fs)).2

/-- The frames a client is sent for an upstream stream of Anthropic events. -/
def messagesFrames (o : SseObserver) (emit : Bool) (fs : List SseFrame) : List ChatFrame :=
  (Mealy.run (MessagesStream.signal o.backendModel o.publicModel) { emitUsageToClient := emit }
    (messagesSignals o fs)).2

theorem run_handleFrame_chat (n : ChatCompletionsSseNormalizer) (fs : List SseFrame) :
    let r := Mealy.run ChatCompletionsSseNormalizer.handleFrame n fs
    let r' := Mealy.run ChatStream.signal n.stream (fs.flatMap (frameSignals n.observer))
    r.1.stream = r'.1 ∧ r.2 = r'.2.map .chat := by
  induction fs generalizing n with
  | nil => exact ⟨rfl, rfl⟩
  | cons f fs ih =>
    have hrewritten : ∀ o : SseObserver, o.backendModel = n.observer.backendModel →
        o.publicModel = n.observer.publicModel → frameSignals o = frameSignals n.observer := by
      intro o hb hp
      funext f
      cases f <;> simp only [frameSignals, SseObserver.rewritten_congr hb hp]
    have hf : frameSignals (n.handleFrame f).1.observer = frameSignals n.observer := by
      cases f <;> exact hrewritten _ rfl rfl
    have hstep : (n.handleFrame f).1.stream =
          (Mealy.run ChatStream.signal n.stream (frameSignals n.observer f)).1 ∧
        (n.handleFrame f).2 =
          (Mealy.run ChatStream.signal n.stream (frameSignals n.observer f)).2.map .chat := by
      cases f with
      | data value leadingSpace line =>
        simp only [frameSignals, Mealy.run_singleton]
        exact ⟨rfl, rfl⟩
      | done line =>
        simp only [frameSignals, Mealy.run_singleton]
        exact ⟨rfl, rfl⟩
      | _ => exact ⟨rfl, rfl⟩
    have := ih (n.handleFrame f).1
    rw [hf, hstep.1] at this
    simp only [List.flatMap_cons, Mealy.run_append, Mealy.run_cons, List.map_append, hstep.2]
    exact ⟨this.1, by rw [this.2]⟩

/-- **The output of the conversion from Responses events**, in any chunks. -/
theorem runAll_chat (c : Codec) (backendModel publicModel : Option String) (emit : Bool)
    (chunks : List Bytes) :
    ((SseStrategy.new .chatCompletionsViaResponses backendModel publicModel emit).runAll c
        chunks).2 =
      (chatFrames { backendModel, publicModel } emit (frames c chunks.flatten)).map .chat := by
  obtain ⟨h1, h2⟩ := run_handleFrame_chat { observer := { backendModel, publicModel }, stream :=
    { emitUsageToClient := emit } } (frames c chunks.flatten)
  rw [SseStrategy.runAll_eq, chatFrames, chatSignals, Mealy.run_append, Mealy.run_singleton]
  simp only [SseStrategy.new, SseStrategy.handleAll, ChatCompletionsSseNormalizer.finishTail,
    List.map_append, h1, h2]
  rfl

theorem run_handleFrame_messages (n : AnthropicMessagesToChatSseNormalizer)
    (fs : List SseFrame) :
    let r := Mealy.run AnthropicMessagesToChatSseNormalizer.handleFrame n fs
    let r' := Mealy.run (MessagesStream.signal n.observer.backendModel n.observer.publicModel)
      n.stream (messagesSignals n.observer fs)
    r'.2.map .chat = r.2 ++ r.1.finishTail.2 := by
  induction fs generalizing n with
  | nil =>
    simp only [messagesSignals, Mealy.run_singleton, Mealy.run_nil, List.nil_append]
    rfl
  | cons f fs ih =>
    have hf : (n.handleFrame f).1.observer = n.observer.observeMessages f := by
      cases f <;> rfl
    have hmodels : (n.observer.observeMessages f).backendModel = n.observer.backendModel ∧
        (n.observer.observeMessages f).publicModel = n.observer.publicModel := by
      cases f with
      | data value leadingSpace line =>
        simp only [SseObserver.observeMessages, SseObserver.observeUsage]
        split <;> exact ⟨rfl, rfl⟩
      | _ => exact ⟨rfl, rfl⟩
    have hstep : (n.handleFrame f).1.stream =
          (Mealy.run (MessagesStream.signal n.observer.backendModel n.observer.publicModel)
            n.stream (messagesFrameSignals n.observer f)).1 ∧
        (n.handleFrame f).2 =
          (Mealy.run (MessagesStream.signal n.observer.backendModel n.observer.publicModel)
            n.stream (messagesFrameSignals n.observer f)).2.map .chat := by
      cases f with
      | data value leadingSpace line =>
        simp only [messagesFrameSignals, Mealy.run_singleton]
        exact ⟨rfl, rfl⟩
      | done line =>
        simp only [messagesFrameSignals, Mealy.run_singleton]
        exact ⟨rfl, rfl⟩
      | _ => exact ⟨rfl, rfl⟩
    have := ih (n.handleFrame f).1
    rw [hf, hmodels.1, hmodels.2, hstep.1] at this
    simp only [messagesSignals, Mealy.run_append, Mealy.run_cons, List.map_append, hstep.2,
      List.append_assoc] at this ⊢
    rw [this]

/-- **The output of the conversion from Anthropic events**, in any chunks. -/
theorem runAll_messages (c : Codec) (backendModel publicModel : Option String) (emit : Bool)
    (chunks : List Bytes) :
    ((SseStrategy.new .chatCompletionsViaMessages backendModel publicModel emit).runAll c
        chunks).2 =
      (messagesFrames { backendModel, publicModel } emit (frames c chunks.flatten)).map .chat := by
  have h := run_handleFrame_messages { observer := { backendModel, publicModel }, stream :=
    { emitUsageToClient := emit } } (frames c chunks.flatten)
  rw [SseStrategy.runAll_eq, messagesFrames, h]
  rfl

end Onair
