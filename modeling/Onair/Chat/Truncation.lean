import Onair.Chat.Failure
import Onair.Core.Buffered
import Onair.Lib.Json.RoundTrip

/-!
# Truncated completions

A completion that was cut off says so: chat completions by the finish reason `length`, responses by
the status `incomplete`, Anthropic messages by the stop reason `max_tokens`.

* `RequestMode.reportsTruncated`, `RequestMode.showsTruncated`: what the upstream reports of a whole
  completion, and what the client is told;
* `RequestMode.streamReportsTruncated`, `clientSeesTruncated`: the same of a stream;
* `ChatStream.shows_run`, `MessagesStream.shows_run`: what a client is told of a stream, from the
  upstream events;
* `truncation_iff`: **where the two agree**.
-/

namespace Onair

open Json Text

/-! ### Whole completions -/

/-- Some choice of a chat completion or of a chunk ended at a length limit. -/
def endsAtLength (value : Value) : Bool :=
  (((value.get "choices").bind Value.asArray).getD []).any fun choice =>
    (choice.get "finish_reason").bind Value.asStr = some "length"

/-- The status of a response is `incomplete`. -/
def isIncomplete (response : Value) : Bool :=
  (response.get "status").bind Value.asStr = some "incomplete"

/-- Some item of an output is a tool call. -/
def outputCalls (output : Option Value) : Bool :=
  ((output.bind Value.asArray).getD []).any fun item =>
    (item.get "type").bind Value.asStr = some "function_call"

namespace RequestMode

/-- The upstream reports a truncated completion. -/
def reportsTruncated (mode : RequestMode) (completion : Value) : Bool :=
  match mode with
  | .responsesViaChatCompletions => endsAtLength completion
  | .chatCompletionsViaResponses => isIncomplete completion
  | .chatCompletionsViaMessages =>
    (completion.get "stop_reason").bind Value.asStr = some "max_tokens"
  | .native | .anthropicMessagesNative => false

/-- The client is told of a truncated completion. -/
def showsTruncated (mode : RequestMode) (completion : Value) : Bool :=
  match mode with
  | .responsesViaChatCompletions => isIncomplete completion
  | .chatCompletionsViaResponses | .chatCompletionsViaMessages => endsAtLength completion
  | .native | .anthropicMessagesNative => false

/-- A truncated completion that is converted into one that is not: any chat completion, and a
response with a tool call. -/
def losesTruncation (mode : RequestMode) (completion : Value) : Bool :=
  mode.reportsTruncated completion && match mode with
    | .responsesViaChatCompletions => true
    | .chatCompletionsViaResponses => outputCalls (completion.get "output")
    | _ => false

end RequestMode

theorem responseItemToChatMessage_calls (message : String × List ChatToolCall)
    (item : Value × ℕ) :
    (responseItemToChatMessage message item).2.isEmpty = (message.2.isEmpty &&
      !((item.1.get "type").bind Value.asStr = some "function_call")) := by
  unfold responseItemToChatMessage
  split
  · rename_i object hitem
    simp only [hitem, Value.get_object]
    split
    · rename_i htype
      split_ifs
      · split <;> simp [htype]
      · simp [htype]
    · rename_i htype
      simp [htype]
    · rename_i hnot
      rw [decide_eq_false hnot, Bool.not_false, Bool.and_true]
  · rename_i hno
    have hget : item.1.get "type" = none := by
      cases hv : item.1 with
      | object m => exact absurd hv (hno m)
      | _ => rfl
    simp [hget]

/-- **A chat message has tool calls if and only if the output has.** -/
theorem responseOutputToChatMessage_calls (output : Option Value) :
    (responseOutputToChatMessage output).2.isEmpty = !outputCalls output := by
  have hfold : ∀ (items : List (Value × ℕ)) (message : String × List ChatToolCall),
      (items.foldl responseItemToChatMessage message).2.isEmpty = (message.2.isEmpty &&
        !(items.any fun item => (item.1.get "type").bind Value.asStr = some "function_call")) := by
    intro items
    induction items with
    | nil => simp
    | cons item items ih =>
      intro message
      rw [List.foldl_cons, ih, responseItemToChatMessage_calls, List.any_cons, Bool.not_or,
        Bool.and_assoc]
  unfold responseOutputToChatMessage outputCalls
  cases output.bind Value.asArray with
  | none => rfl
  | some items =>
    rw [Option.getD_some]
    dsimp only
    rw [hfold]
    have hany := List.any_map (f := Prod.fst) (l := items.zipIdx)
      (p := fun item : Value => decide ((item.get "type").bind Value.asStr = some "function_call"))
    rw [List.zipIdx_map_fst] at hany
    simp [hany, Function.comp_def]

namespace KeepsReading

variable {f : Value → Value} (hf : KeepsReading f)

include hf

theorem isIncomplete (v : Value) : isIncomplete (f v) = Onair.isIncomplete v := by
  rw [Onair.isIncomplete, hf.str (by decide) (by decide), Onair.isIncomplete]

theorem endsAtLength (v : Value) : endsAtLength (f v) = Onair.endsAtLength v := by
  have hchoices : ((f v).get "choices").bind Value.asArray =
      ((v.get "choices").bind Value.asArray).map (List.map f) := by
    rw [hf.get _ v (by decide) (by decide), Option.bind_map, Option.map_bind]
    exact Option.bind_congr fun w _ => hf.asArray w
  rw [Onair.endsAtLength, hchoices, Onair.endsAtLength]
  cases (v.get "choices").bind Value.asArray with
  | none => rfl
  | some choices =>
    simp only [Option.map_some, Option.getD_some, List.any_map, Function.comp_def,
      hf.str (k := "finish_reason") (by decide) (by decide)]

theorem outputCalls (output : Option Value) :
    outputCalls (output.map f) = Onair.outputCalls output := by
  have h := congrArg (fun message => message.2.isEmpty) (hf.outputToMessage output)
  simpa only [responseOutputToChatMessage_calls, Bool.not_inj_iff] using h

end KeepsReading

theorem isIncomplete_chatCompletionToResponse (c : Codec) (v : Value) :
    isIncomplete (chatCompletionToResponse c v) = false := by
  cases v with
  | object m => simp [chatCompletionToResponse, isIncomplete, Value.get_obj]
  | _ => rfl

theorem endsAtLength_chatCompletion (id : String) (created : UInt64) (model message usage : Value)
    (reason : FinishReason) :
    endsAtLength (chatCompletion id created model message reason usage) =
      decide (reason = .length) := by
  have hchoice : ∀ text : String, ((Value.obj [("index", indexValue 0), ("message", message),
      ("finish_reason", .string text)]).get "finish_reason").bind Value.asStr = some text := by
    intro text
    simp [Value.get_obj]
  simp only [endsAtLength, chatCompletion, Value.get_obj]
  cases reason <;> simp [hchoice, FinishReason.text, Value.asArray]

theorem endsAtLength_responseToChatCompletion (v : Value) :
    endsAtLength (responseToChatCompletion v) =
      (isIncomplete v && !outputCalls (v.get "output")) := by
  cases v with
  | object m =>
    have hcalls := responseOutputToChatMessage_calls (OrdMap.get "output" m)
    rw [responseToChatCompletion]
    dsimp only
    rw [endsAtLength_chatCompletion, hcalls, Bool.not_not]
    cases houtput : outputCalls (OrdMap.get "output" m) <;>
      by_cases hstatus : (OrdMap.get "status" m).bind Value.asStr = some "incomplete" <;>
      simp [responseFinishReason, isIncomplete, houtput, hstatus]
  | _ => rfl

/-- A stop reason is taken for a length limit if and only if it is `max_tokens`. -/
theorem chatFinishReason_eq_length (stopReason : String) :
    chatFinishReasonFromAnthropicStopReason stopReason = .length ↔ stopReason = "max_tokens" := by
  unfold chatFinishReasonFromAnthropicStopReason
  split <;> simp_all

theorem endsAtLength_anthropicMessageToChatCompletion (c : Codec) (v : Value) :
    endsAtLength (anthropicMessageToChatCompletion c v) =
      decide ((v.get "stop_reason").bind Value.asStr = some "max_tokens") := by
  cases v with
  | object m =>
    rw [anthropicMessageToChatCompletion]
    dsimp only
    rw [endsAtLength_chatCompletion, anthropicFinishReason, Value.get_object]
    cases (OrdMap.get "stop_reason" m).bind Value.asStr with
    | none => rfl
    | some stopReason => simp [chatFinishReason_eq_length]
  | _ => rfl

theorem get_rewriteAnthropic (backendModel publicModel : Option String) (v : Value) {k : String}
    (hk : k ≠ "model") :
    (withModels backendModel publicModel rewriteAnthropicMessagesResponseBodyValue v).get k =
      v.get k := by
  have heq : withModels backendModel publicModel rewriteAnthropicMessagesResponseBodyValue v =
      AnthropicMessagesToChatSseNormalizer.rewriteEvent { backendModel, publicModel } v := by
    cases backendModel <;> cases publicModel <;> cases v <;> rfl
  rw [heq, get_rewriteEvent _ v hk]

/-- **What a client is told of a whole completion.** -/
theorem showsTruncated_convertResponse (c : Codec) (backendModel publicModel : Option String)
    (mode : RequestMode) (completion : Value) :
    mode.showsTruncated (convertResponse c backendModel publicModel mode completion) =
      (mode.reportsTruncated completion && !mode.losesTruncation completion) := by
  have hensure := keepsReading_ensureUsageTotalTokens
  have hmodels : KeepsReading (withModels backendModel publicModel rewriteResponseModels) := by
    cases backendModel with
    | none => exact keepsReading_id
    | some b =>
      cases publicModel with
      | none => exact keepsReading_id
      | some p => exact keepsReading_rewriteResponseModels b p
  cases mode with
  | native => rfl
  | anthropicMessagesNative => rfl
  | responsesViaChatCompletions =>
    simp only [RequestMode.showsTruncated, RequestMode.losesTruncation, convertResponse,
      hensure.isIncomplete, isIncomplete_chatCompletionToResponse]
    simp
  | chatCompletionsViaResponses =>
    simp only [RequestMode.showsTruncated, RequestMode.losesTruncation, convertResponse,
      RequestMode.reportsTruncated, hensure.endsAtLength, endsAtLength_responseToChatCompletion,
      hmodels.isIncomplete, hmodels.get "output" completion (by decide) (by decide),
      hmodels.outputCalls]
    cases isIncomplete completion <;> simp
  | chatCompletionsViaMessages =>
    simp only [RequestMode.showsTruncated, RequestMode.losesTruncation, convertResponse,
      RequestMode.reportsTruncated, hensure.endsAtLength,
      endsAtLength_anthropicMessageToChatCompletion,
      get_rewriteAnthropic backendModel publicModel completion (k := "stop_reason") (by decide)]
    simp

/-! ### Streams -/

/-- A chunk whose finish reason is `length`. -/
def ChatFrame.isLength : ChatFrame → Bool
  | .chunk _ _ (some .length) _ => true
  | _ => false

theorem ChatFrame.not_length_of_not_finish {f : ChatFrame} (h : f.isFinish = false) :
    f.isLength = false := by
  cases f with
  | chunk head delta reason u => cases reason <;> simp_all [isFinish, isLength]
  | _ => rfl

/-- The status of the response an event carries. -/
def ResponsesEvent.status (e : ResponsesEvent) : Option String :=
  ((e.data.get "response").bind fun response => response.get "status").bind Value.asStr

/-- One piece of output tells of a truncated completion. -/
def SseOut.showsTruncated : SseOut → Bool
  | .event e => e.status = some "incomplete"
  | .chat f => f.isLength
  | _ => false

/-- A client reads of a truncated completion; it reads until the end marker. -/
def clientSeesTruncated (out : List SseOut) : Bool :=
  (out.takeWhile fun o => o ≠ .chat .done).any SseOut.showsTruncated

/-- The stop reason of a `message_delta`. -/
def stopReason (event : Value) : Option String :=
  ((event.get "delta").bind fun delta => delta.get "stop_reason").bind Value.asStr

/-- The first end of a Responses stream is a response that is `incomplete`. -/
def endsIncomplete : List SseFrame → Bool
  | [] => false
  | .data value _ _ :: fs =>
    match responsesKind value with
    | .completed => ((value.get "response").map isIncomplete).getD false
    | .failed => false
    | _ => endsIncomplete fs
  | .done _ :: _ => false
  | _ :: fs => endsIncomplete fs

/-- The last stop reason before the first end of an Anthropic stream is `max_tokens`, and that end
is no error; `atLimit` says what the last one was so far. -/
def endsAtLimit (atLimit : Bool) : List SseFrame → Bool
  | [] => atLimit
  | .data value _ _ :: fs =>
    match messagesKind value with
    | .messageDelta =>
      endsAtLimit (((stopReason value).map fun r => decide (r = "max_tokens")).getD atLimit) fs
    | .stop => atLimit
    | .failed => false
    | _ => endsAtLimit atLimit fs
  | .done _ :: _ => atLimit
  | _ :: fs => endsAtLimit atLimit fs

/-- The event is about a tool call. -/
def aboutCall (event : Value) : Bool :=
  match responsesKind event with
  | .arguments => true
  | .item _ => ((event.get "item").bind fun item => item.get "type").bind Value.asStr =
      some "function_call"
  | _ => false

/-- The text that an event has for the client: a delta, or that of a finished message. -/
def eventText (event : Value) : String :=
  match responsesKind event with
  | .text => ((event.get "delta").bind Value.asStr).getD ""
  | .item true =>
    if ((event.get "item").bind fun item => item.get "type").bind Value.asStr = some "message" then
      (((event.get "item").bind fun item => item.get "content").map
        responsesMessageContentToChatText).getD ""
    else ""
  | _ => ""

/-- Before its first end a Responses stream has a tool call, or it ends with a response that has one
and nothing was sent of it; `text` says whether text was sent. -/
def streamCalls (text : Bool) : List SseFrame → Bool
  | [] => false
  | .data value _ _ :: fs =>
    match responsesKind value with
    | .completed => !text && outputCalls ((value.get "response").bind fun r => r.get "output")
    | .failed => false
    | _ => aboutCall value || streamCalls (text || decide (eventText value ≠ "")) fs
  | .done _ :: _ => false
  | _ :: fs => streamCalls text fs

/-- The first end of an Anthropic stream is an end marker or the end of the stream, before a message
was begun. -/
def endsUnbegun (begun : Bool) : List SseFrame → Bool
  | [] => !begun
  | .data value _ _ :: fs =>
    match messagesKind value with
    | .stop | .failed => false
    | _ => endsUnbegun (begun || RequestMode.chatCompletionsViaMessages.beginsMessage value) fs
  | .done _ :: _ => !begun
  | _ :: fs => endsUnbegun begun fs

namespace RequestMode

/-- The upstream reports a truncated stream. -/
def streamReportsTruncated (mode : RequestMode) (fs : List SseFrame) : Bool :=
  match mode with
  | .responsesViaChatCompletions =>
    (fs.takeWhile fun f => !f matches .done _).any fun
      | .data value _ _ => endsAtLength value
      | _ => false
  | .chatCompletionsViaResponses => endsIncomplete fs
  | .chatCompletionsViaMessages => endsAtLimit false fs
  | .native | .anthropicMessagesNative => false

/-- A truncated stream that is converted into one that is not: any chat stream, a Responses stream
with a tool call, and an Anthropic stream that ends before a message was begun. -/
def streamLosesTruncation (mode : RequestMode) (fs : List SseFrame) : Bool :=
  mode.streamReportsTruncated fs && match mode with
    | .responsesViaChatCompletions => true
    | .chatCompletionsViaResponses => streamCalls false fs
    | .chatCompletionsViaMessages => endsUnbegun false fs
    | .native | .anthropicMessagesNative => false

end RequestMode

/-! ### Responses streams -/

/-- Looking up a field through the object is looking it up in the value. -/
theorem bind_asObject_get (v : Option Value) (k : String) :
    ((v.bind Value.asObject).bind fun object => OrdMap.get k object) =
      v.bind fun value => value.get k := by
  cases v with
  | none => rfl
  | some v => cases v <;> rfl

namespace ChatStream

theorem store_calls (s : ChatStream) (index : ℕ) (call : ChatCompletionStreamToolCall)
    (fragment : String) :
    (s.store index call fragment).1.toolCalls.isEmpty = false ∧
      (s.store index call fragment).1.textSent = s.textSent := by
  refine ⟨?_, rfl⟩
  simp only [store, storeCall, putCall]
  split <;> exact OrdMap.isEmpty_insert _ _ _

theorem deltaStep_calls (s : ChatStream) (event : Value) (h : responsesKind event ≠ .completed) :
    (s.deltaStep event).1.toolCalls.isEmpty = (s.toolCalls.isEmpty && !aboutCall event) ∧
      (s.deltaStep event).1.textSent = (s.textSent || decide (eventText event ≠ "")) := by
  obtain ⟨responseId, createdAt, model, hmeta⟩ := s.setEventMetadata_spec event
  have htype := bind_asObject_get (event.get "item") "type"
  have hcontent := bind_asObject_get (event.get "item") "content"
  rw [deltaStep, hmeta, aboutCall, eventText]
  cases hkind : responsesKind event with
  | text =>
    dsimp only
    unfold processTextDelta
    split
    · rename_i delta hdelta
      rw [hdelta]
      split_ifs with hempty <;> simp [hempty, sendText]
    · rename_i hdelta
      simp [hdelta]
  | arguments =>
    dsimp only
    rw [processFunctionArgumentsDelta_eq]
    simp [store_calls]
  | item done =>
    dsimp only
    unfold processOutputItem
    cases hitem : (event.get "item").bind Value.asObject with
    | none =>
      rw [hitem] at htype hcontent
      cases done <;> simp [← htype]
    | some item =>
      rw [hitem, Option.bind_some] at htype hcontent
      dsimp only
      rw [← htype, ← hcontent]
      split
      · rename_i hcall
        rw [processFunctionItem_eq]
        cases done <;> simp [store_calls, hcall]
      · rename_i hmessage
        cases done with
        | false => simp [hmessage]
        | true =>
          cases hsent : s.textSent with
          | true => simp [hmessage]
          | false =>
            cases OrdMap.get "content" item with
            | none => simp [hmessage]
            | some content =>
              by_cases hempty : responsesMessageContentToChatText content = "" <;>
                simp [hmessage, hempty, sendText]
      · rename_i hnot hnot'
        have hcall : ¬(OrdMap.get "type" item).bind Value.asStr = some "function_call" := hnot
        have hmessage : ¬(OrdMap.get "type" item).bind Value.asStr = some "message" := hnot'
        cases done <;> simp [hcall, hmessage]
  | completed => exact absurd hkind h
  | failed => simp
  | other => simp

theorem run_emitToolCall_calls (s : ChatStream) (entries : List (ChatToolCall × ℕ)) :
    (Mealy.run emitToolCall s entries).1.toolCalls.isEmpty =
      (s.toolCalls.isEmpty && entries.isEmpty) := by
  induction entries generalizing s with
  | nil => simp
  | cons entry entries ih =>
    rw [Mealy.run_cons]
    simp only [ih, emitToolCall_eq, (s.store_calls _ _ _).1]
    simp

theorem emitCompletedOutputIfNeeded_calls (s : ChatStream) (response : Option Value) :
    (s.emitCompletedOutputIfNeeded response).1.toolCalls.isEmpty = (s.toolCalls.isEmpty &&
      (s.textSent || !outputCalls (response.bind fun r => r.get "output"))) := by
  unfold emitCompletedOutputIfNeeded
  split_ifs with hsent
  · rcases Bool.or_eq_true_iff.mp hsent with htext | hcalls
    · simp [htext]
    · have hcalls' : s.toolCalls.isEmpty = false := by simpa using hcalls
      simp [hcalls']
  · simp only [Bool.or_eq_true, Bool.not_eq_true', not_or, Bool.not_eq_true,
      Bool.not_eq_false] at hsent
    cases response with
    | none => simp [hsent, outputCalls]
    | some response =>
      have hzip : ∀ l : List ChatToolCall, l.zipIdx.isEmpty = l.isEmpty := by
        intro l
        cases l <;> simp
      dsimp only
      rw [run_emitToolCall_calls, hzip, responseOutputToChatMessage_calls, Option.bind_some]
      split_ifs <;> simp [hsent, sendText]

end ChatStream

/-- A client reads of a length limit in a list of frames. -/
def showsLength (fs : List ChatFrame) : Bool :=
  (fs.takeWhile fun f => f ≠ .done).any ChatFrame.isLength

theorem clientSeesTruncated_map (fs : List ChatFrame) :
    clientSeesTruncated (fs.map .chat) = showsLength fs := by
  unfold clientSeesTruncated showsLength
  rw [List.takeWhile_map, List.any_map]
  simp [Function.comp_def, SseOut.showsTruncated]

theorem showsLength_append {out : List ChatFrame} (h : ∀ f ∈ out, f.isDelta = true)
    (fs : List ChatFrame) : showsLength (out ++ fs) = showsLength fs := by
  induction out with
  | nil => rfl
  | cons f out ih =>
    obtain ⟨hf, hout⟩ := List.forall_mem_cons.mp h
    have hne : f ≠ .done := by
      rintro rfl
      simp [ChatFrame.isDelta] at hf
    have hlength := ChatFrame.not_length_of_not_finish (ChatFrame.not_finish_of_delta hf)
    rw [List.cons_append, showsLength, List.takeWhile_cons_of_pos (by simpa using hne),
      List.any_cons, hlength, Bool.false_or]
    exact ih hout

theorem showsLength_eq_false {fs : List ChatFrame} (h : ∀ f ∈ fs, f.isFinish = false) :
    showsLength fs = false := by
  rw [showsLength, List.any_eq_false]
  intro f hf
  simpa using ChatFrame.not_length_of_not_finish (h f (List.takeWhile_subset _ hf))

/-- After a finish reason nothing but others can show a length limit. -/
theorem showsLength_finish (head : ChunkHead) (reason : FinishReason) (u : Bool)
    {fs : List ChatFrame} (h : ∀ f ∈ fs, f.isFinish = false) :
    showsLength (.chunk head .empty (some reason) u :: fs) = decide (reason = .length) := by
  rw [showsLength, List.takeWhile_cons_of_pos (by simp), List.any_cons]
  have hrest := showsLength_eq_false h
  rw [showsLength] at hrest
  rw [hrest]
  cases reason <;> rfl

namespace ChatStream

theorem finishReasonOf_eq_length (s : ChatStream) (response : Option Value) :
    s.finishReasonOf response = .length ↔
      (s.toolCalls.isEmpty && (response.map isIncomplete).getD false) = true := by
  unfold finishReasonOf
  cases response with
  | none => cases s.toolCalls.isEmpty <;> simp
  | some response =>
    cases response with
    | object m =>
      cases hcalls : s.toolCalls.isEmpty <;>
        by_cases hstatus : (OrdMap.get "status" m).bind Value.asStr = some "incomplete" <;>
        simp [Value.asObject, responseFinishReason, isIncomplete, hstatus]
    | _ => cases s.toolCalls.isEmpty <;> simp [Value.asObject, isIncomplete, Value.get]

end ChatStream

theorem SseObserver.aboutCall_rewritten (o : SseObserver) (v : Value) :
    aboutCall (o.rewritten v) = aboutCall v ∧ eventText (o.rewritten v) = eventText v := by
  have hf := o.keepsReading_rewritten
  have hitem := hf.get "item" v (by decide) (by decide)
  have hcontent : ((((v.get "item").map o.rewritten).bind fun item => item.get "content").map
      responsesMessageContentToChatText) =
      ((v.get "item").bind fun item => item.get "content").map
        responsesMessageContentToChatText := by
    cases v.get "item" with
    | none => rfl
    | some item =>
      rw [Option.map_some, Option.bind_some, Option.bind_some,
        hf.get "content" item (by decide) (by decide), Option.map_map]
      exact Option.map_congr fun content _ => hf.contentText content
  constructor
  · rw [aboutCall, responsesKind_rewritten, hitem, hf.str_map (by decide) (by decide), aboutCall]
  · rw [eventText, responsesKind_rewritten, hitem, hf.str_map (by decide) (by decide), hcontent,
      hf.str (by decide) (by decide), eventText]

theorem SseObserver.isIncomplete_rewritten (o : SseObserver) (v : Value) :
    (((o.rewritten v).get "response").map isIncomplete).getD false =
      ((v.get "response").map isIncomplete).getD false := by
  rw [o.get_rewritten (by decide) (by decide), Option.map_map]
  congr 1
  exact Option.map_congr fun r _ => o.keepsReading_rewritten.isIncomplete r

theorem SseObserver.outputCalls_rewritten (o : SseObserver) (v : Value) :
    outputCalls (((o.rewritten v).get "response").bind fun r => r.get "output") =
      outputCalls ((v.get "response").bind fun r => r.get "output") := by
  rw [o.get_rewritten (by decide) (by decide)]
  cases v.get "response" with
  | none => rfl
  | some r =>
    rw [Option.map_some, Option.bind_some, Option.bind_some,
      o.get_rewritten (by decide) (by decide), o.keepsReading_rewritten.outputCalls]

namespace ChatStream

theorem deltaStep_completed (s : ChatStream) {event : Value}
    (h : responsesKind event = .completed) :
    (s.deltaStep event).1.toolCalls.isEmpty = (s.toolCalls.isEmpty && (s.textSent ||
      !outputCalls ((event.get "response").bind fun r => r.get "output"))) := by
  obtain ⟨responseId, createdAt, model, hmeta⟩ := s.setEventMetadata_spec event
  rw [deltaStep, hmeta, h]
  dsimp only
  rw [emitCompletedOutputIfNeeded_calls]

theorem showsLength_finishResponse {s : ChatStream} (h : s.completed = false)
    (response : Option Value) {fs : List ChatFrame} (hfs : ∀ f ∈ fs, f.isFinish = false) :
    showsLength ((s.finishResponse response).2 ++ fs) =
      (s.toolCalls.isEmpty && (response.map isIncomplete).getD false) := by
  obtain ⟨head, usage, hout, husage, -⟩ := finishResponse_open h response
  have hrest : ∀ f ∈ usage ++ fs, f.isFinish = false := by
    refine List.forall_mem_append.mpr ⟨?_, hfs⟩
    obtain rfl | ⟨counts, rfl⟩ := husage
    · simp
    · simp [ChatFrame.isFinish]
  rw [hout, List.cons_append, showsLength_finish _ _ _ hrest, Bool.eq_iff_iff, decide_eq_true_iff,
    finishReasonOf_eq_length]

/-- **What a client is told of a Responses stream.** -/
theorem shows_run (o : SseObserver) (fs : List SseFrame) {s : ChatStream}
    (h : s.completed = false) (hdone : s.doneSent = false) :
    showsLength (Mealy.run signal s (chatSignals o fs)).2 =
      (s.toolCalls.isEmpty && (endsIncomplete fs && !streamCalls s.textSent fs)) := by
  have hstop : ∀ (s : ChatStream) (sigs : List ChatSignal), s.completed = false →
      showsLength ((s.signal .stop).2 ++ (Mealy.run signal (s.signal .stop).1 sigs).2) = false := by
    intro s sigs h
    have hrest := run_completed (s := (s.signal .stop).1) s.finishStream_flags.1 sigs
    rw [signal, finishStream, List.append_assoc, showsLength_finishResponse h]
    · simp
    · refine List.forall_mem_append.mpr ⟨?_, hrest⟩
      obtain ⟨-, hout⟩ := (s.finishResponse none).1.doneEvent_spec
      rw [hout]
      split_ifs <;> simp [ChatFrame.isFinish]
  induction fs generalizing s with
  | nil =>
    have := hstop s [] h
    simpa [chatSignals, Mealy.run_singleton, endsIncomplete] using this
  | cons f fs ih =>
    cases f with
    | data value leadingSpace line =>
      have hcons : chatSignals o (.data value leadingSpace line :: fs) =
          .event (o.rewritten value) :: chatSignals o fs := rfl
      have hkind := responsesKind_rewritten o value
      obtain ⟨hcall, htext⟩ := o.aboutCall_rewritten value
      rw [hcons, Mealy.run_cons]
      by_cases hcompleted : responsesKind value = .completed
      · have hspec := s.deltaStep_spec (o.rewritten value)
        have hopen : (s.deltaStep (o.rewritten value)).1.completed = false :=
          hspec.completed_eq.trans h
        have hsignal : s.signal (.event (o.rewritten value)) =
            (((s.deltaStep (o.rewritten value)).1.finishResponse
                ((o.rewritten value).get "response")).1, (s.deltaStep (o.rewritten value)).2 ++
              ((s.deltaStep (o.rewritten value)).1.finishResponse
                ((o.rewritten value).get "response")).2) := by
          rw [signal, processResponseEvent_eq, closeStep, hkind, hcompleted]
        obtain ⟨_, _, -, -, hcore⟩ := finishResponse_open hopen ((o.rewritten value).get "response")
        rw [hsignal, List.append_assoc, showsLength_append hspec.deltas,
          showsLength_finishResponse hopen _ (run_completed (congrArg ChatCore.completed hcore) _),
          deltaStep_completed s (hkind.trans hcompleted), o.outputCalls_rewritten,
          o.isIncomplete_rewritten, endsIncomplete, streamCalls, hcompleted]
        cases s.toolCalls.isEmpty <;> cases s.textSent <;>
          cases ((value.get "response").map isIncomplete).getD false <;> simp
      by_cases hfailed : responsesKind value = .failed
      · obtain ⟨-, hout⟩ := signal_failed h hdone (hkind.trans hfailed)
        rw [hout]
        simp [showsLength, endsIncomplete, hfailed, ChatFrame.isLength]
      · obtain ⟨h1, h2, h3⟩ := signal_open s (o.rewritten value)
          (by rwa [hkind]) (by rwa [hkind])
        have hends : endsIncomplete (.data value leadingSpace line :: fs) = endsIncomplete fs := by
          rw [endsIncomplete]
          cases hk : responsesKind value <;> simp_all
        have hcalls : streamCalls s.textSent (.data value leadingSpace line :: fs) =
            (aboutCall value || streamCalls (s.textSent || decide (eventText value ≠ "")) fs) := by
          rw [streamCalls]
          cases hk : responsesKind value <;> simp_all
        obtain ⟨hempty, hsent⟩ := s.deltaStep_calls (o.rewritten value) (by rwa [hkind])
        rw [showsLength_append h3, ih (h1.trans h) (h2.trans hdone), hends, hcalls,
          signal_eq_deltaStep (by rwa [hkind]) (by rwa [hkind]), hempty, hsent, hcall, htext]
        cases aboutCall value <;> simp
    | done line =>
      have hcons : chatSignals o (.done line :: fs) = .stop :: chatSignals o fs := rfl
      rw [hcons, Mealy.run_cons, hstop s _ h]
      simp [endsIncomplete]
    | _ => exact ih h hdone

end ChatStream

/-! ### Anthropic streams -/

theorem endsAtLimit_data (atLimit : Bool) {value : Value} (hstop : messagesKind value ≠ .stop)
    (hfailed : messagesKind value ≠ .failed) (leadingSpace : Bool) (line : Bytes)
    (fs : List SseFrame) :
    endsAtLimit atLimit (.data value leadingSpace line :: fs) =
      endsAtLimit (if messagesKind value = .messageDelta then
          ((stopReason value).map fun r => decide (r = "max_tokens")).getD atLimit
        else atLimit) fs := by
  rw [endsAtLimit]
  cases hkind : messagesKind value <;> simp_all

theorem endsUnbegun_data (begun : Bool) {value : Value} (hstop : messagesKind value ≠ .stop)
    (hfailed : messagesKind value ≠ .failed) (leadingSpace : Bool) (line : Bytes)
    (fs : List SseFrame) :
    endsUnbegun begun (.data value leadingSpace line :: fs) =
      endsUnbegun (begun || RequestMode.chatCompletionsViaMessages.beginsMessage value) fs := by
  rw [endsUnbegun]
  cases hkind : messagesKind value <;> simp_all

namespace MessagesStream

variable (backendModel publicModel : Option String)

theorem deltaStep_finishReason (s : MessagesStream) (event : Value) :
    (s.deltaStep backendModel publicModel event).1.finishReason =
      if messagesKind event = .messageDelta then
        ((stopReason event).map chatFinishReasonFromAnthropicStopReason).or s.finishReason
      else s.finishReason := by
  obtain ⟨messageId, model, hmeta⟩ := s.setMetadata_spec backendModel publicModel event
  rw [deltaStep, hmeta]
  cases messagesKind event with
  | blockStart =>
    obtain ⟨_, _, hframe⟩ := processContentBlockStart_frame { s with messageId, model } event
    simp [hframe]
  | blockDelta =>
    obtain ⟨_, _, _, hframe⟩ := processContentBlockDelta_frame { s with messageId, model } event
    simp [hframe]
  | messageDelta =>
    have hreason := bind_asObject_get (event.get "delta") "stop_reason"
    have hbind : (((event.get "delta").bind Value.asObject).bind fun delta =>
        (OrdMap.get "stop_reason" delta).bind Value.asStr) = stopReason event := by
      rw [stopReason, ← hreason]
      cases (event.get "delta").bind Value.asObject <;> rfl
    simp only [processMessageDelta, hbind, if_true]
    cases stopReason event <;> rfl
  | _ => simp

theorem showsLength_finishResponse {s : MessagesStream} (h : s.completed = false)
    (usage : UsageTotals) (count : ℕ) {fs : List ChatFrame}
    (hfs : ∀ f ∈ fs, f.isFinish = false) :
    showsLength ((s.finishResponse usage count).2 ++ fs) =
      decide (s.finishReason = some .length) := by
  have hreason : s.finishReasonOf = .length ↔ s.finishReason = some .length := by
    unfold finishReasonOf
    cases s.finishReason with
    | none => split_ifs <;> simp
    | some reason => simp
  have hrest : ∀ f ∈ (if s.emitUsageToClient && decide (count > 0) then
        [ChatFrame.usage s.head (.plain usage.input usage.output usage.total)] else []) ++
      ({ s with completed := true }.doneEvent.2 ++ fs), f.isFinish = false := by
    refine List.forall_mem_append.mpr ⟨?_, List.forall_mem_append.mpr ⟨?_, hfs⟩⟩
    · split_ifs <;> simp [ChatFrame.isFinish]
    · exact doneEvent_not_finish _
  have hout : (s.finishResponse usage count).2 ++ fs =
      .chunk s.head .empty (some s.finishReasonOf) s.emitUsageToClient ::
        ((if s.emitUsageToClient && decide (count > 0) then
          [ChatFrame.usage s.head (.plain usage.input usage.output usage.total)] else []) ++
        ({ s with completed := true }.doneEvent.2 ++ fs)) := by
    rw [finishResponse, if_neg (by rw [h]; decide)]
    simp only [List.cons_append, List.append_assoc]
    rfl
  rw [hout, showsLength_finish _ _ _ hrest, decide_eq_decide]
  exact hreason

theorem showsLength_stop {s : MessagesStream} (h : s.completed = false) (hdone : s.doneSent = false)
    (usage : UsageTotals) (count : ℕ) (sigs : List MessagesSignal) :
    let r := s.signal backendModel publicModel (.stop usage count)
    showsLength (r.2 ++ (Mealy.run (signal backendModel publicModel) r.1 sigs).2) =
      (decide (s.finishReason = some .length) && s.messageId.isSome) := by
  dsimp only
  cases hid : s.messageId.isSome with
  | true =>
    obtain ⟨_, _, -, -, hcore⟩ := finishResponse_open h hdone usage count
    have hcompleted : (s.finishResponse usage count).1.completed = true :=
      congrArg ChatCore.completed hcore
    have hdone' : (s.finishResponse usage count).1.doneEvent =
        ((s.finishResponse usage count).1, []) :=
      if_pos (congrArg ChatCore.doneSent hcore)
    have hsignal : s.signal backendModel publicModel (.stop usage count) =
        s.finishResponse usage count := by
      rw [signal, finishStream, if_pos hid]
      simp only [hdone', List.append_nil]
    rw [hsignal, showsLength_finishResponse h usage count
      (run_completed backendModel publicModel hcompleted sigs), Bool.and_true]
  | false =>
    have hsignal : (s.signal backendModel publicModel (.stop usage count)).2 = [.done] := by
      simp [signal, finishStream, Bool.eq_false_iff.mp hid, doneEvent, hdone]
    rw [hsignal]
    simp [showsLength]

/-- **What a client is told of an Anthropic stream.** -/
theorem shows_run (o : SseObserver) (fs : List SseFrame) {s : MessagesStream}
    (h : s.completed = false) (hdone : s.doneSent = false) :
    showsLength (Mealy.run (signal backendModel publicModel) s (messagesSignals o fs)).2 =
      (endsAtLimit (s.finishReason = some .length) fs && !endsUnbegun s.messageId.isSome fs) := by
  induction fs generalizing s o with
  | nil =>
    have hstop := showsLength_stop backendModel publicModel h hdone o.usage
      o.diagnostics.usageObjectCount []
    simp only [Mealy.run_nil, List.append_nil] at hstop
    rw [messagesSignals, Mealy.run_singleton, hstop, endsAtLimit, endsUnbegun, Bool.not_not]
  | cons f fs ih =>
    cases f with
    | data value leadingSpace line =>
      have hkind := messagesKind_rewriteEvent o value
      have hget := get_rewriteEvent o value (k := "message") (by decide)
      rw [messagesSignals, messagesFrameSignals, List.singleton_append, Mealy.run_cons]
      by_cases hfailed : messagesKind value = .failed
      · obtain ⟨hcompleted, -, hfinish⟩ := signal_failed (s := s) backendModel publicModel _ _
          (hkind.trans hfailed)
        rw [showsLength_eq_false (List.forall_mem_append.mpr
          ⟨hfinish, run_completed backendModel publicModel hcompleted _⟩)]
        simp [endsAtLimit, hfailed]
      have hspec := s.deltaStep_spec backendModel publicModel
        (AnthropicMessagesToChatSseNormalizer.rewriteEvent o value)
      have hreason := s.deltaStep_finishReason backendModel publicModel
        (AnthropicMessagesToChatSseNormalizer.rewriteEvent o value)
      have hopen := hspec.completed_eq.trans h
      by_cases hstop : messagesKind value = .stop
      · obtain ⟨_, _, -, -, hcore⟩ := finishResponse_open hopen (hspec.doneSent_eq.trans hdone)
          (o.observeMessages (.data value leadingSpace line)).usage
          (o.observeMessages (.data value leadingSpace line)).diagnostics.usageObjectCount
        rw [signal, processEvent_eq]
        simp only [closeStep, hkind, hstop, List.append_assoc]
        rw [showsLength_append hspec.deltas, showsLength_finishResponse hopen _ _
          (run_completed backendModel publicModel (congrArg ChatCore.completed hcore) _), hreason,
          if_neg (by simp [hkind, hstop])]
        simp [endsAtLimit, endsUnbegun, hstop]
      · obtain ⟨-, hid, hdeltas⟩ := signal_open (s := s) backendModel publicModel _ _
          (by rwa [hkind]) (by rwa [hkind])
        rw [showsLength_append hdeltas]
        rw [signal_eq_deltaStep _ _ _ _ (by rwa [hkind]) (by rwa [hkind])] at hid ⊢
        rw [ih _ hopen (hspec.doneSent_eq.trans hdone), hid, hreason, hkind, hget]
        have hlimit : decide ((if messagesKind value = .messageDelta then
              ((stopReason (AnthropicMessagesToChatSseNormalizer.rewriteEvent o value)).map
                chatFinishReasonFromAnthropicStopReason).or s.finishReason
            else s.finishReason) = some .length) =
            if messagesKind value = .messageDelta then
              ((stopReason value).map fun r => decide (r = "max_tokens")).getD
                (decide (s.finishReason = some .length))
            else decide (s.finishReason = some .length) := by
          rw [stopReason, get_rewriteEvent o value (by decide), ← stopReason]
          split_ifs
          · cases stopReason value with
            | none => rfl
            | some r => simp [chatFinishReason_eq_length]
          · rfl
        rw [hlimit, endsAtLimit_data _ hstop hfailed, endsUnbegun_data _ hstop hfailed]
        rfl
    | done line =>
      rw [messagesSignals, messagesFrameSignals, List.singleton_append, Mealy.run_cons,
        showsLength_stop backendModel publicModel h hdone, endsAtLimit, endsUnbegun, Bool.not_not]
    | _ => exact ih _ h hdone

end MessagesStream

/-! ### All conversions -/

/-- No event of a response stream has the status `incomplete`. -/
theorem ResponsesEvent.status_ne (e : ResponsesEvent) : e.status ≠ some "incomplete" := by
  have hresponse : ∀ r : ResponseObject,
      (r.toValue.get "status").bind Value.asStr ≠ some "incomplete" := by
    intro r
    cases hstatus : r.status <;>
      simp [ResponseObject.toValue, Value.get_obj, hstatus, ItemStatus.text]
  unfold status data
  cases e <;> simp [fields, Value.get_obj, hresponse]

theorem clientSeesTruncated_responses (c : Codec) (backendModel publicModel : Option String)
    (emit : Bool) (chunks : List Bytes) :
    clientSeesTruncated ((SseStrategy.new .responsesViaChatCompletions backendModel publicModel
      emit).runAll c chunks).2 = false := by
  have hevents : ∀ es : List ResponsesEvent, ∀ o ∈ es.map SseOut.event,
      o.showsTruncated = false := by
    rintro es o ho
    obtain ⟨e, -, rfl⟩ := List.mem_map.mp ho
    exact decide_eq_false e.status_ne
  have hframe : ∀ (n : ResponsesSseNormalizer) (f : SseFrame), ∀ o ∈ (n.handleFrame f).2,
      o.showsTruncated = false := by
    intro n f
    cases f with
    | data value leadingSpace line => exact hevents _
    | done line => exact List.forall_mem_append.mpr ⟨hevents _, by simp [SseOut.showsTruncated]⟩
    | _ => simp [ResponsesSseNormalizer.handleFrame, SseOut.showsTruncated]
  have hrun : ∀ (n : ResponsesSseNormalizer) (fs : List SseFrame),
      ∀ o ∈ (Mealy.run ResponsesSseNormalizer.handleFrame n fs).2, o.showsTruncated = false := by
    intro n fs
    exact (Mealy.run_forall (fun _ => True) _ (fun n f _ _ => ⟨trivial, hframe n f⟩) trivial).2
  rw [clientSeesTruncated, List.any_eq_false]
  intro o ho
  have ho' := List.takeWhile_subset _ ho
  rw [SseStrategy.runAll_eq] at ho'
  rcases List.mem_append.mp ho' with ho' | ho'
  · simpa using hrun _ _ o ho'
  · simpa using hevents _ o ho'

/-- **What a client is told of a stream.** -/
theorem clientSeesTruncated_runAll (c : Codec) {mode : RequestMode} (hmode : mode.converts = true)
    (backendModel publicModel : Option String) (emit : Bool) (chunks : List Bytes) :
    clientSeesTruncated ((SseStrategy.new mode backendModel publicModel emit).runAll c chunks).2 =
      (mode.streamReportsTruncated (frames c chunks.flatten) &&
        !mode.streamLosesTruncation (frames c chunks.flatten)) := by
  cases mode with
  | native => simp [RequestMode.converts] at hmode
  | anthropicMessagesNative => simp [RequestMode.converts] at hmode
  | responsesViaChatCompletions =>
    rw [clientSeesTruncated_responses]
    simp [RequestMode.streamLosesTruncation]
  | chatCompletionsViaResponses =>
    rw [runAll_chat, clientSeesTruncated_map, chatFrames, ChatStream.shows_run _ _ rfl rfl]
    simp only [RequestMode.streamLosesTruncation, RequestMode.streamReportsTruncated]
    cases endsIncomplete (frames c chunks.flatten) <;> simp
  | chatCompletionsViaMessages =>
    rw [runAll_messages, clientSeesTruncated_map, messagesFrames,
      MessagesStream.shows_run _ _ _ _ rfl rfl]
    simp only [RequestMode.streamLosesTruncation, RequestMode.streamReportsTruncated]
    cases hlimit : endsAtLimit false (frames c chunks.flatten) <;> simp [hlimit]

/-- **When truncation is reported faithfully**: for every converting mode, every whole completion
and every stream in any chunks, the client is told of a truncated completion if and only if the
upstream reported one, except that a truncated chat completion is never shown as one, nor a
truncated response with a tool call, nor a truncated Anthropic stream that ends before a message was
begun. -/
theorem truncation_iff (c : Codec) (mode : RequestMode) (hmode : mode.converts = true)
    (backendModel publicModel : Option String) (emit : Bool) :
    (∀ completion : Value,
      (mode.showsTruncated (convertResponse c backendModel publicModel mode completion) = true ↔
          mode.reportsTruncated completion = true) ↔ mode.losesTruncation completion = false) ∧
    ∀ chunks : List Bytes,
      (clientSeesTruncated
            ((SseStrategy.new mode backendModel publicModel emit).runAll c chunks).2 = true ↔
          mode.streamReportsTruncated (frames c chunks.flatten) = true) ↔
        mode.streamLosesTruncation (frames c chunks.flatten) = false := by
  constructor
  · intro completion
    rw [showsTruncated_convertResponse]
    cases hloses : mode.losesTruncation completion with
    | false => simp
    | true =>
      have hreports : mode.reportsTruncated completion = true :=
        (Bool.and_eq_true_iff.mp hloses).1
      simp [hreports]
  · intro chunks
    rw [clientSeesTruncated_runAll c hmode]
    cases hloses : mode.streamLosesTruncation (frames c chunks.flatten) with
    | false => simp
    | true =>
      have hreports : mode.streamReportsTruncated (frames c chunks.flatten) = true :=
        (Bool.and_eq_true_iff.mp hloses).1
      simp [hreports]

/-- A response that is `incomplete` and has no tool call is shown as one, whole or as a stream. -/
theorem truncation_shown :
    let r := Value.obj [("status", .string "incomplete")]
    let b := sseData reference (.obj [("type", .string "response.incomplete"), ("response", r)])
    (RequestMode.chatCompletionsViaResponses.showsTruncated
          (convertResponse reference none none .chatCompletionsViaResponses r) = true ↔
        RequestMode.chatCompletionsViaResponses.reportsTruncated r = true) ∧
      (clientSeesTruncated ((SseStrategy.new .chatCompletionsViaResponses none none false).runAll
          reference [b]).2 = true ↔
        RequestMode.chatCompletionsViaResponses.streamReportsTruncated
          (frames reference [b].flatten) = true) := by
  intro r b
  obtain ⟨hwhole, hstream⟩ := truncation_iff reference .chatCompletionsViaResponses rfl none none
    false
  exact ⟨(hwhole r).mpr (by decide +kernel), (hstream [b]).mpr (by decide +kernel)⟩

/-- A truncated response with a tool call is shown as one that is not. -/
theorem truncation_lost :
    let r := Value.obj [("status", .string "incomplete"), ("output", .array [.obj
      [("type", .string "function_call"), ("name", .string "f"), ("arguments", .string "\x7b")]])]
    ¬(RequestMode.chatCompletionsViaResponses.showsTruncated
          (convertResponse reference none none .chatCompletionsViaResponses r) = true ↔
        RequestMode.chatCompletionsViaResponses.reportsTruncated r = true) := by
  decide +kernel

end Onair
