import Onair.Chat.Assemble

/-!
# A Responses stream as its client sees it

What a client has of a message depends on little of the stream: which text and which tool calls
were seen.

* `ItemReading`, `readItem`: what is read of an output item;
* `ChatMove`, `chatMove`: what an event says, **before it is rewritten as after**;
* `ChatView`, `ChatView.step`, `ChatView.run`: what events change for a client;
* `ChatStream.view_run`: **a run of the stream is a run of the view**.
-/

namespace Onair

open Json

/-! ### Output items -/

/-- What both conversions read of an output item. -/
structure ItemReading where
  type : Option String
  callId : Option String
  name : Option String
  arguments : Option String
  text : String

/-- Read an output item. -/
def readItem (item : Value) : ItemReading where
  type := (item.get "type").bind Value.asStr
  callId := ((item.get "call_id").or (item.get "id")).bind Value.asStr
  name := (item.get "name").bind Value.asStr
  arguments := (item.get "arguments").bind Value.asStr
  text := match item.get "content" with
    | some content => responsesMessageContentToChatText content
    | none => ""

/-- The item is a message. -/
def isMessage (item : Value) : Bool := (readItem item).type = some "message"

/-- The item is a tool call. -/
def isCall (item : Value) : Bool := (readItem item).type = some "function_call"

/-- The item has the role of the assistant, or none. -/
def isAssistant (item : Value) : Bool :=
  ((item.get "role").bind Value.asStr).all (· == "assistant")

theorem KeepsReading.readItem {f : Value → Value} (hf : KeepsReading f) (item : Value) :
    readItem (f item) = Onair.readItem item := by
  have hor : (((f item).get "call_id").or ((f item).get "id")).bind Value.asStr =
      ((item.get "call_id").or (item.get "id")).bind Value.asStr := by
    rw [hf.get "call_id" item (by decide) (by decide), hf.get "id" item (by decide) (by decide)]
    cases item.get "call_id" with
    | some w => exact hf.asStr w
    | none =>
      cases item.get "id" with
      | some w => exact hf.asStr w
      | none => rfl
  simp only [Onair.readItem, hor, hf.str (k := "type") (by decide) (by decide),
    hf.str (k := "name") (by decide) (by decide),
    hf.str (k := "arguments") (by decide) (by decide),
    hf.get "content" item (by decide) (by decide)]
  cases item.get "content" with
  | none => rfl
  | some content => simp only [Option.map_some, hf.contentText]

/-! ### What an event says -/

/-- The output index of an event. -/
def outputIndex (event : Value) : Option ℕ :=
  ((event.get "output_index").bind Value.asU64).map UInt64.toNat

/-- What an event says of the message. -/
inductive ChatMove where
  | text (delta : String)
  | message (text : String)
  | arguments (index : Option ℕ) (callId : Option String) (fragment : String)
  | call (done : Bool) (index : Option ℕ) (callId name : Option String) (arguments : String)
  | other

/-- What an event about an output item says. -/
def itemMove (done : Bool) (index : Option ℕ) (item : ItemReading) : ChatMove :=
  if item.type = some "function_call" then
    .call done index item.callId item.name (item.arguments.getD "")
  else if item.type = some "message" ∧ done then .message item.text
  else .other

theorem itemMove_call (done : Bool) (index : Option ℕ) {item : ItemReading}
    (h : item.type = some "function_call") :
    itemMove done index item = .call done index item.callId item.name (item.arguments.getD "") :=
  if_pos h

theorem itemMove_message (done : Bool) (index : Option ℕ) {item : ItemReading}
    (h : item.type = some "message") :
    itemMove done index item = if done then .message item.text else .other := by
  cases done <;> simp [itemMove, h]

theorem itemMove_other (done : Bool) (index : Option ℕ) {item : ItemReading}
    (hcall : item.type ≠ some "function_call") (hmessage : item.type ≠ some "message") :
    itemMove done index item = .other := by
  simp [itemMove, hcall, hmessage]

/-- Read an event. -/
def chatMove (event : Value) : ChatMove :=
  match responsesKind event with
  | .text => .text (ChatStream.textDelta event)
  | .arguments => .arguments (outputIndex event)
    (((event.get "call_id").or (event.get "item_id")).bind Value.asStr)
    (ChatStream.argumentsDelta event)
  | .item done =>
    match event.get "item" with
    | some item => itemMove done (outputIndex event) (readItem item)
    | none => .other
  | _ => .other

/-- **An event says the same after it is rewritten.** -/
theorem SseObserver.chatMove_rewritten (o : SseObserver) (event : Value) :
    chatMove (o.rewritten event) = chatMove event := by
  have hf := o.keepsReading_rewritten
  have hindex : outputIndex (o.rewritten event) = outputIndex event := by
    rw [outputIndex, outputIndex, o.get_rewritten (by decide) (by decide), Option.bind_map]
    congr 1
    exact Option.bind_congr fun w _ => o.asU64_rewritten w
  have hor : (((o.rewritten event).get "call_id").or ((o.rewritten event).get "item_id")).bind
        Value.asStr = ((event.get "call_id").or (event.get "item_id")).bind Value.asStr := by
    rw [o.get_rewritten (by decide) (by decide), o.get_rewritten (by decide) (by decide)]
    cases event.get "call_id" with
    | some w => exact o.asStr_rewritten w
    | none =>
      cases event.get "item_id" with
      | some w => exact o.asStr_rewritten w
      | none => rfl
  have hdelta := o.str_rewritten (k := "delta") (by decide) (by decide) event
  simp only [chatMove, responsesKind_rewritten, hindex, hor, ChatStream.textDelta,
    ChatStream.argumentsDelta, hdelta, o.get_rewritten (k := "item") (by decide) (by decide)]
  cases event.get "item" with
  | none => rfl
  | some item => simp only [Option.map_some, hf.readItem]

/-! ### What a client has -/

/-- The part of a chat stream that decides what is sent next, and what the client has by now. -/
structure ChatView extends CallsView where
  textSent : Bool := false

namespace ChatView

/-- Send a text. -/
def say (v : ChatView) (text : String) : ChatView :=
  if text = "" then v
  else { v with textSent := true, seen := { v.seen with content := v.seen.content ++ text } }

/-- Store a tool call and send a fragment of its arguments. -/
def store (v : ChatView) (index : ℕ) (call : ChatCompletionStreamToolCall) (fragment : String) :
    ChatView :=
  { v with toCallsView := v.toCallsView.store index call fragment }

/-- What an event changes. -/
def step (v : ChatView) : ChatMove → ChatView
  | .text delta => v.say delta
  | .message text => if v.textSent then v else v.say text
  | .arguments index callId fragment =>
    let index := index.getD v.toolCalls.length
    let call := callAt v.toolCalls index
    v.store index { call with
      callId := call.callId.or callId
      arguments := call.arguments ++ fragment } fragment
  | .call done index callId name arguments =>
    let index := index.getD v.toolCalls.length
    let call := callAt v.toolCalls index
    let fragment := if done ∧ call.arguments = "" then arguments else ""
    v.store index { call with
      callId := call.callId.or callId
      name := call.name.or name
      arguments := call.arguments ++ fragment } fragment
  | .other => v

/-- What events change, one after another. -/
def run (v : ChatView) (events : List Value) : ChatView :=
  (events.map chatMove).foldl step v

theorem run_cons (v : ChatView) (event : Value) (events : List Value) :
    v.run (event :: events) = (v.step (chatMove event)).run events := rfl

theorem run_append (v : ChatView) (es es' : List Value) :
    v.run (es ++ es') = (v.run es).run es' := by
  rw [run, List.map_append, List.foldl_append]
  rfl

theorem run_filter (v : ChatView) (events : List Value) :
    v.run (events.filter fun e => responsesKind e ≠ .other) = v.run events := by
  rw [run, run, List.foldl_map, List.foldl_map]
  refine foldl_filter_of_skips (fun v e he => ?_) v events
  have hkind : responsesKind e = .other := by simpa using he
  rw [chatMove, hkind]
  rfl

end ChatView

namespace ChatStream

/-- The stream as its client sees it. -/
def view (s : ChatStream) (seen : Assembled) : ChatView where
  textSent := s.textSent
  toolCalls := s.toolCalls
  seen := seen

theorem view_sendText (s : ChatStream) (seen : Assembled) {text : String} (h : text ≠ "") :
    (s.sendText text).1.view (seen.applyAll (s.sendText text).2) = (s.view seen).say text := by
  rw [ChatView.say, if_neg h]
  rfl

theorem view_store (s : ChatStream) (seen : Assembled) (index : ℕ)
    (call : ChatCompletionStreamToolCall) (fragment : String) :
    (s.store index call fragment).1.view (seen.applyAll (s.store index call fragment).2) =
      (s.view seen).store index call fragment :=
  congrArg (fun v => { s.view seen with toCallsView := v })
    (CallsView.of_storeCall seen s.head s.emitUsageToClient s.roleSent s.toolCalls index call
      fragment)

theorem eventIndex_eq (s : ChatStream) (event : Value) :
    s.eventIndex event "output_index" = (outputIndex event).getD s.toolCalls.length := rfl

theorem view_processOutputItem (s : ChatStream) (seen : Assembled) (event : Value) (done : Bool) :
    (s.processOutputItem event done).1.view
        (seen.applyAll (s.processOutputItem event done).2) =
      (s.view seen).step (match event.get "item" with
        | some item => itemMove done (outputIndex event) (readItem item)
        | none => .other) := by
  unfold processOutputItem
  cases hitem : event.get "item" with
  | none => rfl
  | some item =>
    cases item with
    | object m =>
      dsimp only [Option.bind_some, Value.asObject]
      split
      · rename_i htype
        have htype' : (readItem (.object m)).type = some "function_call" := htype
        rw [itemMove_call _ _ htype', processFunctionItem_eq, view_store, eventIndex_eq]
        rfl
      · rename_i htype
        have htype' : (readItem (.object m)).type = some "message" := htype
        rw [itemMove_message _ _ htype']
        cases done with
        | false => rfl
        | true =>
          rw [if_pos rfl, ChatView.step, Bool.true_and]
          cases hsent : s.textSent with
          | true => simp [hsent, view]
          | false =>
            have hnot : (s.view seen).textSent = false := hsent
            rw [hnot, if_neg Bool.false_ne_true, Bool.not_false, if_pos rfl]
            dsimp only [readItem, Value.get_object]
            cases OrdMap.get "content" m with
            | none => rfl
            | some content =>
              dsimp only
              split_ifs with htext
              · simp [ChatView.say, htext]
              · exact s.view_sendText seen htext
      · rename_i hcall hmessage
        have hcall' : (readItem (.object m)).type ≠ some "function_call" := hcall
        have hmessage' : (readItem (.object m)).type ≠ some "message" := hmessage
        rw [itemMove_other _ _ hcall' hmessage']
        rfl
    | _ => rfl

/-- **An event changes the view as it says.** -/
theorem view_deltaStep (s : ChatStream) (seen : Assembled) (event : Value)
    (h : responsesKind event ≠ .completed) :
    (s.deltaStep event).1.view (seen.applyAll (s.deltaStep event).2) =
      (s.view seen).step (chatMove event) := by
  obtain ⟨responseId, createdAt, model, hmeta⟩ := s.setEventMetadata_spec event
  let t : ChatStream := { s with responseId, createdAt, model }
  have ht : t.view seen = s.view seen := rfl
  rw [deltaStep, hmeta, chatMove]
  cases hkind : responsesKind event with
  | text =>
    dsimp only
    unfold processTextDelta textDelta
    cases (event.get "delta").bind Value.asStr with
    | none => rfl
    | some delta =>
      dsimp only [Option.getD_some]
      split_ifs with hdelta
      · rw [hdelta]
        rfl
      · exact t.view_sendText seen hdelta
  | arguments =>
    dsimp only
    rw [processFunctionArgumentsDelta_eq, view_store, eventIndex_eq]
    rfl
  | item done => exact t.view_processOutputItem seen event done
  | completed => exact absurd hkind h
  | failed => rfl
  | other => rfl

/-- **A run of the stream is a run of the view**, up to the end of the response. -/
theorem view_run (o : SseObserver) {events : List Value}
    (h : ∀ e ∈ events, responsesKind e ≠ .completed ∧ responsesKind e ≠ .failed)
    (s : ChatStream) (seen : Assembled) :
    let r := Mealy.run signal s (events.map fun e => .event (o.rewritten e))
    r.1.view (seen.applyAll r.2) = (s.view seen).run events ∧
      r.1.completed = s.completed := by
  induction events generalizing s seen with
  | nil => exact ⟨rfl, rfl⟩
  | cons e events ih =>
    obtain ⟨⟨hcompleted, hfailed⟩, hrest⟩ := List.forall_mem_cons.mp h
    have hkind := responsesKind_rewritten o e
    have hstep : s.signal (.event (o.rewritten e)) = s.deltaStep (o.rewritten e) :=
      signal_eq_deltaStep (by rwa [hkind]) (by rwa [hkind])
    have hview := s.view_deltaStep seen (o.rewritten e) (by rwa [hkind])
    have hopen := (s.deltaStep_spec (o.rewritten e)).completed_eq
    obtain ⟨hrun, hcompleted'⟩ := ih hrest (s.deltaStep (o.rewritten e)).1
      (seen.applyAll (s.deltaStep (o.rewritten e)).2)
    dsimp only at hrun ⊢
    rw [List.map_cons, Mealy.run_cons, hstep, Assembled.applyAll_append, ChatView.run_cons,
      ← o.chatMove_rewritten, ← hview]
    exact ⟨hrun, hcompleted'.trans hopen⟩

end ChatStream

end Onair
