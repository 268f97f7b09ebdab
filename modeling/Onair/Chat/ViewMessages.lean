import Onair.Chat.Assemble

/-!
# An Anthropic stream as its client sees it

* `BlockReading`, `readBlock`: what is read of a content block;
* `MessagesMove`, `messagesMove`: what an event says, **before it is rewritten as after**;
* `MessagesView`, `MessagesView.step`, `MessagesView.run`: what events change for a client;
* `MessagesStream.view_run`: **a run of the stream is a run of the view**.
-/

namespace Onair

open Json

/-! ### What an event says -/

/-- What both conversions read of a content block. -/
structure BlockReading where
  type : Option String
  id : Option String
  name : Option String
  text : Option String
  input : Option Value

/-- Read a content block. -/
def readBlock (block : Value) : BlockReading where
  type := (block.get "type").bind Value.asStr
  id := (block.get "id").bind Value.asStr
  name := (block.get "name").bind Value.asStr
  text := (block.get "text").bind Value.asStr
  input := block.get "input"

/-- The index of the block that an event is about. -/
def blockIndex (event : Value) : Option ℕ :=
  ((event.get "index").bind Value.asU64).map UInt64.toNat

/-- What an event says of the message. -/
inductive MessagesMove where
  | text (text : String)
  | tool (index : Option ℕ) (id name : Option String)
  | input (index : Option ℕ) (fragment : String)
  | reason (stopReason : Option String)
  | other

/-- What the start of a block says. -/
def startMove (index : Option ℕ) (block : BlockReading) : MessagesMove :=
  if block.type = some "tool_use" then .tool index block.id block.name else .other

/-- What a piece of a block says. -/
def deltaMove (index : Option ℕ) (delta : Value) : MessagesMove :=
  if (delta.get "type").bind Value.asStr = some "text_delta" then
    .text (((delta.get "text").bind Value.asStr).getD "")
  else if (delta.get "type").bind Value.asStr = some "input_json_delta" then
    .input index (((delta.get "partial_json").bind Value.asStr).getD "")
  else .other

section DeltaMove

variable (index : Option ℕ) {delta : Value}

theorem deltaMove_text (h : (delta.get "type").bind Value.asStr = some "text_delta") :
    deltaMove index delta = .text (((delta.get "text").bind Value.asStr).getD "") := if_pos h

theorem deltaMove_input (h : (delta.get "type").bind Value.asStr = some "input_json_delta") :
    deltaMove index delta =
      .input index (((delta.get "partial_json").bind Value.asStr).getD "") := by
  simp [deltaMove, h]

theorem deltaMove_other (htext : (delta.get "type").bind Value.asStr ≠ some "text_delta")
    (hinput : (delta.get "type").bind Value.asStr ≠ some "input_json_delta") :
    deltaMove index delta = .other := by
  simp [deltaMove, htext, hinput]

end DeltaMove

/-- Read an event. -/
def messagesMove (event : Value) : MessagesMove :=
  match messagesKind event with
  | .blockStart =>
    match event.get "content_block" with
    | some block => startMove (blockIndex event) (readBlock block)
    | none => .other
  | .blockDelta =>
    match event.get "delta" with
    | some delta => deltaMove (blockIndex event) delta
    | none => .other
  | .messageDelta => .reason (stopReason event)
  | _ => .other

/-- **An event says the same after it is rewritten.** -/
theorem messagesMove_rewriteEvent (o : SseObserver) (event : Value) :
    messagesMove (AnthropicMessagesToChatSseNormalizer.rewriteEvent o event) =
      messagesMove event := by
  simp only [messagesMove, messagesKind_rewriteEvent, blockIndex, stopReason,
    get_rewriteEvent o event (k := "content_block") (by decide),
    get_rewriteEvent o event (k := "delta") (by decide),
    get_rewriteEvent o event (k := "index") (by decide)]

/-! ### What a client has -/

/-- The part of the stream that decides what is sent next, and what the client has by now. -/
structure MessagesView extends CallsView where
  finishReason : Option FinishReason := none

namespace MessagesView

/-- Send a text. -/
def say (v : MessagesView) (text : String) : MessagesView :=
  { v with seen := { v.seen with content := v.seen.content ++ text } }

/-- Store a tool call and send a fragment of its arguments. -/
def store (v : MessagesView) (index : ℕ) (call : ChatCompletionStreamToolCall)
    (fragment : String) : MessagesView :=
  { v with toCallsView := v.toCallsView.store index call fragment }

/-- What an event changes. -/
def step (v : MessagesView) : MessagesMove → MessagesView
  | .text text => v.say text
  | .tool index id name =>
    let index := index.getD v.toolCalls.length
    v.store index { callAt v.toolCalls index with
      callId := id.or (some (syntheticCallId index))
      name } ""
  | .input index fragment =>
    let index := index.getD v.toolCalls.length
    let call := callAt v.toolCalls index
    if fragment = "" then v
    else v.store index { call with arguments := call.arguments ++ fragment } fragment
  | .reason stopReason =>
    { v with finishReason :=
        (stopReason.map chatFinishReasonFromAnthropicStopReason).or v.finishReason }
  | .other => v

/-- What events change, one after another. -/
def run (v : MessagesView) (events : List Value) : MessagesView :=
  (events.map messagesMove).foldl step v

theorem run_cons (v : MessagesView) (event : Value) (events : List Value) :
    v.run (event :: events) = (v.step (messagesMove event)).run events := rfl

theorem run_append (v : MessagesView) (es es' : List Value) :
    v.run (es ++ es') = (v.run es).run es' := by
  rw [run, List.map_append, List.foldl_append]
  rfl

theorem run_filter (v : MessagesView) (events : List Value) :
    v.run (events.filter fun e => messagesKind e ≠ .other) = v.run events := by
  rw [run, run, List.foldl_map, List.foldl_map]
  refine foldl_filter_of_skips (fun v e he => ?_) v events
  have hkind : messagesKind e = .other := by simpa using he
  rw [messagesMove, hkind]
  rfl

end MessagesView

namespace MessagesStream

/-- The stream as its client sees it. -/
def view (s : MessagesStream) (seen : Assembled) : MessagesView where
  toolCalls := s.toolCalls
  finishReason := s.finishReason
  seen := seen

theorem view_store (s : MessagesStream) (seen : Assembled) (index : ℕ)
    (call : ChatCompletionStreamToolCall) (fragment : String) :
    (s.store index call fragment).1.view (seen.applyAll (s.store index call fragment).2) =
      (s.view seen).store index call fragment :=
  congrArg (fun v => { s.view seen with toCallsView := v })
    (CallsView.of_storeCall seen s.head s.emitUsageToClient s.roleSent s.toolCalls index call
      fragment)

theorem view_processContentBlockStart (s : MessagesStream) (seen : Assembled) (event : Value) :
    (s.processContentBlockStart event).1.view
        (seen.applyAll (s.processContentBlockStart event).2) =
      (s.view seen).step (match event.get "content_block" with
        | some block => startMove (blockIndex event) (readBlock block)
        | none => .other) := by
  cases hblock : event.get "content_block" with
  | none =>
    rw [processContentBlockStart, hblock]
    rfl
  | some block =>
    cases block with
    | object m =>
      have hobject : (event.get "content_block").bind Value.asObject = some m := by
        rw [hblock]
        rfl
      by_cases htype : (OrdMap.get "type" m).bind Value.asStr = some "tool_use"
      · have htype' : (readBlock (.object m)).type = some "tool_use" := htype
        rw [s.processContentBlockStart_tool hobject htype, view_store]
        simp only [startMove, if_pos htype']
        rfl
      · have htype' : (readBlock (.object m)).type ≠ some "tool_use" := htype
        rw [processContentBlockStart, hobject]
        dsimp only
        rw [startMove, if_neg htype']
        split
        · contradiction
        · rfl
    | _ =>
      rw [processContentBlockStart, hblock]
      rfl

theorem view_processContentBlockDelta (s : MessagesStream) (seen : Assembled) (event : Value) :
    (s.processContentBlockDelta event).1.view
        (seen.applyAll (s.processContentBlockDelta event).2) =
      (s.view seen).step (match event.get "delta" with
        | some delta => deltaMove (blockIndex event) delta
        | none => .other) := by
  cases hdelta : event.get "delta" with
  | none =>
    rw [processContentBlockDelta, hdelta]
    rfl
  | some delta =>
    cases delta with
    | object m =>
      have hobject : (event.get "delta").bind Value.asObject = some m := by
        rw [hdelta]
        rfl
      dsimp only
      by_cases htext : (OrdMap.get "type" m).bind Value.asStr = some "text_delta"
      · have htext' : ((Value.object m).get "type").bind Value.asStr = some "text_delta" := htext
        rw [deltaMove_text _ htext', processContentBlockDelta, hobject, MessagesView.step]
        simp only [htext, Value.get_object]
        split_ifs with hempty
        · rw [hempty, MessagesView.say, String.append_empty]
          rfl
        · rfl
      by_cases hinput : (OrdMap.get "type" m).bind Value.asStr = some "input_json_delta"
      · have hinput' : ((Value.object m).get "type").bind Value.asStr = some "input_json_delta" :=
          hinput
        have hfragment : (((Value.object m).get "partial_json").bind Value.asStr).getD "" =
            inputFragment m := rfl
        rw [deltaMove_input _ hinput', s.processContentBlockDelta_input hobject hinput, hfragment,
          MessagesView.step]
        split_ifs with hempty
        · rfl
        · exact s.view_store seen _ _ _
      · have htext' : ((Value.object m).get "type").bind Value.asStr ≠ some "text_delta" := htext
        have hinput' : ((Value.object m).get "type").bind Value.asStr ≠ some "input_json_delta" :=
          hinput
        rw [deltaMove_other _ htext' hinput', processContentBlockDelta, hobject]
        dsimp only
        split
        · contradiction
        · contradiction
        · rfl
    | _ =>
      rw [processContentBlockDelta, hdelta]
      rfl

/-- **An event changes the view as it says.** -/
theorem view_deltaStep (backendModel publicModel : Option String) (s : MessagesStream)
    (seen : Assembled) (event : Value) :
    (s.deltaStep backendModel publicModel event).1.view
        (seen.applyAll (s.deltaStep backendModel publicModel event).2) =
      (s.view seen).step (messagesMove event) := by
  obtain ⟨messageId, model, hmeta⟩ := s.setMetadata_spec backendModel publicModel event
  let t : MessagesStream := { s with messageId, model }
  have hreason := s.deltaStep_finishReason backendModel publicModel event
  rw [deltaStep, hmeta, messagesMove] at *
  cases hkind : messagesKind event with
  | blockStart => exact t.view_processContentBlockStart seen event
  | blockDelta => exact t.view_processContentBlockDelta seen event
  | messageDelta =>
    rw [hkind] at hreason
    dsimp only at hreason ⊢
    rw [view, hreason]
    have hcalls : (t.processMessageDelta event).toolCalls = s.toolCalls := by
      unfold processMessageDelta
      split <;> rfl
    rw [hcalls]
    rfl
  | _ => rfl

/-- **A run of the stream is a run of the view**, up to the end of the message. -/
theorem view_run (backendModel publicModel : Option String) (o : SseObserver)
    {sigs : List MessagesSignal} {events : List Value}
    (hsigs : List.Forall₂ (MessagesSignal.Tells o) sigs events)
    (h : ∀ e ∈ events, messagesKind e ≠ .stop ∧ messagesKind e ≠ .failed)
    (s : MessagesStream) (seen : Assembled) :
    let r := Mealy.run (signal backendModel publicModel) s sigs
    r.1.view (seen.applyAll r.2) = (s.view seen).run events ∧ r.1.completed = s.completed := by
  induction hsigs generalizing s seen with
  | nil => exact ⟨rfl, rfl⟩
  | @cons sig e sigs events hsig _ ih =>
    obtain ⟨usage, count, rfl⟩ := hsig
    obtain ⟨⟨hstop, hfailed⟩, hrest⟩ := List.forall_mem_cons.mp h
    let e' := AnthropicMessagesToChatSseNormalizer.rewriteEvent o e
    have hkind : messagesKind e' = messagesKind e := messagesKind_rewriteEvent o e
    have hstep : s.signal backendModel publicModel (.event usage count e') =
        s.deltaStep backendModel publicModel e' :=
      signal_eq_deltaStep _ _ usage count (by rwa [hkind]) (by rwa [hkind])
    have hview := s.view_deltaStep backendModel publicModel seen e'
    have hopen := (s.deltaStep_spec backendModel publicModel e').completed_eq
    obtain ⟨hrun, hcompleted⟩ := ih hrest (s.deltaStep backendModel publicModel e').1
      (seen.applyAll (s.deltaStep backendModel publicModel e').2)
    dsimp only at hrun ⊢
    rw [Mealy.run_cons, hstep, Assembled.applyAll_append, MessagesView.run_cons,
      ← messagesMove_rewriteEvent o, ← hview]
    exact ⟨hrun, hcompleted.trans hopen⟩

end MessagesStream

end Onair
