import Onair.Chat.ViewMessages

/-!
# Streamed and whole Anthropic messages agree

An Anthropic stream that realises a message is converted into the message that the whole one is
converted into, where every tool call has a name and some input, and the stop reason is given.

* `BlockStart`, `BlockDelta`, `RealisesMessage`: the streams that realise a message;
* `MessagesView.run_text`, `MessagesView.run_tool`: what the events of one block change;
* `MessagesView.run_blocks`: **what a stream shows of the blocks of a message**;
* `anthropicContentToChatMessage_eq`: what the whole message shows of them;
* `streamed_message_agrees_iff`: **when the two agree**.
-/

namespace Onair

open Json Text

/-! ### Streams that realise a message -/

/-- The block is a text. -/
def isText (block : Value) : Bool := (readBlock block).type = some "text"

/-- The block is a tool call. -/
def isTool (block : Value) : Bool := (readBlock block).type = some "tool_use"

/-- The input of a tool call; one that has none has an empty one. -/
def toolInput (block : Value) : Value := (readBlock block).input.getD (.obj [])

/-- The event starts a block; its text or its input is still to come. -/
structure BlockStart (index : ℕ) (block event : Value) : Prop where
  kind : messagesKind event = .blockStart
  index_eq : blockIndex event = some index
  begins : ∃ begun, event.get "content_block" = some begun ∧
    (readBlock begun).type = (readBlock block).type ∧
    (readBlock begun).id = (readBlock block).id ∧ (readBlock begun).name = (readBlock block).name

/-- The event is a piece of the text or of the input of a block. -/
structure BlockDelta (index : ℕ) (block : Value) (delta : String) (event : Value) : Prop where
  kind : messagesKind event = .blockDelta
  index_eq : blockIndex event = some index
  piece : ∃ piece, event.get "delta" = some piece ∧
    (piece.get "type").bind Value.asStr =
      some (if isTool block then "input_json_delta" else "text_delta") ∧
    (piece.get (if isTool block then "partial_json" else "text")).bind Value.asStr = some delta

/-- The deltas of a block join to its text, or to a JSON text of its input; an input that is empty
comes in no delta that is not. -/
def JoinsTo (c : Codec) (block : Value) (deltas : List String) : Prop :=
  if isTool block then
    if toolInput block = .obj [] then String.join deltas = ""
    else c.fromSlice (asBytes (String.join deltas)) = some (toolInput block)
  else String.join deltas = (readBlock block).text.getD ""

/-- The events of one block: it starts and comes in deltas. -/
def RealisesBlock (c : Codec) (index : ℕ) (block : Value) (deltas : List String)
    (events : List Value) : Prop :=
  ∃ start pieces, events = start :: pieces ∧ BlockStart index block start ∧
    List.Forall₂ (BlockDelta index block) deltas pieces ∧ JoinsTo c block deltas

/-- The events of the blocks of a message, in order, from an index on. -/
def RealisesBlocks (c : Codec) (index : ℕ) : List (Value × List String) → List Value → Prop
  | [], events => events = []
  | (block, deltas) :: blocks, events => ∃ before after, events = before ++ after ∧
    RealisesBlock c index block deltas before ∧ RealisesBlocks c (index + 1) blocks after

/-- The event starts a message with the id and the model of the given one. -/
def StartsMessage (message event : Value) : Prop :=
  messagesKind event = .start ∧ ∃ begun, event.get "message" = some begun ∧
    begun.get "id" = message.get "id" ∧ begun.get "model" = message.get "model"

/-- The events realise a message made of texts and tool calls: one that starts it, those of its
blocks, one with its stop reason if it has one, and one that stops it. Events that say nothing of
the message may come between, those that stop a block among them. -/
structure RealisesMessage (c : Codec) (message : Value) (blocks : List (Value × List String))
    (events : List Value) : Prop where
  content : (message.get "content").bind Value.asArray = some (blocks.map Prod.fst)
  blocks_type : ∀ entry ∈ blocks, isText entry.1 = true ∨ isTool entry.1 = true
  stream : ∃ before last first middle delta, events = before ++ [last] ∧
    before.filter (fun e => messagesKind e ≠ .other) =
      first :: (middle ++ Option.toList delta) ∧
    StartsMessage message first ∧ RealisesBlocks c 0 blocks middle ∧
    (∀ e ∈ delta, messagesKind e = .messageDelta) ∧
    delta.bind stopReason = (message.get "stop_reason").bind Value.asStr ∧
    messagesKind last = .stop

/-! ### The events of a block -/

theorem not_isTool {block : Value} (h : isText block = true) : isTool block = false := by
  rw [isTool, of_decide_eq_true h]
  decide

theorem BlockStart.move_tool {index : ℕ} {block event : Value} (h : BlockStart index block event)
    (htool : isTool block = true) : messagesMove event =
      .tool (some index) (readBlock block).id (readBlock block).name := by
  obtain ⟨begun, hbegun, htype, hid, hname⟩ := h.begins
  have htool' : (readBlock begun).type = some "tool_use" := htype.trans (of_decide_eq_true htool)
  rw [messagesMove, h.kind, hbegun]
  dsimp only
  rw [startMove, if_pos htool', h.index_eq, hid, hname]

theorem BlockStart.move_text {index : ℕ} {block event : Value} (h : BlockStart index block event)
    (htext : isText block = true) : messagesMove event = .other := by
  obtain ⟨begun, hbegun, htype, -⟩ := h.begins
  have htool : (readBlock begun).type ≠ some "tool_use" := by
    rw [htype, of_decide_eq_true htext]
    decide
  rw [messagesMove, h.kind, hbegun]
  exact if_neg htool

theorem BlockDelta.move_text {index : ℕ} {block : Value} {delta : String} {event : Value}
    (h : BlockDelta index block delta event) (htool : isTool block = false) :
    messagesMove event = .text delta := by
  obtain ⟨piece, hpiece, htype, htext⟩ := h.piece
  rw [htool, if_neg Bool.false_ne_true] at htype htext
  rw [messagesMove, h.kind, hpiece]
  dsimp only
  rw [deltaMove_text _ htype, htext]
  rfl

theorem BlockDelta.move_input {index : ℕ} {block : Value} {delta : String} {event : Value}
    (h : BlockDelta index block delta event) (htool : isTool block = true) :
    messagesMove event = .input (some index) delta := by
  obtain ⟨piece, hpiece, htype, hinput⟩ := h.piece
  rw [htool, if_pos rfl] at htype hinput
  rw [messagesMove, h.kind, hpiece]
  dsimp only
  rw [deltaMove_input _ htype, hinput, h.index_eq]
  rfl

namespace MessagesView

theorem run_textDeltas {index : ℕ} {block : Value} (htool : isTool block = false)
    {deltas : List String} {pieces : List Value}
    (h : List.Forall₂ (BlockDelta index block) deltas pieces) (v : MessagesView) :
    v.run pieces = v.say (String.join deltas) := by
  induction h generalizing v with
  | nil =>
    rw [String.join_nil, say, String.append_empty]
    rfl
  | @cons delta piece deltas pieces hpiece _ ih =>
    rw [run_cons, hpiece.move_text htool, ih, String.join_cons]
    simp only [step, say, String.append_assoc]

/-- **The events of a text**: it is shown. -/
theorem run_text {c : Codec} {index : ℕ} {block : Value} (htext : isText block = true)
    {deltas : List String} {events : List Value} (h : RealisesBlock c index block deltas events)
    (v : MessagesView) : v.run events = v.say ((readBlock block).text.getD "") := by
  obtain ⟨start, pieces, rfl, hstart, hpieces, hjoins⟩ := h
  have htool := not_isTool htext
  rw [JoinsTo, htool, if_neg Bool.false_ne_true] at hjoins
  rw [run_cons, hstart.move_text htext, run_textDeltas htool hpieces, hjoins]
  rfl

/-- The view with a tool call of which some input came. -/
def withCall (v : MessagesView) (index : ℕ) (id : String) (name : Option String)
    (arguments : String) : MessagesView :=
  { v with toCallsView := v.toCallsView.withCall index id (some id) name arguments }

variable {v : MessagesView} {index : ℕ}

theorem step_tool_first (hcalls : OrdMap.get index v.toolCalls = none)
    (hseen : OrdMap.get index v.seen.calls = none) (id name : Option String) :
    v.step (.tool (some index) id name) =
      v.withCall index (id.getD (syntheticCallId index)) name "" := by
  have hcall : callAt v.toolCalls index = {} := by rw [callAt, hcalls]; rfl
  have hid : id.or (some (syntheticCallId index)) = some (id.getD (syntheticCallId index)) := by
    cases id <;> rfl
  simp only [step, Option.getD_some, hcall, hid]
  rw [store, CallsView.store_first hseen]
  rfl

theorem run_inputDeltas {block : Value} (htool : isTool block = true) {deltas : List String}
    {pieces : List Value} (h : List.Forall₂ (BlockDelta index block) deltas pieces)
    (hseen : OrdMap.get index v.seen.calls = none) (id : String) (name : Option String)
    (arguments : String) :
    (v.withCall index id name arguments).run pieces =
      v.withCall index id name (arguments ++ String.join deltas) := by
  induction h generalizing arguments with
  | nil =>
    rw [String.join_nil, String.append_empty]
    rfl
  | @cons delta piece deltas pieces hpiece _ ih =>
    have hstep : (v.withCall index id name arguments).step (.input (some index) delta) =
        v.withCall index id name (arguments ++ delta) := by
      simp only [step, Option.getD_some, withCall, CallsView.callAt_withCall]
      split_ifs with hempty
      · rw [hempty, String.append_empty]
      · simp only [store, CallsView.store_withCall hseen]
    rw [run_cons, hpiece.move_input htool, hstep, ih, String.join_cons, String.append_assoc]

/-- **The events of a tool call**: the client has what it was announced as, and its input. -/
theorem run_tool {c : Codec} {block : Value} (htool : isTool block = true)
    {deltas : List String} {events : List Value} (h : RealisesBlock c index block deltas events)
    (hcalls : OrdMap.get index v.toolCalls = none)
    (hseen : OrdMap.get index v.seen.calls = none) :
    v.run events = v.withCall index ((readBlock block).id.getD (syntheticCallId index))
      (readBlock block).name (String.join deltas) := by
  obtain ⟨start, pieces, rfl, hstart, hpieces, -⟩ := h
  rw [run_cons, hstart.move_tool htool, step_tool_first hcalls hseen,
    run_inputDeltas htool hpieces hseen, String.empty_append]

end MessagesView

/-! ### What is shown of the blocks -/

/-- The text of a block, if it is one. -/
def blockText (block : Value) : String :=
  if isText block then (readBlock block).text.getD "" else ""

/-- The tool call that a stream shows for a block. -/
def shownTool (entry : (Value × List String) × ℕ) : Option (ℕ × AssembledCall) :=
  if isTool entry.1.1 then
    (seenCall ((readBlock entry.1.1).id.getD (syntheticCallId entry.2)) (readBlock entry.1.1).name
      (String.join entry.1.2)).map fun call => (entry.2, call)
  else none

namespace MessagesView

/-- The view after the blocks of a message. -/
structure Shows (v : MessagesView) (index : ℕ) (blocks : List (Value × List String))
    (v' : MessagesView) : Prop where
  content : v'.seen.content = v.seen.content ++ String.join (blocks.map fun e => blockText e.1)
  calls : v'.seen.calls = v.seen.calls ++ (blocks.zipIdx index).filterMap shownTool
  reason : v'.seen.finishReason = v.seen.finishReason ∧ v'.finishReason = v.finishReason
  noCalls : v'.toolCalls.isEmpty = (v.toolCalls.isEmpty && !blocks.any fun e => isTool e.1)

theorem shows_block {c : Codec} {index : ℕ} {block : Value} {deltas : List String}
    {events : List Value} (htype : isText block = true ∨ isTool block = true)
    (h : RealisesBlock c index block deltas events) {v : MessagesView} (hbelow : v.Below index) :
    v.Shows index [(block, deltas)] (v.run events) ∧ (v.run events).Below (index + 1) := by
  rcases htype with htext | htool
  · have htool := not_isTool htext
    rw [run_text htext h]
    refine ⟨⟨?_, ?_, ⟨rfl, rfl⟩, ?_⟩, hbelow.succ⟩
    · simp [say, blockText, htext]
    · simp [say, shownTool, htool]
    · simp [say, htool]
  · rw [run_tool htool h (OrdMap.get_of_lt hbelow.1) (OrdMap.get_of_lt hbelow.2)]
    have htext : isText block = false := by
      cases ht : isText block with
      | false => rfl
      | true => rw [not_isTool ht] at htool; exact absurd htool Bool.false_ne_true
    refine ⟨⟨?_, ?_, ⟨?_, rfl⟩, ?_⟩, hbelow.withCall _ _ _ _⟩
    · simp [withCall, CallsView.withCall, blockText, htext]
    · rw [withCall, CallsView.withCall, Assembled.calls_withCall hbelow.2]
      cases hseen : seenCall ((readBlock block).id.getD (syntheticCallId index))
          (readBlock block).name (String.join deltas) <;>
        simp [shownTool, htool, hseen]
    · simp [withCall, CallsView.withCall]
    · simp [withCall, CallsView.withCall, OrdMap.isEmpty_insert, htool]

/-- **What a stream shows of the blocks of a message.** -/
theorem run_blocks {c : Codec} {index : ℕ} {blocks : List (Value × List String)}
    {events : List Value}
    (htype : ∀ entry ∈ blocks, isText entry.1 = true ∨ isTool entry.1 = true)
    (h : RealisesBlocks c index blocks events) {v : MessagesView} (hbelow : v.Below index) :
    v.Shows index blocks (v.run events) := by
  induction blocks generalizing index events v with
  | nil =>
    obtain rfl : events = [] := h
    exact ⟨by simp [run], by simp [run], ⟨rfl, rfl⟩, by simp [run]⟩
  | cons entry blocks ih =>
    obtain ⟨block, deltas⟩ := entry
    obtain ⟨before, after, rfl, hblock, hblocks⟩ := h
    obtain ⟨hshows, hbelow'⟩ := shows_block (htype _ List.mem_cons_self) hblock hbelow
    have hrest := ih (fun entry he => htype entry (List.mem_cons_of_mem _ he)) hblocks hbelow'
    rw [run_append]
    refine ⟨?_, ?_, ⟨hrest.reason.1.trans hshows.reason.1, hrest.reason.2.trans hshows.reason.2⟩,
      ?_⟩
    · rw [hrest.content, hshows.content, String.append_assoc, List.map_cons, List.map_nil,
        List.map_cons, String.join_cons, String.join_cons, String.join_nil, String.append_empty]
    · rw [hrest.calls, hshows.calls, List.append_assoc, List.zipIdx_cons, List.zipIdx_nil,
        List.zipIdx_cons, ← List.filterMap_append, List.singleton_append]
    · rw [hrest.noCalls, hshows.noCalls]
      simp [Bool.and_assoc]

end MessagesView

/-! ### Whole messages -/

/-- The tool call that a block is converted into. -/
def wholeTool (c : Codec) (block : Value × ℕ) : ChatToolCall where
  id := (readBlock block.1).id.getD (syntheticCallId block.2)
  name := (readBlock block.1).name.getD "unknown"
  arguments := printString c (toolInput block.1)

theorem anthropicBlockToChatMessage_eq (c : Codec) (message : String × List ChatToolCall)
    (block : Value × ℕ) :
    anthropicBlockToChatMessage c message block =
      (message.1 ++ blockText block.1,
        message.2 ++ ([block].filter fun block => isTool block.1).map (wholeTool c)) := by
  obtain ⟨block, index⟩ := block
  cases block with
  | object m =>
    rw [anthropicBlockToChatMessage]
    dsimp only
    split
    · rename_i htype
      have htext : isText (.object m) = true := decide_eq_true htype
      rw [List.filter_cons_of_neg (by simp [not_isTool htext]), List.filter_nil, List.map_nil,
        List.append_nil, blockText, if_pos htext]
      dsimp only [readBlock, Value.get_object]
      cases (OrdMap.get "text" m).bind Value.asStr <;> simp
    · rename_i htype
      have htool : isTool (.object m) = true := decide_eq_true htype
      have htext : isText (.object m) = false := by
        rw [isText, of_decide_eq_true htool]
        decide
      rw [List.filter_cons_of_pos (by simpa using htool), blockText, htext,
        if_neg Bool.false_ne_true, String.append_empty]
      rfl
    · rename_i hnotText hnotTool
      have htool : isTool (.object m) = false := decide_eq_false hnotTool
      have htext : isText (.object m) = false := decide_eq_false hnotText
      simp [blockText, htext, htool]
  | _ => simp [anthropicBlockToChatMessage, blockText, isText, isTool, readBlock, Value.get]

/-- **What a whole message is converted into.** -/
theorem anthropicContentToChatMessage_eq (c : Codec) {content : Option Value}
    {blocks : List Value} (h : content.bind Value.asArray = some blocks) :
    anthropicContentToChatMessage c content =
      (String.join (blocks.map blockText),
        (blocks.zipIdx.filter fun block => isTool block.1).map (wholeTool c)) := by
  have hfold : ∀ (blocks : List Value) (index : ℕ) (message : String × List ChatToolCall),
      (blocks.zipIdx index).foldl (anthropicBlockToChatMessage c) message =
        (message.1 ++ String.join (blocks.map blockText), message.2 ++
          ((blocks.zipIdx index).filter fun block => isTool block.1).map (wholeTool c)) := by
    intro blocks
    induction blocks with
    | nil => simp
    | cons block blocks ih =>
      intro index message
      rw [List.zipIdx_cons, List.foldl_cons, ih, anthropicBlockToChatMessage_eq, List.append_assoc,
        ← List.map_append, ← List.filter_append, List.singleton_append, List.map_cons,
        String.join_cons, String.append_assoc]
  rw [anthropicContentToChatMessage, h]
  simpa using hfold blocks 0 ("", [])

theorem readChatCompletion_message (c : Codec) {message : Value} {blocks : List Value}
    (h : (message.get "content").bind Value.asArray = some blocks) :
    readChatCompletion (anthropicMessageToChatCompletion c message) =
      { content := String.join (blocks.map blockText)
        toolCalls := ((blocks.zipIdx.filter fun block => isTool block.1).map (wholeTool c)).map
          ChatToolCall.assembled
        finishReason := some ((((message.get "stop_reason").bind Value.asStr).map
          chatFinishReasonFromAnthropicStopReason).getD .stop).text } := by
  cases message with
  | object m =>
    rw [Value.get_object] at h
    have hcontent : ((if String.join (blocks.map blockText) = "" then Value.null
        else .string (String.join (blocks.map blockText))).asStr).getD "" =
        String.join (blocks.map blockText) := by
      split_ifs with hempty
      · exact hempty.symm
      · rfl
    rw [anthropicMessageToChatCompletion, anthropicContentToChatMessage_eq c h]
    dsimp only
    rw [readChatCompletion_chatCompletion, hcontent]
    rfl
  | _ => simp [Value.get] at h

/-! ### The end of a stream -/

namespace MessagesStream

variable (backendModel publicModel : Option String)

theorem applyAll_stop {s : MessagesStream} (seen : Assembled) {event : Value} (usage : UsageTotals)
    (count : ℕ) (h : s.completed = false) (hkind : messagesKind event = .stop) :
    seen.applyAll (s.signal backendModel publicModel (.event usage count event)).2 =
        { seen with finishReason := some (s.finishReason.getD
          (if s.toolCalls.isEmpty then .stop else .toolCalls)) } ∧
      (s.signal backendModel publicModel (.event usage count event)).1.completed = true := by
  obtain ⟨messageId, model, hmeta⟩ := s.setMetadata_spec backendModel publicModel event
  let t : MessagesStream := { s with messageId, model }
  have hsignal : s.signal backendModel publicModel (.event usage count event) =
      t.finishResponse usage count := by
    rw [signal, processEvent_eq]
    simp only [deltaStep, hmeta, closeStep, hkind, List.nil_append]
    rfl
  have ht : t.completed = false := h
  rw [hsignal, finishResponse, if_neg (by rw [ht]; decide)]
  simp only [doneEvent]
  constructor
  · split_ifs <;> rfl
  · split_ifs <;> rfl

theorem applyAll_stops {s : MessagesStream} (h : s.completed = true) (seen : Assembled)
    {stops : List MessagesSignal} (hstops : ∀ sig ∈ stops, ∃ usage count, sig = .stop usage count) :
    seen.applyAll (Mealy.run (signal backendModel publicModel) s stops).2 = seen := by
  induction stops generalizing s with
  | nil => rfl
  | cons sig stops ih =>
    obtain ⟨⟨usage, count, rfl⟩, hrest⟩ := List.forall_mem_cons.mp hstops
    obtain ⟨hcompleted, hfinish⟩ :=
      signal_completed backendModel publicModel h (.stop usage count)
    have hquiet : ∀ f ∈ (s.signal backendModel publicModel (.stop usage count)).2,
        f.carries = false ∧ f.isFinish = false :=
      fun f hf => ⟨(s.finishStream_sends usage count).1 f hf, hfinish f hf⟩
    rw [Mealy.run_cons, Assembled.applyAll_append, seen.applyAll_quiet hquiet]
    exact ih hcompleted hrest

end MessagesStream

/-! ### Whole streams -/

theorem BlockDelta.kinds {index : ℕ} {block : Value} {deltas : List String} {pieces : List Value}
    (h : List.Forall₂ (BlockDelta index block) deltas pieces) :
    ∀ e ∈ pieces, messagesKind e ≠ .stop ∧ messagesKind e ≠ .failed := by
  induction h with
  | nil => simp
  | cons hpiece _ ih => exact List.forall_mem_cons.mpr ⟨by simp [hpiece.kind], ih⟩

theorem RealisesBlocks.kinds {c : Codec} {index : ℕ} {blocks : List (Value × List String)}
    {events : List Value} (h : RealisesBlocks c index blocks events) :
    ∀ e ∈ events, messagesKind e ≠ .stop ∧ messagesKind e ≠ .failed := by
  induction blocks generalizing index events with
  | nil =>
    obtain rfl : events = [] := h
    simp
  | cons entry blocks ih =>
    obtain ⟨before, after, rfl, ⟨start, pieces, rfl, hstart, hpieces, -⟩, hblocks⟩ := h
    refine List.forall_mem_append.mpr ⟨?_, ih hblocks⟩
    exact List.forall_mem_cons.mpr ⟨by simp [hstart.kind], BlockDelta.kinds hpieces⟩

theorem MessagesView.run_message {c : Codec} {message : Value}
    {blocks : List (Value × List String)} {first : Value} {middle : List Value}
    {delta : Option Value}
    (htype : ∀ entry ∈ blocks, isText entry.1 = true ∨ isTool entry.1 = true)
    (hfirst : StartsMessage message first) (hblocks : RealisesBlocks c 0 blocks middle)
    (hdelta : ∀ e ∈ delta, messagesKind e = .messageDelta) :
    ∃ v' : MessagesView, ({} : MessagesView).Shows 0 blocks v' ∧
      ({} : MessagesView).run (first :: (middle ++ delta.toList)) = { v' with
        finishReason := (delta.bind stopReason).map chatFinishReasonFromAnthropicStopReason } := by
  have hmove : messagesMove first = .other := by rw [messagesMove, hfirst.1]
  have hshows := run_blocks htype hblocks (v := {}) ⟨by simp, by simp⟩
  refine ⟨_, hshows, ?_⟩
  rw [run_cons, hmove, run_append]
  change (({} : MessagesView).run middle).run delta.toList = _
  have hnone : (({} : MessagesView).run middle).finishReason = none := hshows.reason.2
  generalize ({} : MessagesView).run middle = v at hnone ⊢
  obtain ⟨calls, reason⟩ := v
  obtain rfl : reason = none := hnone
  cases delta with
  | none => rfl
  | some e =>
    have he : messagesMove e = .reason (stopReason e) := by rw [messagesMove, hdelta e rfl]
    rw [Option.toList_some, run_cons, he]
    simp only [step, Option.or_none, Option.bind_some]
    rfl

/-- **What a client has of a stream that realises a message.** -/
theorem assemble_realisesMessage (c : Codec) (o : SseObserver) (emit : Bool) {fs : List SseFrame}
    {message : Value} {blocks : List (Value × List String)} {events : List Value}
    (hevents : EventsOf fs events) (h : RealisesMessage c message blocks events) :
    (assemble (messagesFrames o emit fs)).message =
      { content := String.join (blocks.map fun e => blockText e.1)
        toolCalls := (blocks.zipIdx.filterMap shownTool).map Prod.snd
        finishReason := some ((((message.get "stop_reason").bind Value.asStr).map
          chatFinishReasonFromAnthropicStopReason).getD
            (if blocks.any fun e => isTool e.1 then .toolCalls else .stop)).text } := by
  obtain ⟨before, last, first, middle, delta, rfl, hbefore, hfirst, hblocks, hdelta, hreason,
    hlast⟩ := h.stream
  obtain ⟨sigs, stops, hsignals, htells, hstops⟩ := messagesSignals_eventsOf o hevents
  have hkinds : ∀ e ∈ before, messagesKind e ≠ .stop ∧ messagesKind e ≠ .failed := by
    intro e he
    by_cases hother : messagesKind e = .other
    · simp [hother]
    · have hmem : e ∈ first :: (middle ++ Option.toList delta) := by
        rw [← hbefore]
        exact List.mem_filter.mpr ⟨he, by simp [hother]⟩
      rcases List.mem_cons.mp hmem with rfl | hmem
      · simp [hfirst.1]
      rcases List.mem_append.mp hmem with hmem | hmem
      · exact hblocks.kinds e hmem
      · simp [hdelta e (Option.mem_toList.mp hmem)]
  have hbegin := List.forall₂_take_append _ _ _ htells
  have hend := List.forall₂_drop_append _ _ _ htells
  rw [← List.take_append_drop before.length sigs, List.append_assoc] at hsignals
  generalize sigs.take before.length = begins at hbegin hsignals
  generalize sigs.drop before.length = ends at hend hsignals
  cases hend with
  | @cons sig _ rest _ hsig hrest =>
    cases hrest
    obtain ⟨usage, count, rfl⟩ := hsig
    let s : MessagesStream := { emitUsageToClient := emit }
    obtain ⟨hview, hopen⟩ := MessagesStream.view_run o.backendModel o.publicModel o hbegin hkinds s
      {}
    obtain ⟨v, hshows, hrun⟩ := MessagesView.run_message h.blocks_type hfirst hblocks hdelta
    rw [← MessagesView.run_filter, hbefore] at hview
    set r := Mealy.run (MessagesStream.signal o.backendModel o.publicModel) s begins with hr
    have hfinal : r.1.view (({} : Assembled).applyAll r.2) = { v with
        finishReason := ((message.get "stop_reason").bind Value.asStr).map
          chatFinishReasonFromAnthropicStopReason } := by
      rw [← hreason, ← hrun]
      exact hview
    obtain ⟨hkept, hfinish⟩ := MessagesView.mk.inj hfinal
    obtain ⟨hcalls, hseen⟩ := CallsView.mk.inj hkept
    obtain ⟨happly, hcompleted⟩ := MessagesStream.applyAll_stop o.backendModel o.publicModel
      (({} : Assembled).applyAll r.2) usage count (hopen.trans rfl)
      ((messagesKind_rewriteEvent o last).trans hlast)
    have hempty : r.1.toolCalls.isEmpty = !blocks.any fun e => isTool e.1 := by
      rw [hcalls]
      exact hshows.noCalls
    have hassemble : assemble (messagesFrames o emit fs) = { v.seen with
        finishReason := some ((((message.get "stop_reason").bind Value.asStr).map
          chatFinishReasonFromAnthropicStopReason).getD
            (if r.1.toolCalls.isEmpty then .stop else .toolCalls)) } := by
      rw [assemble, messagesFrames, hsignals, Mealy.run_append, ← hr, Assembled.applyAll_append,
        List.singleton_append, Mealy.run_cons, Assembled.applyAll_append, happly,
        MessagesStream.applyAll_stops o.backendModel o.publicModel hcompleted _ hstops, hseen,
        hfinish]
    have hcontent : v.seen.content = String.join (blocks.map fun e => blockText e.1) := by
      rw [hshows.content]
      exact String.empty_append
    rw [hassemble, Assembled.message, hcontent, hshows.calls, hempty]
    cases blocks.any fun e => isTool e.1 <;> rfl

/-! ### When the two agree -/

/-- Two texts that are read as the same JSON. -/
def SameJson (c : Codec) (s t : String) : Prop :=
  ∃ value, c.fromSlice (asBytes s) = some value ∧ c.fromSlice (asBytes t) = some value

/-- Two tool calls with the same id and name, and the same arguments as JSON. -/
def SameCall (c : Codec) (a b : AssembledCall) : Prop :=
  a.id = b.id ∧ a.name = b.name ∧ SameJson c a.arguments b.arguments

/-- The message put together from a stream is that of the whole message, its arguments as JSON. -/
def MessageAgrees (c : Codec) (message : Value) (fs : List ChatFrame) : Prop :=
  let streamed := (assemble fs).message
  let whole := readChatCompletion (anthropicMessageToChatCompletion c message)
  streamed.content = whole.content ∧
    List.Forall₂ (SameCall c) streamed.toolCalls whole.toolCalls ∧
    streamed.finishReason = whole.finishReason

/-- A codec that prints texts. -/
def PrintsText (c : Codec) : Prop := ∀ value, ∃ text, c.toVec value = asBytes text

/-- Every tool call has a name and an input that is not empty and is read back when it is
printed. -/
def ToolsWhole (c : Codec) (blocks : List (Value × List String)) : Prop :=
  ∀ entry ∈ blocks, isTool entry.1 = true → (readBlock entry.1).name.isSome = true ∧
    toolInput entry.1 ≠ .obj [] ∧
    c.fromSlice (c.toVec (toolInput entry.1)) = some (toolInput entry.1)

theorem asBytes_printString {c : Codec} (h : PrintsText c) (value : Value) :
    asBytes (printString c value) = c.toVec value := by
  obtain ⟨text, htext⟩ := h value
  rw [printString, htext, fromUtf8Lossy_asBytes]

/-- The empty text is not read as an empty object. -/
theorem not_sameJson_empty {c : Codec} (hc : c.Lawful) (hprints : PrintsText c) :
    ¬SameJson c "" (printString c (.obj [])) := by
  rintro ⟨value, hempty, hobject⟩
  rw [asBytes_printString hprints] at hobject
  have hblur := hc.blur_read_print _ _ (Value.wf_obj (by simp)) hobject
  have hvalue : ∃ m, value = .object m := by
    cases value with
    | object m => exact ⟨m, rfl⟩
    | _ => simp [Value.obj, OrdMap.ofList, Value.blur] at hblur
  obtain ⟨m, rfl⟩ := hvalue
  exact absurd (hc.object_head _ m hempty) (by decide)

theorem forall₂_filterMap_map {α β γ : Type} {R : β → γ → Prop} {f : α → Option β} {g : α → γ}
    {l : List α} :
    List.Forall₂ R (l.filterMap f) (l.map g) ↔ ∀ x ∈ l, ∃ y, f x = some y ∧ R y (g x) := by
  induction l with
  | nil => simp
  | cons x l ih =>
    rw [List.map_cons, List.forall_mem_cons]
    cases hx : f x with
    | none =>
      rw [List.filterMap_cons_none hx]
      refine iff_of_false (fun h => ?_) (by simp)
      have hlength := h.length_eq
      have hle := List.length_filterMap_le f l
      rw [List.length_cons, List.length_map] at hlength
      omega
    | some y =>
      rw [List.filterMap_cons_some hx, List.forall₂_cons, ih]
      simp

/-- A tool call that is streamed is the one of the whole message if and only if it is whole. -/
theorem sameCall_iff {c : Codec} (hc : c.Lawful) (hprints : PrintsText c) (block : Value)
    (index : ℕ) {deltas : List String} (htool : isTool block = true)
    (hjoins : JoinsTo c block deltas) :
    (∃ call, seenCall ((readBlock block).id.getD (syntheticCallId index)) (readBlock block).name
          (String.join deltas) = some call ∧
        SameCall c call (wholeTool c (block, index)).assembled) ↔
      (readBlock block).name.isSome = true ∧ toolInput block ≠ .obj [] ∧
        c.fromSlice (c.toVec (toolInput block)) = some (toolInput block) := by
  rw [JoinsTo, if_pos htool] at hjoins
  cases hname : (readBlock block).name with
  | none =>
    refine iff_of_false ?_ (by simp)
    rintro ⟨call, hcall, hid, -⟩
    rw [seenCall] at hcall
    split_ifs at hcall
    obtain rfl := Option.some.inj hcall
    exact absurd hid (by simp [ChatToolCall.assembled])
  | some name =>
    have hsame : (∃ call, seenCall ((readBlock block).id.getD (syntheticCallId index)) (some name)
          (String.join deltas) = some call ∧
        SameCall c call (wholeTool c (block, index)).assembled) ↔
        SameJson c (String.join deltas) (printString c (toolInput block)) := by
      simp [seenCall, SameCall, wholeTool, ChatToolCall.assembled, hname]
    rw [hsame]
    split_ifs at hjoins with hempty
    · rw [hjoins, hempty]
      exact iff_of_false (not_sameJson_empty hc hprints) (by simp)
    · rw [SameJson, asBytes_printString hprints, hjoins]
      simp [hempty]

theorem RealisesBlocks.joins {c : Codec} {index : ℕ} {blocks : List (Value × List String)}
    {events : List Value} (h : RealisesBlocks c index blocks events) :
    ∀ entry ∈ blocks, JoinsTo c entry.1 entry.2 := by
  induction blocks generalizing index events with
  | nil => simp
  | cons entry blocks ih =>
    obtain ⟨before, after, -, ⟨start, pieces, -, -, -, hjoins⟩, hblocks⟩ := h
    exact List.forall_mem_cons.mpr ⟨hjoins, ih hblocks⟩

/-- **The tool calls are the same if and only if they are whole.** -/
theorem shownTools_iff {c : Codec} (hc : c.Lawful) (hprints : PrintsText c)
    {blocks : List (Value × List String)} (hjoins : ∀ entry ∈ blocks, JoinsTo c entry.1 entry.2) :
    List.Forall₂ (SameCall c) ((blocks.zipIdx.filterMap shownTool).map Prod.snd)
        ((((blocks.map Prod.fst).zipIdx.filter fun block => isTool block.1).map
          (wholeTool c)).map ChatToolCall.assembled) ↔ ToolsWhole c blocks := by
  let tools := blocks.zipIdx.filter fun entry => isTool entry.1.1
  have hshown : (blocks.zipIdx.filterMap shownTool).map Prod.snd = tools.filterMap fun entry =>
      seenCall ((readBlock entry.1.1).id.getD (syntheticCallId entry.2))
        (readBlock entry.1.1).name (String.join entry.1.2) := by
    rw [List.map_filterMap, List.filterMap_filter]
    refine List.filterMap_congr fun entry _ => ?_
    rw [shownTool]
    split_ifs <;> simp [Function.comp_def]
  have hwhole : (((blocks.map Prod.fst).zipIdx.filter fun block => isTool block.1).map
        (wholeTool c)).map ChatToolCall.assembled =
      tools.map fun entry => (wholeTool c (entry.1.1, entry.2)).assembled := by
    rw [List.zipIdx_map, List.filter_map, List.map_map, List.map_map]
    rfl
  have hfst : blocks.zipIdx.map Prod.fst = blocks := List.zipIdx_map_fst 0 blocks
  have hjoins' : ∀ entry ∈ blocks.zipIdx, JoinsTo c entry.1.1 entry.1.2 := by
    rw [← hfst, List.forall_mem_map] at hjoins
    exact hjoins
  have hmem : (∀ entry ∈ blocks.zipIdx, isTool entry.1.1 = true →
        (readBlock entry.1.1).name.isSome = true ∧ toolInput entry.1.1 ≠ .obj [] ∧
        c.fromSlice (c.toVec (toolInput entry.1.1)) = some (toolInput entry.1.1)) ↔
      ToolsWhole c blocks := by
    conv_rhs => rw [ToolsWhole, ← hfst, List.forall_mem_map]
  rw [hshown, hwhole, forall₂_filterMap_map, ← hmem]
  simp only [tools, List.mem_filter, and_imp]
  exact forall₃_congr fun entry hentry htool =>
    sameCall_iff hc hprints entry.1.1 entry.2 htool (hjoins' entry hentry)

/-- The finish reasons are the same if and only if the message has a stop reason or no tool call. -/
theorem finishReason_iff (reason : Option String) (tools : Bool) :
    ((reason.map chatFinishReasonFromAnthropicStopReason).getD
          (if tools then .toolCalls else .stop)).text =
        ((reason.map chatFinishReasonFromAnthropicStopReason).getD .stop).text ↔
      reason.isSome = true ∨ tools = false := by
  cases reason with
  | some reason => simp
  | none => cases tools <;> decide

/-- **When streamed and whole Anthropic messages agree**: for every message made of texts and tool
calls, and every stream that realises it, in any chunks, if and only if every tool call has a name
and an input that is not empty and is read back when it is printed, and the message has a stop
reason or no tool call. -/
theorem streamed_message_agrees_iff (c : Codec) (hc : c.Lawful) (hprints : PrintsText c)
    (backendModel publicModel : Option String) (emit : Bool) (chunks : List Bytes)
    {message : Value} {blocks : List (Value × List String)} {events : List Value}
    (hevents : EventsOf (frames c chunks.flatten) events)
    (h : RealisesMessage c message blocks events) :
    SentFrames (MessageAgrees c message)
        ((SseStrategy.new .chatCompletionsViaMessages backendModel publicModel emit).runAll c
          chunks).2 ↔
      ToolsWhole c blocks ∧ (((message.get "stop_reason").bind Value.asStr).isSome = true ∨
        (blocks.any fun entry => isTool entry.1) = false) := by
  obtain ⟨_, _, _, _, _, -, -, -, hblocks, -⟩ := h.stream
  rw [runAll_messages, sentFrames_map, MessageAgrees, assemble_realisesMessage c _ emit hevents h,
    readChatCompletion_message c h.content]
  dsimp only
  rw [shownTools_iff hc hprints hblocks.joins, Option.some.injEq, finishReason_iff, List.map_map]
  exact and_iff_right rfl

/-- A tool call with some input. -/
def sampleTool (input : Value) : Value :=
  .obj [("type", .string "tool_use"), ("id", .string "t"), ("name", .string "f"), ("input", input)]

/-- A message with one tool call. -/
def sampleToolMessage (input : Value) : Value :=
  .obj [("id", .string "m"), ("content", .array [sampleTool input]),
    ("stop_reason", .string "tool_use")]

/-- The start of a message. -/
def sampleStart : Value :=
  .obj [("type", .string "message_start"), ("message", .obj [("id", .string "m")])]

/-- The start of its tool call. -/
def sampleToolStart : Value :=
  .obj [("type", .string "content_block_start"), ("index", indexValue 0),
    ("content_block", sampleTool (.obj []))]

/-- A piece of its input. -/
def sampleInput (text : String) : Value :=
  .obj [("type", .string "content_block_delta"), ("index", indexValue 0),
    ("delta", .obj [("type", .string "input_json_delta"), ("partial_json", .string text)])]

/-- The end of its tool call. -/
def sampleToolStop : Value := .obj [("type", .string "content_block_stop"), ("index", indexValue 0)]

/-- Its stop reason. -/
def sampleStopReason : Value :=
  .obj [("type", .string "message_delta"), ("delta", .obj [("stop_reason", .string "tool_use")])]

/-- The end of the message. -/
def sampleStop : Value := .obj [("type", .string "message_stop")]

/-- The events of a message with one tool call, but for the last. -/
def sampleToolEvents (deltas : List String) : List Value :=
  sampleStart :: sampleToolStart :: (deltas.map sampleInput ++ [sampleToolStop, sampleStopReason])

theorem eventsOf_sampleTool (deltas : List String) :
    EventsOf (frames reference
        [(sampleToolEvents deltas ++ [sampleStop]).flatMap (sseData reference)].flatten)
      (sampleToolEvents deltas ++ [sampleStop]) := by
  have hlt : 2 < maxDepth := by decide
  have htool : (sampleTool (.obj [])).Fits 2 :=
    Value.fits_obj (by simp [Value.fits_obj (d := 0) (l := [])])
  have hobj : ∀ l : List (String × Value), (∀ e ∈ l, e.2.Fits 1) → (Value.obj l).Fits 2 :=
    fun l hl => Value.fits_obj hl
  rw [List.flatten_singleton]
  refine eventsOf_printed reference_lawful ?_
  simp only [sampleToolEvents, List.cons_append, List.append_assoc, List.forall_mem_cons,
    List.forall_mem_append, List.forall_mem_map, List.nil_append, List.not_mem_nil, false_imp_iff,
    implies_true, and_true]
  refine ⟨?_, ?_, fun text _ => ?_, ?_, ?_, ?_⟩ <;>
    refine readsBack_reference hlt ?_ <;>
    simp [hobj, htool, indexValue]

theorem realisesMessage_sampleTool (input : Value) {deltas : List String}
    (hjoins : JoinsTo reference (sampleTool input) deltas) :
    RealisesMessage reference (sampleToolMessage input) [(sampleTool input, deltas)]
      (sampleToolEvents deltas ++ [sampleStop]) := by
  have htool : isTool (sampleTool input) = true := by
    simp [isTool, readBlock, sampleTool, Value.get_obj]
  have hinput : ∀ text, messagesKind (sampleInput text) = .blockDelta := by
    intro text
    simp [messagesKind, sampleInput, Value.get_obj]
  have hpieces : List.Forall₂ (BlockDelta 0 (sampleTool input)) deltas
      (deltas.map sampleInput) := by
    clear hjoins
    induction deltas with
    | nil => exact .nil
    | cons delta deltas ih =>
      refine .cons ⟨hinput delta, ?_, .obj [("type", .string "input_json_delta"),
        ("partial_json", .string delta)], ?_, ?_, ?_⟩ ih
      · simp [blockIndex, sampleInput, Value.get_obj, indexValue]
      · simp [sampleInput, Value.get_obj]
      · simp [htool, Value.get_obj]
      · simp [htool, Value.get_obj]
  have hfilter : (sampleToolEvents deltas).filter (fun e => messagesKind e ≠ .other) =
      sampleStart :: ((sampleToolStart :: deltas.map sampleInput) ++ [sampleStopReason]) := by
    have hself : (deltas.map sampleInput).filter (fun e => messagesKind e ≠ .other) =
        deltas.map sampleInput := by
      rw [List.filter_eq_self]
      simp [hinput]
    rw [sampleToolEvents, List.filter_cons_of_pos (by decide +kernel),
      List.filter_cons_of_pos (by decide +kernel), List.filter_append, hself,
      List.filter_cons_of_neg (by decide +kernel), List.filter_cons_of_pos (by decide +kernel)]
    rfl
  have hstart : BlockStart 0 (sampleTool input) sampleToolStart := by
    refine ⟨by decide +kernel, by decide +kernel, sampleTool (.obj []), by decide +kernel, ?_⟩
    simp [readBlock, sampleTool, Value.get_obj]
  have hblocks : RealisesBlocks reference 0 [(sampleTool input, deltas)]
      (sampleToolStart :: deltas.map sampleInput) :=
    ⟨_, [], (List.append_nil _).symm, ⟨_, _, rfl, hstart, hpieces, hjoins⟩, rfl⟩
  refine ⟨?_, by simp [htool], sampleToolEvents deltas, sampleStop, sampleStart, _,
    some sampleStopReason, rfl, hfilter, ⟨by decide +kernel, .obj [("id", .string "m")],
      by decide +kernel, ?_, ?_⟩, hblocks, by decide +kernel, ?_, by decide +kernel⟩
  · simp [sampleToolMessage, Value.get_obj, Value.asArray]
  · simp [sampleToolMessage, Value.get_obj]
  · simp [sampleToolMessage, Value.get_obj]
  · simp [stopReason, sampleStopReason, sampleToolMessage, Value.get_obj]

/-- The input of a sample call. -/
def sampleToolInput : Value := .obj [("x", .string "y")]

theorem printsText_reference : PrintsText reference := fun _ => ⟨_, rfl⟩

/-- A tool call with some input is the same, streamed or whole. -/
theorem streamed_message_agrees_tool :
    SentFrames (MessageAgrees reference (sampleToolMessage sampleToolInput))
      ((SseStrategy.new .chatCompletionsViaMessages none none false).runAll reference
        [(sampleToolEvents [printString reference sampleToolInput] ++ [sampleStop]).flatMap
          (sseData reference)]).2 := by
  have hread : reference.fromSlice (reference.toVec sampleToolInput) = some sampleToolInput :=
    (readsBack_reference (d := 0) (by decide) (by simp)).2
  have htool : isTool (sampleTool sampleToolInput) = true := by decide +kernel
  have hinput : toolInput (sampleTool sampleToolInput) = sampleToolInput := by decide +kernel
  have hjoins : JoinsTo reference (sampleTool sampleToolInput)
      [printString reference sampleToolInput] := by
    rw [JoinsTo, if_pos htool, hinput, if_neg (by decide +kernel), String.join_cons,
      String.join_nil, String.append_empty, asBytes_printString printsText_reference]
    exact hread
  refine (streamed_message_agrees_iff reference reference_lawful printsText_reference none none
    false _ (eventsOf_sampleTool _) (realisesMessage_sampleTool _ hjoins)).mpr ⟨?_, ?_⟩
  · simp only [ToolsWhole, List.forall_mem_singleton, hinput]
    exact fun _ => ⟨by decide +kernel, by decide +kernel, hread⟩
  · exact Or.inl (by decide +kernel)

/-- The arguments of a tool call with an empty input are no JSON when they are streamed. -/
theorem streamed_message_empty_input :
    EventsOf (frames reference
        [(sampleToolEvents [] ++ [sampleStop]).flatMap (sseData reference)].flatten)
        (sampleToolEvents [] ++ [sampleStop]) ∧
      RealisesMessage reference (sampleToolMessage (.obj [])) [(sampleTool (.obj []), [])]
        (sampleToolEvents [] ++ [sampleStop]) ∧
      ¬SentFrames (MessageAgrees reference (sampleToolMessage (.obj [])))
        ((SseStrategy.new .chatCompletionsViaMessages none none false).runAll reference
          [(sampleToolEvents [] ++ [sampleStop]).flatMap (sseData reference)]).2 := by
  have hjoins : JoinsTo reference (sampleTool (.obj [])) [] := by
    rw [JoinsTo, if_pos (by decide +kernel), if_pos (by decide +kernel)]
    rfl
  have hevents := eventsOf_sampleTool []
  have hrealises := realisesMessage_sampleTool (.obj []) hjoins
  refine ⟨hevents, hrealises, fun hagrees => ?_⟩
  rw [runAll_messages, sentFrames_map, MessageAgrees,
    assemble_realisesMessage reference _ false hevents hrealises,
    readChatCompletion_message reference hrealises.content] at hagrees
  have hwhole := (shownTools_iff reference_lawful printsText_reference
    (List.forall_mem_singleton.mpr hjoins)).mp hagrees.2.1
  exact (hwhole _ List.mem_cons_self (by decide +kernel)).2.1 (by decide +kernel)

end Onair
