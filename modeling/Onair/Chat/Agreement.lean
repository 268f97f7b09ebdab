import Onair.Chat.View

/-!
# Streamed and whole responses agree

A Responses stream that realises a response is converted into the message that the whole response
is converted into, where no text is lost and every tool call is whole.

* `ItemAdded`, `ItemDelta`, `ItemDone`, `Realises`: the streams that realise a response;
* `ChatView.run_message`, `ChatView.run_call`: what the events of one item change;
* `ChatView.run_items`: **what a stream shows of the items of a response**;
* `responseOutputToChatMessage_eq`: what the whole response shows of them;
* `streamed_response_agrees_iff`: **when the two agree**.
-/

namespace Onair

open Json

/-! ### Streams that realise a response -/

/-- What the deltas of an item join to: the arguments of a tool call, the text of a message. -/
def itemWhole (item : Value) : String :=
  if isCall item then (readItem item).arguments.getD "" else (readItem item).text

/-- The event adds an item; its text or its arguments are still to come. -/
structure ItemAdded (index : ℕ) (item event : Value) : Prop where
  kind : responsesKind event = .item false
  index_eq : outputIndex event = some index
  begins : ∃ begun, event.get "item" = some begun ∧ (readItem begun).type = (readItem item).type ∧
    (readItem begun).callId = (readItem item).callId ∧
    (readItem begun).name = (readItem item).name

/-- The event is a piece of the text or of the arguments of an item. -/
structure ItemDelta (index : ℕ) (item : Value) (delta : String) (event : Value) : Prop where
  kind : responsesKind event = if isCall item then .arguments else .text
  index_eq : isCall item = true → outputIndex event = some index
  delta_eq : (event.get "delta").bind Value.asStr = some delta

/-- The event tells that an item is done. -/
structure ItemDone (index : ℕ) (item event : Value) : Prop where
  kind : responsesKind event = .item true
  index_eq : outputIndex event = some index
  item_eq : event.get "item" = some item

/-- The events of one item: it is added, comes in deltas or in none, and is done. -/
def RealisesItem (index : ℕ) (item : Value) (deltas : List String) (events : List Value) : Prop :=
  ∃ added pieces done, events = added :: (pieces ++ [done]) ∧ ItemAdded index item added ∧
    List.Forall₂ (ItemDelta index item) deltas pieces ∧ ItemDone index item done ∧
    (deltas = [] ∨ String.join deltas = itemWhole item)

/-- The events of the items of a response, in order, from an index on. -/
def RealisesItems (index : ℕ) : List (Value × List String) → List Value → Prop
  | [], events => events = []
  | (item, deltas) :: items, events => ∃ before after, events = before ++ after ∧
    RealisesItem index item deltas before ∧ RealisesItems (index + 1) items after

/-- The events realise a response made of messages and tool calls: those of its items, and last one
that carries the response. Events that say nothing of the items may come between. -/
structure Realises (response : Value) (items : List (Value × List String))
    (events : List Value) : Prop where
  output : (response.get "output").bind Value.asArray = some (items.map Prod.fst)
  items_type : ∀ entry ∈ items, isMessage entry.1 = true ∨ isCall entry.1 = true
  stream : ∃ before last, events = before ++ [last] ∧
    RealisesItems 0 items (before.filter fun e => responsesKind e ≠ .other) ∧
    responsesKind last = .completed ∧ last.get "response" = some response

/-! ### The events of an item -/

theorem ItemAdded.move_call {index : ℕ} {item event : Value} (h : ItemAdded index item event)
    (hcall : isCall item = true) : ∃ arguments, chatMove event =
      .call false (some index) (readItem item).callId (readItem item).name arguments := by
  obtain ⟨begun, hbegun, htype, hid, hname⟩ := h.begins
  have hcall' : (readItem begun).type = some "function_call" :=
    htype.trans (of_decide_eq_true hcall)
  refine ⟨(readItem begun).arguments.getD "", ?_⟩
  rw [chatMove, h.kind, hbegun]
  dsimp only
  rw [itemMove_call _ _ hcall', h.index_eq, hid, hname]

theorem ItemAdded.move_message {index : ℕ} {item event : Value} (h : ItemAdded index item event)
    (hmessage : isMessage item = true) : chatMove event = .other := by
  obtain ⟨begun, hbegun, htype, -⟩ := h.begins
  have hmessage' : (readItem begun).type = some "message" :=
    htype.trans (of_decide_eq_true hmessage)
  rw [chatMove, h.kind, hbegun]
  exact itemMove_message _ _ hmessage'

theorem ItemDone.move_call {index : ℕ} {item event : Value} (h : ItemDone index item event)
    (hcall : isCall item = true) : chatMove event = .call true (some index) (readItem item).callId
      (readItem item).name (itemWhole item) := by
  rw [chatMove, h.kind, h.item_eq, itemWhole, if_pos hcall]
  dsimp only
  rw [itemMove_call _ _ (of_decide_eq_true hcall), h.index_eq]

theorem not_isCall {item : Value} (h : isMessage item = true) : isCall item = false := by
  rw [isCall, of_decide_eq_true h]
  decide

theorem ItemDone.move_message {index : ℕ} {item event : Value} (h : ItemDone index item event)
    (hmessage : isMessage item = true) : chatMove event = .message (itemWhole item) := by
  rw [chatMove, h.kind, h.item_eq, itemWhole, not_isCall hmessage]
  exact itemMove_message _ _ (of_decide_eq_true hmessage)

namespace ChatView

/-! ### Messages -/

theorem say_empty (v : ChatView) : v.say "" = v := if_pos rfl

theorem say_say (v : ChatView) (text text' : String) :
    (v.say text).say text' = v.say (text ++ text') := by
  by_cases h : text = ""
  · rw [h, say_empty, String.empty_append]
  · by_cases h' : text' = ""
    · rw [h', say_empty, String.append_empty]
    · simp [say, h, h', String.append_assoc]

theorem run_textDeltas {index : ℕ} {item : Value} (hcall : isCall item = false)
    {deltas : List String} {pieces : List Value}
    (h : List.Forall₂ (ItemDelta index item) deltas pieces) (v : ChatView) :
    v.run pieces = v.say (String.join deltas) := by
  induction h generalizing v with
  | nil => exact (v.say_empty).symm
  | @cons delta piece deltas pieces hpiece _ ih =>
    have hmove : chatMove piece = .text delta := by
      rw [chatMove, hpiece.kind, hcall]
      simp [ChatStream.textDelta, hpiece.delta_eq]
    rw [run_cons, hmove, ih, String.join_cons, ← say_say]
    rfl

/-- The texts sent are what the client has. -/
def Spoken (v : ChatView) : Prop := v.textSent = decide (v.seen.content ≠ "")

theorem Spoken.say {v : ChatView} (h : v.Spoken) (text : String) : (v.say text).Spoken := by
  unfold ChatView.say
  split_ifs with htext
  · exact h
  · simp [Spoken, htext]

/-- **The events of a message**: its text is shown unless some other was shown before and it comes
without deltas. -/
theorem run_message {index : ℕ} {item : Value} (hmessage : isMessage item = true)
    {deltas : List String} {events : List Value} (h : RealisesItem index item deltas events)
    {v : ChatView} (hv : v.Spoken) :
    v.run events = if deltas ≠ [] ∨ v.seen.content = "" then v.say (itemWhole item) else v := by
  obtain ⟨added, pieces, done, rfl, hadded, hpieces, hdone, hwhole⟩ := h
  have hcall := not_isCall hmessage
  rw [run_cons, hadded.move_message hmessage, run_append, run_cons, hdone.move_message hmessage]
  have hpieces' : (v.step .other).run pieces = v.say (String.join deltas) :=
    run_textDeltas hcall hpieces v
  rw [hpieces']
  change (if (v.say (String.join deltas)).textSent then v.say (String.join deltas)
    else (v.say (String.join deltas)).say (itemWhole item)) = _
  by_cases hdeltas : deltas = []
  · subst hdeltas
    rw [String.join_nil, say_empty, hv]
    by_cases hcontent : v.seen.content = "" <;> simp [hcontent]
  · rw [hwhole.resolve_left hdeltas, if_pos (Or.inl hdeltas)]
    by_cases htext : itemWhole item = ""
    · simp [htext, say_empty]
    · have hsent : (v.say (itemWhole item)).textSent = true := by simp [say, htext]
      rw [if_pos hsent]

/-! ### Tool calls -/

/-- The view with a tool call of which some arguments came. -/
def withCall (v : ChatView) (index : ℕ) (id : String) (callId name : Option String)
    (arguments : String) : ChatView :=
  { v with toCallsView := v.toCallsView.withCall index id callId name arguments }

variable {v : ChatView} {index : ℕ}

theorem step_call_first (hcalls : OrdMap.get index v.toolCalls = none)
    (hseen : OrdMap.get index v.seen.calls = none) (callId name : Option String)
    (arguments : String) :
    v.step (.call false (some index) callId name arguments) =
      v.withCall index (callId.getD (syntheticCallId index)) callId name "" := by
  have hcall : callAt v.toolCalls index = {} := by rw [callAt, hcalls]; rfl
  simp only [step, Option.getD_some, hcall, Bool.false_eq_true, false_and, if_false,
    Option.none_or]
  rw [show ("" ++ "" : String) = "" from rfl, store, CallsView.store_first hseen]
  rfl

theorem run_argumentsDeltas {item : Value} (hcall : isCall item = true) {deltas : List String}
    {pieces : List Value} (h : List.Forall₂ (ItemDelta index item) deltas pieces)
    (hseen : OrdMap.get index v.seen.calls = none) (id : String) (callId name : Option String)
    (arguments : String) : ∃ callId',
      (v.withCall index id callId name arguments).run pieces =
        v.withCall index id callId' name (arguments ++ String.join deltas) := by
  induction h generalizing callId arguments with
  | nil => exact ⟨callId, by simp [run]⟩
  | @cons delta piece deltas pieces hpiece _ ih =>
    have hmove : chatMove piece = .arguments (some index)
        (((piece.get "call_id").or (piece.get "item_id")).bind Value.asStr) delta := by
      rw [chatMove, hpiece.kind, hcall]
      simp [ChatStream.argumentsDelta, hpiece.delta_eq, hpiece.index_eq hcall]
    obtain ⟨callId', hrun⟩ := ih (callId.or
      (((piece.get "call_id").or (piece.get "item_id")).bind Value.asStr)) (arguments ++ delta)
    refine ⟨callId', ?_⟩
    rw [run_cons, hmove, String.join_cons, ← String.append_assoc, ← hrun]
    simp only [step, Option.getD_some, withCall, store, CallsView.callAt_withCall,
      CallsView.store_withCall hseen]

/-- **The events of a tool call**: the client has what it was announced as, and its arguments. -/
theorem run_call {item : Value} (hcall : isCall item = true) {deltas : List String}
    {events : List Value} (h : RealisesItem index item deltas events)
    (hcalls : OrdMap.get index v.toolCalls = none)
    (hseen : OrdMap.get index v.seen.calls = none) : ∃ callId,
      v.run events = v.withCall index ((readItem item).callId.getD (syntheticCallId index)) callId
        (readItem item).name (itemWhole item) := by
  obtain ⟨added, pieces, done, rfl, hadded, hpieces, hdone, hwhole⟩ := h
  obtain ⟨arguments, hmove⟩ := hadded.move_call hcall
  obtain ⟨callId, hrun⟩ := run_argumentsDeltas (v := v) hcall hpieces hseen
    ((readItem item).callId.getD (syntheticCallId index)) (readItem item).callId
    (readItem item).name ""
  refine ⟨callId.or (readItem item).callId, ?_⟩
  rw [run_cons, hmove, step_call_first hcalls hseen, run_append, hrun, run_cons,
    hdone.move_call hcall, String.empty_append]
  simp only [step, Option.getD_some, withCall, store, CallsView.callAt_withCall, true_and,
    Option.or_self, CallsView.store_withCall hseen, run, List.map_nil, List.foldl_nil]
  -- Either nothing was sent before, or all of it was.
  congr 1
  rcases hwhole with rfl | hwhole
  · rw [String.join_nil, if_pos rfl, String.empty_append]
  · rw [hwhole]
    split_ifs with hempty
    · rw [hempty, String.append_empty]
    · rw [String.append_empty]

end ChatView

/-! ### What is shown of the items -/

/-- The text shown after an item comes in some deltas: a message without deltas is not shown after
another text. -/
def showText (content : String) (entry : Value × List String) : String :=
  if isMessage entry.1 = true ∧ (entry.2 ≠ [] ∨ content = "") then
    content ++ (readItem entry.1).text
  else content

/-- The text that a stream shows. -/
def shownText (items : List (Value × List String)) : String := items.foldl showText ""

/-- The tool call that a stream shows for an item. -/
def shownCall (entry : (Value × List String) × ℕ) : Option (ℕ × AssembledCall) :=
  if isCall entry.1.1 then
    (seenCall ((readItem entry.1.1).callId.getD (syntheticCallId entry.2)) (readItem entry.1.1).name
      ((readItem entry.1.1).arguments.getD "")).map fun call => (entry.2, call)
  else none

namespace ChatView

theorem below_say {v : ChatView} {index : ℕ} (h : v.Below index) (text : String) :
    (v.say text).Below (index + 1) := by
  unfold ChatView.say
  split_ifs
  · exact h.succ
  · exact h.succ

/-- The view after the items of a response. -/
structure Shows (v : ChatView) (index : ℕ) (items : List (Value × List String))
    (v' : ChatView) : Prop where
  spoken : v'.Spoken
  content : v'.seen.content = items.foldl showText v.seen.content
  calls : v'.seen.calls = v.seen.calls ++ (items.zipIdx index).filterMap shownCall
  finishReason : v'.seen.finishReason = v.seen.finishReason
  noCalls : v'.toolCalls.isEmpty = (v.toolCalls.isEmpty && !items.any fun entry => isCall entry.1)

theorem shows_item {index : ℕ} {item : Value} {deltas : List String} {events : List Value}
    (htype : isMessage item = true ∨ isCall item = true)
    (h : RealisesItem index item deltas events) {v : ChatView} (hv : v.Spoken)
    (hbelow : v.Below index) :
    v.Shows index [(item, deltas)] (v.run events) ∧ (v.run events).Below (index + 1) := by
  rcases htype with hmessage | hcall
  · have hcall := not_isCall hmessage
    have hwhole : itemWhole item = (readItem item).text := by rw [itemWhole, hcall]; rfl
    rw [run_message hmessage h hv, hwhole]
    have hcalls : ∀ text, (v.say text).toolCalls = v.toolCalls ∧
        (v.say text).seen.calls = v.seen.calls ∧
        (v.say text).seen.finishReason = v.seen.finishReason ∧
        (v.say text).seen.content = v.seen.content ++ text := by
      intro text
      unfold say
      split_ifs with htext <;> simp [htext]
    obtain ⟨htool, hseen, hreason, hcontent⟩ := hcalls (readItem item).text
    split_ifs with hshown
    · refine ⟨⟨hv.say _, ?_, ?_, hreason, ?_⟩, below_say hbelow _⟩
      · simp [showText, hmessage, hshown, hcontent]
      · simp [shownCall, hcall, hseen]
      · simp [hcall, htool]
    · refine ⟨⟨hv, ?_, ?_, rfl, ?_⟩, hbelow.succ⟩
      · simp [showText, hshown]
      · simp [shownCall, hcall]
      · simp [hcall]
  · obtain ⟨callId, hrun⟩ := run_call hcall h (OrdMap.get_of_lt hbelow.1)
      (OrdMap.get_of_lt hbelow.2)
    have hmessage : isMessage item = false := by
      cases hm : isMessage item with
      | false => rfl
      | true => rw [not_isCall hm] at hcall; exact absurd hcall Bool.false_ne_true
    have hwhole : itemWhole item = (readItem item).arguments.getD "" := by
      rw [itemWhole, if_pos hcall]
    rw [hrun, hwhole]
    refine ⟨⟨?_, ?_, ?_, ?_, ?_⟩, hbelow.withCall _ _ _ _⟩
    · simpa [Spoken, withCall, CallsView.withCall] using hv
    · simp [withCall, CallsView.withCall, showText, hmessage]
    · rw [withCall, CallsView.withCall, Assembled.calls_withCall hbelow.2]
      cases hseen : seenCall ((readItem item).callId.getD (syntheticCallId index))
          (readItem item).name ((readItem item).arguments.getD "") <;>
        simp [shownCall, hcall, hseen]
    · simp [withCall, CallsView.withCall]
    · simp [withCall, CallsView.withCall, OrdMap.isEmpty_insert, hcall]

/-- **What a stream shows of the items of a response.** -/
theorem run_items {index : ℕ} {items : List (Value × List String)} {events : List Value}
    (htype : ∀ entry ∈ items, isMessage entry.1 = true ∨ isCall entry.1 = true)
    (h : RealisesItems index items events) {v : ChatView} (hv : v.Spoken)
    (hbelow : v.Below index) : v.Shows index items (v.run events) := by
  induction items generalizing index events v with
  | nil =>
    obtain rfl : events = [] := h
    exact ⟨hv, rfl, by simp [run], rfl, by simp [run]⟩
  | cons entry items ih =>
    obtain ⟨item, deltas⟩ := entry
    obtain ⟨before, after, rfl, hitem, hitems⟩ := h
    obtain ⟨hshows, hbelow'⟩ := shows_item (htype _ List.mem_cons_self) hitem hv hbelow
    have hrest := ih (fun entry he => htype entry (List.mem_cons_of_mem _ he)) hitems
      hshows.spoken hbelow'
    rw [run_append]
    refine ⟨hrest.spoken, ?_, ?_, hrest.finishReason.trans hshows.finishReason, ?_⟩
    · rw [hrest.content, hshows.content]
      rfl
    · rw [hrest.calls, hshows.calls, List.append_assoc, List.zipIdx_cons, List.zipIdx_nil,
        List.zipIdx_cons, ← List.filterMap_append, List.singleton_append]
    · rw [hrest.noCalls, hshows.noCalls]
      simp [Bool.and_assoc]

end ChatView

/-! ### Whole responses -/

/-- The text of a response after an item: that of the messages of the assistant. -/
def speakText (content : String) (item : Value) : String :=
  if isMessage item = true ∧ isAssistant item = true then content ++ (readItem item).text
  else content

/-- The text of the messages of the assistant. -/
def spokenText (items : List Value) : String := items.foldl speakText ""

/-- The tool call that an item is converted into. -/
def wholeCall (item : Value × ℕ) : ChatToolCall where
  id := (readItem item.1).callId.getD (syntheticCallId item.2)
  name := (readItem item.1).name.getD "unknown"
  arguments := (readItem item.1).arguments.getD "\x7b\x7d"

theorem responseItemToChatMessage_eq (message : String × List ChatToolCall) (item : Value × ℕ) :
    responseItemToChatMessage message item =
      (speakText message.1 item.1,
        message.2 ++ ([item].filter fun item => isCall item.1).map wholeCall) := by
  obtain ⟨item, index⟩ := item
  cases item with
  | object m =>
    rw [responseItemToChatMessage]
    dsimp only
    split
    · rename_i htype
      have hmessage : isMessage (.object m) = true := decide_eq_true htype
      have hcall := not_isCall hmessage
      rw [List.filter_cons_of_neg (by simp [hcall]), List.filter_nil, List.map_nil,
        List.append_nil, speakText]
      split_ifs with hrole hassistant hassistant
      · cases hcontent : OrdMap.get "content" m <;> simp [readItem, hcontent]
      · exact absurd ⟨hmessage, hrole⟩ hassistant
      · exact absurd hassistant.2 hrole
      · rfl
    · rename_i htype
      have hcall : isCall (.object m) = true := decide_eq_true htype
      have hmessage : isMessage (.object m) = false := by
        rw [isMessage, of_decide_eq_true hcall]
        decide
      rw [List.filter_cons_of_pos (by simpa using hcall), speakText, hmessage, if_neg (by simp)]
      rfl
    · rename_i hnotMessage hnotCall
      have hcall : isCall (.object m) = false := decide_eq_false hnotCall
      have hmessage : isMessage (.object m) = false := decide_eq_false hnotMessage
      simp [speakText, hmessage, hcall]
  | _ => simp [responseItemToChatMessage, speakText, isMessage, isCall, readItem, Value.get]

/-- **What a whole response is converted into.** -/
theorem responseOutputToChatMessage_eq {output : Option Value} {items : List Value}
    (h : output.bind Value.asArray = some items) :
    responseOutputToChatMessage output =
      (spokenText items, (items.zipIdx.filter fun item => isCall item.1).map wholeCall) := by
  have hfold : ∀ (items : List Value) (index : ℕ) (message : String × List ChatToolCall),
      (items.zipIdx index).foldl responseItemToChatMessage message =
        (items.foldl speakText message.1, message.2 ++
          ((items.zipIdx index).filter fun item => isCall item.1).map wholeCall) := by
    intro items
    induction items with
    | nil => simp
    | cons item items ih =>
      intro index message
      rw [List.zipIdx_cons, List.foldl_cons, ih, responseItemToChatMessage_eq, List.append_assoc,
        ← List.map_append, ← List.filter_append, List.singleton_append]
      rfl
  rw [responseOutputToChatMessage, h]
  exact hfold items 0 ("", [])

theorem isEmpty_wholeCalls (items : List Value) :
    ((items.zipIdx.filter fun item => isCall item.1).map wholeCall).isEmpty =
      !items.any isCall := by
  have hcalls := responseOutputToChatMessage_calls (some (.array items))
  rw [responseOutputToChatMessage_eq rfl] at hcalls
  exact hcalls

theorem responseFinishReason_eq (object : List (String × Value)) (hasToolCalls : Bool) :
    responseFinishReason object hasToolCalls =
      if hasToolCalls then .toolCalls
      else if isIncomplete (.object object) then .length else .stop := by
  by_cases hstatus : (OrdMap.get "status" object).bind Value.asStr = some "incomplete" <;>
    simp [responseFinishReason, isIncomplete, hstatus]

theorem readChatCompletion_response {response : Value} {items : List Value}
    (h : (response.get "output").bind Value.asArray = some items) :
    readChatCompletion (responseToChatCompletion response) =
      { content := spokenText items
        toolCalls := ((items.zipIdx.filter fun item => isCall item.1).map wholeCall).map
          ChatToolCall.assembled
        finishReason := some (if items.any isCall then FinishReason.toolCalls
          else if isIncomplete response then .length else .stop).text } := by
  have hempty := isEmpty_wholeCalls items
  cases response with
  | object m =>
    rw [Value.get_object] at h
    rw [responseToChatCompletion, responseOutputToChatMessage_eq h]
    dsimp only
    rw [hempty, Bool.not_not]
    have hread := readChatCompletion_chatCompletion
      (chatIdFromResponse (((OrdMap.get "id" m).bind Value.asStr).getD "resp_unknown"))
      ((((OrdMap.get "created_at" m).or (OrdMap.get "created" m)).bind Value.asU64).getD 0)
      ((OrdMap.get "model" m).getD (.string "unknown")) (.string (spokenText items))
      (ChatUsage.detailed
        (usageFieldsFromObject ((OrdMap.get "usage" m).bind Value.asObject))).toValue
      ((items.zipIdx.filter fun item => isCall item.1).map wholeCall)
      (responseFinishReason m (items.any isCall))
    have hswap : (if (!items.any isCall) = true then [] else
          [("tool_calls", Value.array (((items.zipIdx.filter fun item =>
            isCall item.1).map wholeCall).map ChatToolCall.toValue))]) =
        if items.any isCall = true then
          [("tool_calls", Value.array (((items.zipIdx.filter fun item =>
            isCall item.1).map wholeCall).map ChatToolCall.toValue))] else [] := by
      cases items.any isCall <;> rfl
    rw [hempty, hswap] at hread
    rw [← responseFinishReason_eq]
    exact hread
  | _ => simp [Value.get] at h

/-! ### The end of a stream -/

namespace ChatStream

theorem finishReasonOf_some (s : ChatStream) (response : Value) :
    s.finishReasonOf (some response) = if !s.toolCalls.isEmpty then .toolCalls
      else if isIncomplete response then .length else .stop := by
  cases response with
  | object m => exact responseFinishReason_eq m _
  | _ => rfl

theorem applyAll_completed {s : ChatStream} (seen : Assembled) {event response : Value}
    (h : s.completed = false) (hkind : responsesKind event = .completed)
    (hresponse : event.get "response" = some response) (hquiet : ¬s.NeedsOutput (some response)) :
    seen.applyAll (s.signal (.event event)).2 =
        { seen with finishReason := some (if !s.toolCalls.isEmpty then .toolCalls
          else if isIncomplete response then .length else .stop) } ∧
      (s.signal (.event event)).1.completed = true := by
  have hdeltas : (s.deltaStep event).2 = [] := by
    obtain ⟨responseId, createdAt, model, hmeta⟩ := s.setEventMetadata_spec event
    rw [deltaStep, hmeta, hkind, hresponse]
    exact (emitCompletedOutputIfNeeded_eq_nil_iff _ _).mpr hquiet
  have hcalls : (s.deltaStep event).1.toolCalls.isEmpty = s.toolCalls.isEmpty := by
    rw [deltaStep_completed s hkind, hresponse, Option.bind_some]
    cases hempty : s.toolCalls.isEmpty with
    | false => rfl
    | true =>
      cases htext : s.textSent with
      | true => rfl
      | false =>
        have hnone : responseOutputToChatMessage (response.get "output") = ("", []) := by
          by_contra hsome
          exact hquiet ⟨htext, List.isEmpty_iff.mp hempty, response, rfl, hsome⟩
        have houtput := responseOutputToChatMessage_calls (response.get "output")
        rw [hnone] at houtput
        simpa using houtput.symm
  have hopen := (s.deltaStep_spec event).completed_eq.trans h
  obtain ⟨head, usage, hout, husage, hcore⟩ := finishResponse_open hopen (some response)
  have hsignal : s.signal (.event event) =
      (((s.deltaStep event).1.finishResponse (some response)).1,
        ((s.deltaStep event).1.finishResponse (some response)).2) := by
    rw [signal, processResponseEvent_eq, hdeltas, closeStep, hkind, hresponse, List.nil_append]
  rw [hsignal]
  refine ⟨?_, congrArg ChatCore.completed hcore⟩
  rw [hout, finishReasonOf_some, hcalls]
  obtain rfl | ⟨counts, rfl⟩ := husage <;> rfl

theorem applyAll_stops {s : ChatStream} (h : s.completed = true) (seen : Assembled) (n : ℕ) :
    seen.applyAll (Mealy.run signal s (List.replicate n .stop)).2 = seen := by
  induction n generalizing s with
  | zero => rfl
  | succ n ih =>
    obtain ⟨hcompleted, hfinish⟩ := signal_completed h .stop
    have hquiet : ∀ f ∈ (s.signal .stop).2, f.carries = false ∧ f.isFinish = false :=
      fun f hf => ⟨s.finishStream_sends.1 f hf, hfinish f hf⟩
    rw [List.replicate_succ, Mealy.run_cons, Assembled.applyAll_append,
      seen.applyAll_quiet hquiet]
    exact ih hcompleted

end ChatStream

/-! ### Texts -/

theorem append_eq_empty {s t : String} : s ++ t = "" ↔ s = "" ∧ t = "" := by
  rw [← String.toList_inj, String.toList_append, ← String.toList_inj, ← String.toList_inj]
  exact List.append_eq_nil_iff

theorem foldl_showText (content : String) (items : List (Value × List String)) :
    ∃ rest, items.foldl showText content = content ++ rest := by
  induction items generalizing content with
  | nil => exact ⟨"", by simp⟩
  | cons entry items ih =>
    obtain ⟨rest, hrest⟩ := ih (showText content entry)
    rw [List.foldl_cons, hrest, showText]
    split_ifs
    · exact ⟨(readItem entry.1).text ++ rest, String.append_assoc ..⟩
    · exact ⟨rest, rfl⟩

theorem spokenText_of_shownText {items : List (Value × List String)} (h : shownText items = "") :
    spokenText (items.map Prod.fst) = "" := by
  induction items with
  | nil => rfl
  | cons entry items ih =>
    have hcons : items.foldl showText (showText "" entry) = "" := h
    obtain ⟨rest, hrest⟩ := foldl_showText (showText "" entry) items
    have hfirst : showText "" entry = "" := (append_eq_empty.mp (hrest.symm.trans hcons)).1
    have hspeak : speakText "" entry.1 = "" := by
      rw [speakText]
      split_ifs with hmessage
      · rwa [showText, if_pos ⟨hmessage.1, Or.inr rfl⟩] at hfirst
      · rfl
    rw [hfirst] at hcons
    rw [spokenText, List.map_cons, List.foldl_cons, hspeak]
    exact ih hcons

/-! ### Whole streams -/

theorem ItemDelta.kinds {index : ℕ} {item : Value} {deltas : List String} {pieces : List Value}
    (h : List.Forall₂ (ItemDelta index item) deltas pieces) :
    ∀ e ∈ pieces, responsesKind e ≠ .completed ∧ responsesKind e ≠ .failed := by
  induction h with
  | nil => simp
  | cons hpiece _ ih =>
    refine List.forall_mem_cons.mpr ⟨?_, ih⟩
    rw [hpiece.kind]
    split_ifs <;> simp

theorem RealisesItem.kinds {index : ℕ} {item : Value} {deltas : List String} {events : List Value}
    (h : RealisesItem index item deltas events) :
    ∀ e ∈ events, responsesKind e ≠ .completed ∧ responsesKind e ≠ .failed := by
  obtain ⟨added, pieces, done, rfl, hadded, hpieces, hdone, -⟩ := h
  refine List.forall_mem_cons.mpr ⟨by simp [hadded.kind], ?_⟩
  exact List.forall_mem_append.mpr ⟨ItemDelta.kinds hpieces, by simp [hdone.kind]⟩

theorem RealisesItems.kinds {index : ℕ} {items : List (Value × List String)} {events : List Value}
    (h : RealisesItems index items events) :
    ∀ e ∈ events, responsesKind e ≠ .completed ∧ responsesKind e ≠ .failed := by
  induction items generalizing index events with
  | nil =>
    obtain rfl : events = [] := h
    simp
  | cons entry items ih =>
    obtain ⟨before, after, rfl, hitem, hitems⟩ := h
    exact List.forall_mem_append.mpr ⟨hitem.kinds, ih hitems⟩

/-- **What a client has of a stream that realises a response.** -/
theorem assemble_realises (o : SseObserver) (emit : Bool) {fs : List SseFrame}
    {response : Value} {items : List (Value × List String)} {events : List Value}
    (hevents : EventsOf fs events) (h : Realises response items events) :
    (assemble (chatFrames o emit fs)).message =
      { content := shownText items
        toolCalls := (items.zipIdx.filterMap shownCall).map Prod.snd
        finishReason := some (if (items.map Prod.fst).any isCall then FinishReason.toolCalls
          else if isIncomplete response then .length else .stop).text } := by
  obtain ⟨before, last, rfl, hitems, hlast, hresponse⟩ := h.stream
  obtain ⟨n, hsignals⟩ := chatSignals_eventsOf o hevents
  have hkinds : ∀ e ∈ before, responsesKind e ≠ .completed ∧ responsesKind e ≠ .failed := by
    intro e he
    by_cases hother : responsesKind e = .other
    · simp [hother]
    · exact hitems.kinds e (List.mem_filter.mpr ⟨he, by simp [hother]⟩)
  let s : ChatStream := { emitUsageToClient := emit }
  obtain ⟨hview, hopen⟩ := ChatStream.view_run o hkinds s {}
  have hshows := ChatView.run_items h.items_type hitems (v := s.view {}) rfl
    ⟨by simp [s, ChatStream.view], by simp [ChatStream.view]⟩
  rw [ChatView.run_filter, ← hview] at hshows
  set r := Mealy.run ChatStream.signal s (before.map fun e => .event (o.rewritten e)) with hr
  -- The response itself adds only the finish reason: its output was shown, or there is none.
  have hresponse' : (o.rewritten last).get "response" = some (o.rewritten response) := by
    rw [o.get_rewritten (by decide) (by decide), hresponse]
    rfl
  have houtput : responseOutputToChatMessage ((o.rewritten response).get "output") =
      (spokenText (items.map Prod.fst),
        ((items.map Prod.fst).zipIdx.filter fun item => isCall item.1).map wholeCall) := by
    rw [o.get_rewritten (by decide) (by decide), o.keepsReading_rewritten.outputToMessage]
    exact responseOutputToChatMessage_eq h.output
  have hempty : r.1.toolCalls.isEmpty = !(items.map Prod.fst).any isCall := by
    have hno := hshows.noCalls
    rw [List.any_map]
    exact hno.trans (Bool.true_and _)
  have hquiet : ¬r.1.NeedsOutput (some (o.rewritten response)) := by
    rintro ⟨htext, hcalls, response', hresponse'', hneeds⟩
    obtain rfl := Option.some.inj hresponse''
    have hcontent : shownText items = "" := by
      have hspoken := hshows.spoken
      rw [ChatView.Spoken, hshows.content] at hspoken
      exact not_not.mp (of_decide_eq_false (hspoken.symm.trans htext))
    have hcalls' : (items.map Prod.fst).any isCall = false := by
      rw [hcalls] at hempty
      simpa using hempty.symm
    have hwhole := isEmpty_wholeCalls (items.map Prod.fst)
    rw [hcalls', Bool.not_false, List.isEmpty_iff] at hwhole
    rw [houtput, spokenText_of_shownText hcontent, hwhole] at hneeds
    exact hneeds rfl
  obtain ⟨happly, hcompleted⟩ := ChatStream.applyAll_completed (({} : Assembled).applyAll r.2)
    (hopen.trans rfl) ((responsesKind_rewritten o last).trans hlast) hresponse' hquiet
  have hassemble : assemble (chatFrames o emit fs) = { ({} : Assembled).applyAll r.2 with
      finishReason := some (if !r.1.toolCalls.isEmpty then .toolCalls
        else if isIncomplete (o.rewritten response) then .length else .stop) } := by
    rw [assemble, chatFrames, hsignals, List.map_append, List.append_assoc, Mealy.run_append, ← hr,
      Assembled.applyAll_append, List.map_singleton, List.singleton_append, Mealy.run_cons,
      Assembled.applyAll_append, happly, ChatStream.applyAll_stops hcompleted]
  have hcalls : (({} : Assembled).applyAll r.2).calls = items.zipIdx.filterMap shownCall :=
    hshows.calls
  have hcontent : (({} : Assembled).applyAll r.2).content = shownText items := hshows.content
  rw [hassemble, Assembled.message]
  simp only [hcalls, hcontent, hempty, Bool.not_not, Option.map_some,
    o.keepsReading_rewritten.isIncomplete]

/-! ### When the two agree -/

/-- Every tool call has a name and arguments. -/
def CallsWhole (items : List (Value × List String)) : Prop :=
  ∀ entry ∈ items, isCall entry.1 = true →
    (readItem entry.1).name.isSome = true ∧ (readItem entry.1).arguments.isSome = true

/-- The item is a message with some text. -/
def hasText (item : Value) : Bool := isMessage item && decide ((readItem item).text ≠ "")

theorem text_eq_empty {item : Value} (h : hasText item = false) (hmessage : isMessage item = true) :
    (readItem item).text = "" := by
  rw [hasText, hmessage, Bool.true_and] at h
  exact not_not.mp (of_decide_eq_false h)

/-- A message with text that comes after another one comes in deltas. -/
def TextStreamed (items : List (Value × List String)) : Prop :=
  items.Pairwise fun a b => hasText a.1 = true → hasText b.1 = true → b.2 ≠ []

/-- Every message is the assistant's. -/
def AllAssistant (items : List (Value × List String)) : Prop :=
  ∀ entry ∈ items, isMessage entry.1 = true → isAssistant entry.1 = true

theorem seenCall_eq_wholeCall (item : Value × ℕ) :
    seenCall ((readItem item.1).callId.getD (syntheticCallId item.2)) (readItem item.1).name
        ((readItem item.1).arguments.getD "") = some (wholeCall item).assembled ↔
      (readItem item.1).name.isSome = true ∧ (readItem item.1).arguments.isSome = true := by
  cases hname : (readItem item.1).name with
  | none =>
    simp only [seenCall, wholeCall, ChatToolCall.assembled, hname]
    split_ifs <;> simp
  | some name =>
    cases harguments : (readItem item.1).arguments <;>
      simp [seenCall, wholeCall, ChatToolCall.assembled, hname, harguments]

/-- **The tool calls are the same if and only if they are whole.** -/
theorem shownCalls_eq_iff (items : List (Value × List String)) :
    (items.zipIdx.filterMap shownCall).map Prod.snd =
        (((items.map Prod.fst).zipIdx.filter fun item => isCall item.1).map wholeCall).map
          ChatToolCall.assembled ↔ CallsWhole items := by
  let calls := items.zipIdx.filter fun entry => isCall entry.1.1
  have hshown : (items.zipIdx.filterMap shownCall).map Prod.snd = calls.filterMap fun entry =>
      seenCall ((readItem entry.1.1).callId.getD (syntheticCallId entry.2))
        (readItem entry.1.1).name ((readItem entry.1.1).arguments.getD "") := by
    rw [List.map_filterMap, List.filterMap_filter]
    refine List.filterMap_congr fun entry _ => ?_
    rw [shownCall]
    split_ifs <;> simp [Function.comp_def]
  have hwhole : (((items.map Prod.fst).zipIdx.filter fun item => isCall item.1).map
        wholeCall).map ChatToolCall.assembled =
      calls.map fun entry => (wholeCall (entry.1.1, entry.2)).assembled := by
    rw [List.zipIdx_map, List.filter_map, List.map_map, List.map_map]
    rfl
  have hmem : (∀ entry ∈ items.zipIdx, isCall entry.1.1 = true →
        (readItem entry.1.1).name.isSome = true ∧ (readItem entry.1.1).arguments.isSome = true) ↔
      CallsWhole items := by
    have hfst : items.zipIdx.map Prod.fst = items := List.zipIdx_map_fst 0 items
    conv_rhs => rw [CallsWhole, ← hfst, List.forall_mem_map]
  rw [hshown, hwhole, List.filterMap_eq_map_iff_forall_eq_some, ← hmem]
  simp only [calls, List.mem_filter, and_imp]
  exact forall₃_congr fun entry _ _ => seenCall_eq_wholeCall (entry.1.1, entry.2)

theorem length_showText {items : List (Value × List String)} (h : AllAssistant items)
    (content content' : String) :
    (items.foldl showText content).length + content'.length ≤
      ((items.map Prod.fst).foldl speakText content').length + content.length := by
  induction items generalizing content content' with
  | nil => simp [Nat.add_comm]
  | cons entry items ih =>
    obtain ⟨hentry, hitems⟩ := List.forall_mem_cons.mp h
    have hrest := ih hitems (showText content entry) (speakText content' entry.1)
    have hstep : (showText content entry).length + content'.length ≤
        (speakText content' entry.1).length + content.length := by
      by_cases hmessage : isMessage entry.1 = true
      · rw [speakText, if_pos ⟨hmessage, hentry hmessage⟩, showText]
        split_ifs <;> simp only [String.length_append] <;> omega
      · simp [showText, speakText, hmessage, Nat.add_comm]
    rw [List.map_cons, List.foldl_cons, List.foldl_cons]
    omega

/-- **No text is lost if and only if every text but the first comes in deltas.** -/
theorem shownText_eq_iff {items : List (Value × List String)} (h : AllAssistant items) :
    shownText items = spokenText (items.map Prod.fst) ↔ TextStreamed items := by
  have hfold : ∀ content, items.foldl showText content =
      (items.map Prod.fst).foldl speakText content ↔
        TextStreamed items ∧ (content ≠ "" → ∀ e ∈ items, hasText e.1 = true → e.2 ≠ []) := by
    induction items with
    | nil => simp [TextStreamed]
    | cons entry items ih =>
      intro content
      obtain ⟨hentry, hitems⟩ := List.forall_mem_cons.mp h
      have hrest := ih hitems
      rw [List.map_cons, List.foldl_cons, List.foldl_cons, TextStreamed, List.pairwise_cons,
        List.forall_mem_cons, ← TextStreamed]
      cases htext : hasText entry.1 with
      | false =>
        have hshow : showText content entry = content := by
          rw [showText]
          split_ifs with hmessage
          · rw [text_eq_empty htext hmessage.1, String.append_empty]
          · rfl
        have hspeak : speakText content entry.1 = content := by
          rw [speakText]
          split_ifs with hmessage
          · rw [text_eq_empty htext hmessage.1, String.append_empty]
          · rfl
        rw [hshow, hspeak, hrest]
        simp
      | true =>
        obtain ⟨hmessage, hne⟩ := Bool.and_eq_true_iff.mp htext
        have hne' : (readItem entry.1).text ≠ "" := of_decide_eq_true hne
        have hspeak : speakText content entry.1 = content ++ (readItem entry.1).text :=
          if_pos ⟨hmessage, hentry hmessage⟩
        by_cases hshown : entry.2 ≠ [] ∨ content = ""
        · have hshow : showText content entry = content ++ (readItem entry.1).text :=
            if_pos ⟨hmessage, hshown⟩
          have hcontent : content ++ (readItem entry.1).text ≠ "" :=
            fun hempty => hne' (append_eq_empty.mp hempty).2
          rw [hshow, hspeak, hrest]
          simp only [hcontent, ne_eq, not_false_eq_true, forall_const]
          constructor
          · rintro ⟨hstreamed, hdeltas⟩
            exact ⟨⟨hdeltas, hstreamed⟩, fun hnonempty =>
              ⟨hshown.resolve_right hnonempty, hdeltas⟩⟩
          · rintro ⟨⟨hdeltas, hstreamed⟩, -⟩
            exact ⟨hstreamed, hdeltas⟩
        · obtain ⟨hnil, hnonempty⟩ := not_or.mp hshown
          have hshow : showText content entry = content :=
            if_neg fun hboth => hshown hboth.2
          refine iff_of_false (fun heq => ?_) fun hright => ?_
          · -- The text that is dropped is missing for good.
            have hlength := length_showText hitems content (content ++ (readItem entry.1).text)
            rw [hshow, hspeak] at heq
            rw [heq, String.length_append] at hlength
            have hpos : 0 < (readItem entry.1).text.length := by
              rw [Nat.pos_iff_ne_zero]
              exact fun hzero => hne' (String.length_eq_zero_iff.mp hzero)
            omega
          · exact hnil (fun heq => (hright.2 hnonempty).1 rfl heq)
  rw [shownText, spokenText, hfold]
  simp

/-- The message put together from a stream is that of the whole response. -/
def ResponseAgrees (response : Value) (fs : List ChatFrame) : Prop :=
  (assemble fs).message = readChatCompletion (responseToChatCompletion response)

instance (response : Value) (fs : List ChatFrame) : Decidable (ResponseAgrees response fs) :=
  inferInstanceAs (Decidable ((assemble fs).message = _))

/-- **When streamed and whole responses agree**: for every response made of messages and tool calls,
and every stream that realises it, in any chunks, if and only if every tool call has a name and
arguments, and the texts that the stream shows join to the text of the assistant. Where every
message is the assistant's, the latter says that a message with text that comes after another one
comes in deltas. -/
theorem streamed_response_agrees_iff (c : Codec) (backendModel publicModel : Option String)
    (emit : Bool) (chunks : List Bytes) {response : Value} {items : List (Value × List String)}
    {events : List Value} (hevents : EventsOf (frames c chunks.flatten) events)
    (h : Realises response items events) :
    (SentFrames (ResponseAgrees response)
        ((SseStrategy.new .chatCompletionsViaResponses backendModel publicModel emit).runAll c
          chunks).2 ↔
      CallsWhole items ∧ shownText items = spokenText (items.map Prod.fst)) ∧
    (AllAssistant items →
      (SentFrames (ResponseAgrees response)
          ((SseStrategy.new .chatCompletionsViaResponses backendModel publicModel emit).runAll c
            chunks).2 ↔
        CallsWhole items ∧ TextStreamed items)) := by
  have hagrees : SentFrames (ResponseAgrees response)
        ((SseStrategy.new .chatCompletionsViaResponses backendModel publicModel emit).runAll c
          chunks).2 ↔
      CallsWhole items ∧ shownText items = spokenText (items.map Prod.fst) := by
    rw [runAll_chat, sentFrames_map, ResponseAgrees, assemble_realises _ emit hevents h,
      readChatCompletion_response h.output, ChatMessage.mk.injEq, shownCalls_eq_iff,
      and_iff_left rfl, and_comm]
  refine ⟨hagrees, fun hassistant => ?_⟩
  rw [hagrees, shownText_eq_iff hassistant]

instance (items : List (Value × List String)) : Decidable (CallsWhole items) :=
  inferInstanceAs (Decidable (∀ entry ∈ items, isCall entry.1 = true →
    (readItem entry.1).name.isSome = true ∧ (readItem entry.1).arguments.isSome = true))

/-- A message item. -/
def sampleMessage (text : String) : Value :=
  .obj [("type", .string "message"), ("content", .string text)]

/-- The event that adds a message item. -/
def sampleAdded (index : ℕ) (text : String) : Value :=
  .obj [("type", .string "response.output_item.added"), ("output_index", indexValue index),
    ("item", sampleMessage text)]

/-- The event that a message item is done. -/
def sampleDone (index : ℕ) (text : String) : Value :=
  .obj [("type", .string "response.output_item.done"), ("output_index", indexValue index),
    ("item", sampleMessage text)]

/-- A piece of text. -/
def sampleDelta (text : String) : Value :=
  .obj [("type", .string "response.output_text.delta"), ("delta", .string text)]

/-- A response with some messages. -/
def sampleResponse (texts : List String) : Value :=
  .obj [("output", .array (texts.map sampleMessage))]

/-- The event that carries a response. -/
def sampleCompleted (texts : List String) : Value :=
  .obj [("type", .string "response.completed"), ("response", sampleResponse texts)]

/-- The events of a message that comes in one delta. -/
def sampleStreamed : List Value := [sampleAdded 0 "Hi", sampleDelta "Hi", sampleDone 0 "Hi"]

/-- The events of two messages that come without deltas. -/
def sampleUnstreamed : List Value :=
  [sampleAdded 0 "a", sampleDone 0 "a", sampleAdded 1 "b", sampleDone 1 "b"]

theorem readsBack_sample (text : String) (index : ℕ) :
    ReadsBack reference (sampleAdded index text) ∧ ReadsBack reference (sampleDone index text) ∧
      ReadsBack reference (sampleDelta text) := by
  have hmessage : (sampleMessage text).Fits 1 := Value.fits_obj (by simp)
  have hlt : 1 < maxDepth := by decide
  exact ⟨readsBack_reference hlt (by simp [hmessage, indexValue]),
    readsBack_reference hlt (by simp [hmessage, indexValue]), readsBack_reference hlt (by simp)⟩

theorem readsBack_sampleCompleted (texts : List String) :
    ReadsBack reference (sampleCompleted texts) := by
  have hmessage : ∀ text, (sampleMessage text).Fits 1 := fun text => Value.fits_obj (by simp)
  have hresponse : (sampleResponse texts).Fits 3 := Value.fits_obj (by simp [hmessage])
  have hlt : 3 < maxDepth := by decide
  exact readsBack_reference hlt (by simp [hresponse])

theorem realisesItem_sample (index : UInt64) (text : String) {deltas : List String}
    (hdeltas : deltas = [] ∨ String.join deltas = text) :
    RealisesItem index.toNat (sampleMessage text) deltas (sampleAdded index.toNat text ::
      (deltas.map sampleDelta ++ [sampleDone index.toNat text])) := by
  have hmessage : isMessage (sampleMessage text) = true := by
    simp [isMessage, readItem, sampleMessage, Value.get_obj]
  have hcall := not_isCall hmessage
  have hwhole : itemWhole (sampleMessage text) = text := by
    rw [itemWhole, hcall]
    simp [readItem, sampleMessage, Value.get_obj, responsesMessageContentToChatText]
  refine ⟨_, deltas.map sampleDelta, _, rfl, ⟨?_, ?_, sampleMessage text, ?_, rfl, rfl, rfl⟩, ?_,
    ⟨?_, ?_, ?_⟩, by rwa [hwhole]⟩
  · simp [responsesKind, sampleAdded, Value.get_obj]
  · simp [outputIndex, sampleAdded, Value.get_obj, indexValue]
  · simp [sampleAdded, Value.get_obj]
  · clear hdeltas
    induction deltas with
    | nil => exact .nil
    | cons delta deltas ih =>
      refine .cons ⟨?_, fun h => ?_, ?_⟩ ih
      · simp [responsesKind, sampleDelta, Value.get_obj, hcall]
      · rw [hcall] at h
        exact absurd h Bool.false_ne_true
      · simp [sampleDelta, Value.get_obj]
  · simp [responsesKind, sampleDone, Value.get_obj]
  · simp [outputIndex, sampleDone, Value.get_obj, indexValue]
  · simp [sampleDone, Value.get_obj]

/-- A message that comes in deltas is the same, streamed or whole. -/
theorem streamed_response_agrees_text :
    SentFrames (ResponseAgrees (sampleResponse ["Hi"]))
      ((SseStrategy.new .chatCompletionsViaResponses none none false).runAll reference
        [(sampleStreamed ++ [sampleCompleted ["Hi"]]).flatMap (sseData reference)]).2 := by
  have hevents : EventsOf (frames reference
      [(sampleStreamed ++ [sampleCompleted ["Hi"]]).flatMap (sseData reference)].flatten)
      (sampleStreamed ++ [sampleCompleted ["Hi"]]) := by
    rw [List.flatten_singleton]
    refine eventsOf_printed reference_lawful ?_
    obtain ⟨hadded, hdone, hdelta⟩ := readsBack_sample "Hi" 0
    simp [sampleStreamed, hadded, hdone, hdelta, readsBack_sampleCompleted]
  have hrealises : Realises (sampleResponse ["Hi"]) [(sampleMessage "Hi", ["Hi"])]
      (sampleStreamed ++ [sampleCompleted ["Hi"]]) :=
    ⟨by decide +kernel, by decide +kernel, sampleStreamed, sampleCompleted ["Hi"], rfl,
      ⟨sampleStreamed, [], by decide +kernel, realisesItem_sample 0 "Hi" (Or.inr rfl), rfl⟩,
      by decide +kernel, by decide +kernel⟩
  exact (streamed_response_agrees_iff reference none none false _ hevents hrealises).1.mpr
    ⟨by decide +kernel, by decide +kernel⟩

/-- Of two messages that come without deltas, the stream shows the first and the whole response
both. -/
theorem streamed_response_loses_text :
    EventsOf (frames reference
        [(sampleUnstreamed ++ [sampleCompleted ["a", "b"]]).flatMap (sseData reference)].flatten)
        (sampleUnstreamed ++ [sampleCompleted ["a", "b"]]) ∧
      Realises (sampleResponse ["a", "b"]) [(sampleMessage "a", []), (sampleMessage "b", [])]
        (sampleUnstreamed ++ [sampleCompleted ["a", "b"]]) ∧
      ¬SentFrames (ResponseAgrees (sampleResponse ["a", "b"]))
        ((SseStrategy.new .chatCompletionsViaResponses none none false).runAll reference
          [(sampleUnstreamed ++ [sampleCompleted ["a", "b"]]).flatMap (sseData reference)]).2 := by
  have hevents : EventsOf (frames reference
      [(sampleUnstreamed ++ [sampleCompleted ["a", "b"]]).flatMap (sseData reference)].flatten)
      (sampleUnstreamed ++ [sampleCompleted ["a", "b"]]) := by
    rw [List.flatten_singleton]
    refine eventsOf_printed reference_lawful ?_
    simp [sampleUnstreamed, readsBack_sample, readsBack_sampleCompleted]
  have hrealises : Realises (sampleResponse ["a", "b"])
      [(sampleMessage "a", []), (sampleMessage "b", [])]
      (sampleUnstreamed ++ [sampleCompleted ["a", "b"]]) :=
    ⟨by decide +kernel, by decide +kernel, sampleUnstreamed, sampleCompleted ["a", "b"], rfl,
      ⟨_, [sampleAdded 1 "b", sampleDone 1 "b"], by decide +kernel,
        realisesItem_sample 0 "a" (Or.inl rfl), _, [], by decide +kernel,
        realisesItem_sample 1 "b" (Or.inl rfl), rfl⟩, by decide +kernel, by decide +kernel⟩
  refine ⟨hevents, hrealises, fun hagrees => ?_⟩
  rw [runAll_chat, sentFrames_map, ResponseAgrees, assemble_realises _ false hevents hrealises,
    readChatCompletion_response hrealises.output] at hagrees
  have hcontent : shownText [(sampleMessage "a", []), (sampleMessage "b", [])] =
      spokenText [sampleMessage "a", sampleMessage "b"] := congrArg ChatMessage.content hagrees
  revert hcontent
  decide +kernel

end Onair
