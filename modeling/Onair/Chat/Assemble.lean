import Onair.Chat.Announce
import Onair.Chat.Truncation
import Onair.Stream.Printed

/-!
# Messages put together from chunks

A client puts the message of a chat stream together from its chunks: contents and arguments are
joined, tool calls are told apart by their indexes.

* `Assembled`, `Assembled.apply`, `assemble`: what a client has after a chunk, and after a stream;
* `ChatMessage`, `readChatCompletion`: the message of a whole chat completion;
* `Assembled.store`, `applyAll_storeCall`: a stored tool call as a client sees it;
* `seenCall`, `store_seenCall`: **a tool call grows by what is stored**;
* `CallsView`, `CallsView.of_storeCall`: the stored calls and what the client has of them, for both
  conversions;
* `EventsOf`, `chatSignals_eventsOf`, `messagesSignals_eventsOf`: the events of an upstream stream.
-/

namespace Onair

open Json

/-! ### Messages -/

/-- A tool call as a client has it. -/
structure AssembledCall where
  id : Option String := none
  name : Option String := none
  arguments : String := ""
  deriving DecidableEq

/-- A message as a client has it. -/
structure ChatMessage where
  content : String
  toolCalls : List AssembledCall
  finishReason : Option String
  deriving DecidableEq

/-- A message that is put together, with its tool calls by index. -/
@[ext]
structure Assembled where
  content : String := ""
  calls : List (ℕ × AssembledCall) := []
  finishReason : Option FinishReason := none
  deriving DecidableEq

namespace Assembled

/-- Change the tool call at an index, a fresh one if there is none. -/
def update (a : Assembled) (index : ℕ) (f : AssembledCall → AssembledCall) : Assembled :=
  { a with calls := OrdMap.insert index (f ((OrdMap.get index a.calls).getD {})) a.calls }

/-- One delta. -/
def applyDelta (a : Assembled) : ChatDelta → Assembled
  | .empty => a
  | .content _ text => { a with content := a.content ++ text }
  | .announce _ index callId name =>
    a.update index fun call => { call with id := some callId, name := some name }
  | .arguments index fragment =>
    a.update index fun call => { call with arguments := call.arguments ++ fragment }

/-- One frame. Only chunks say anything of the message. -/
def apply (a : Assembled) : ChatFrame → Assembled
  | .chunk _ delta reason _ =>
    { a.applyDelta delta with finishReason := reason.or a.finishReason }
  | _ => a

/-- One frame after another. -/
def applyAll (a : Assembled) (fs : List ChatFrame) : Assembled := fs.foldl apply a

@[simp] theorem applyAll_nil (a : Assembled) : a.applyAll [] = a := rfl

theorem applyAll_cons (a : Assembled) (f : ChatFrame) (fs : List ChatFrame) :
    a.applyAll (f :: fs) = (a.apply f).applyAll fs := rfl

theorem applyAll_append (a : Assembled) (fs gs : List ChatFrame) :
    a.applyAll (fs ++ gs) = (a.applyAll fs).applyAll gs := List.foldl_append

theorem applyAll_quiet (a : Assembled) {fs : List ChatFrame}
    (h : ∀ f ∈ fs, f.carries = false ∧ f.isFinish = false) : a.applyAll fs = a := by
  induction fs with
  | nil => rfl
  | cons f fs ih =>
    obtain ⟨⟨hcarries, hfinish⟩, hfs⟩ := List.forall_mem_cons.mp h
    have hf : a.apply f = a := by
      cases f with
      | chunk head delta reason u =>
        cases delta <;> cases reason <;> simp_all [ChatFrame.carries, ChatFrame.isFinish]
        rfl
      | _ => rfl
    rw [applyAll_cons, hf, ih hfs]

/-- The message, its tool calls in the order of their indexes. -/
def message (a : Assembled) : ChatMessage where
  content := a.content
  toolCalls := a.calls.map Prod.snd
  finishReason := a.finishReason.map FinishReason.text

end Assembled

/-- The message of a chat stream. -/
def assemble (fs : List ChatFrame) : Assembled := ({} : Assembled).applyAll fs

/-! ### Whole chat completions -/

/-- A tool call of a chat completion. -/
def readToolCall (toolCall : Value) : AssembledCall :=
  let function := toolCall.get "function"
  { id := (toolCall.get "id").bind Value.asStr
    name := (function.bind fun function => function.get "name").bind Value.asStr
    arguments := ((function.bind fun function => function.get "arguments").bind
      Value.asStr).getD "" }

/-- The message of a chat completion: that of its first choice. -/
def readChatCompletion (completion : Value) : ChatMessage :=
  let choice := ((completion.get "choices").bind Value.asArray).bind List.head?
  let message := choice.bind fun choice => choice.get "message"
  { content := ((message.bind fun message => message.get "content").bind Value.asStr).getD ""
    toolCalls := (((message.bind fun message => message.get "tool_calls").bind
      Value.asArray).getD []).map readToolCall
    finishReason := (choice.bind fun choice => choice.get "finish_reason").bind Value.asStr }

/-- A tool call of a finished message as a client has it. -/
def ChatToolCall.assembled (call : ChatToolCall) : AssembledCall where
  id := some call.id
  name := some call.name
  arguments := call.arguments

theorem readToolCall_toValue (call : ChatToolCall) :
    readToolCall call.toValue = call.assembled := by
  simp [readToolCall, ChatToolCall.toValue, ChatToolCall.assembled, Value.get_obj]

theorem readChatCompletion_chatCompletion (id : String) (created : UInt64)
    (model content usage : Value) (calls : List ChatToolCall) (reason : FinishReason) :
    readChatCompletion (chatCompletion id created model
        (.obj ([("role", .string "assistant"), ("content", content)] ++
          if calls.isEmpty then [] else
            [("tool_calls", .array (calls.map ChatToolCall.toValue))])) reason usage) =
      { content := content.asStr.getD ""
        toolCalls := calls.map ChatToolCall.assembled
        finishReason := some reason.text } := by
  have hcalls : calls.map (readToolCall ∘ ChatToolCall.toValue) =
      calls.map ChatToolCall.assembled :=
    List.map_congr_left fun call _ => readToolCall_toValue call
  cases calls with
  | nil => simp [readChatCompletion, chatCompletion, Value.get_obj, Value.asArray]
  | cons call calls =>
    simpa [readChatCompletion, chatCompletion, Value.get_obj, Value.asArray] using hcalls

/-! ### Stored tool calls -/

namespace Assembled

/-- What a client has after a tool call is stored and a fragment of its arguments sent. -/
def store (a : Assembled) (index : ℕ) (call : ChatCompletionStreamToolCall) (fragment : String) :
    Assembled :=
  let a := match call.announced, call.name with
    | false, some name => a.update index fun seen =>
      { seen with id := some (call.callId.getD (syntheticCallId index)), name := some name }
    | _, _ => a
  if fragment = "" then a
  else a.update index fun seen => { seen with arguments := seen.arguments ++ fragment }

theorem applyAll_storeCall (a : Assembled) (h : ChunkHead) (u roleSent : Bool)
    (calls : List (ℕ × ChatCompletionStreamToolCall)) (index : ℕ)
    (call : ChatCompletionStreamToolCall) (fragment : String) :
    a.applyAll (storeCall (fun d => .chunk h d none u) roleSent calls index call fragment).2 =
      a.store index call fragment := by
  obtain ⟨callId, name, arguments, announced⟩ := call
  rw [storeCall, applyAll_append, putCall_out, store]
  cases announced <;> cases name <;> dsimp only <;> split_ifs <;> rfl

/-- A message with a tool call, where there is one. -/
def withCall (a : Assembled) (index : ℕ) : Option AssembledCall → Assembled
  | some call => { a with calls := OrdMap.insert index call a.calls }
  | none => a

@[simp] theorem content_withCall (a : Assembled) (index : ℕ) (call : Option AssembledCall) :
    (a.withCall index call).content = a.content := by cases call <;> rfl

@[simp] theorem finishReason_withCall (a : Assembled) (index : ℕ) (call : Option AssembledCall) :
    (a.withCall index call).finishReason = a.finishReason := by cases call <;> rfl

end Assembled

theorem storeCall_calls (chunk : ChatDelta → ChatFrame) (roleSent : Bool)
    (calls : List (ℕ × ChatCompletionStreamToolCall)) (index : ℕ)
    (call : ChatCompletionStreamToolCall) (fragment : String) :
    (storeCall chunk roleSent calls index call fragment).1.2 = OrdMap.insert index
      { call with announced := call.announced || call.name.isSome } calls := by
  obtain ⟨callId, name, arguments, announced⟩ := call
  cases announced <;> cases name <;> simp [storeCall, putCall, OrdMap.insert_insert]

/-- What a client has of a tool call: one without a name is not announced, and is seen only by its
arguments. -/
def seenCall (id : String) (name : Option String) (arguments : String) : Option AssembledCall :=
  match name with
  | some name => some { id := some id, name := some name, arguments }
  | none => if arguments = "" then none else some { arguments }

namespace Assembled

variable {a : Assembled} {index : ℕ}

theorem store_first (h : OrdMap.get index a.calls = none) (call : ChatCompletionStreamToolCall)
    (hcall : call.announced = false) (fragment : String) :
    a.store index call fragment = a.withCall index
      (seenCall (call.callId.getD (syntheticCallId index)) call.name fragment) := by
  obtain ⟨callId, name, arguments, announced⟩ := call
  obtain rfl : announced = false := hcall
  cases name with
  | none =>
    by_cases hfragment : fragment = ""
    · simp [store, seenCall, withCall, hfragment]
    · simp [store, seenCall, withCall, update, h, hfragment]
  | some name =>
    by_cases hfragment : fragment = ""
    · simp [store, seenCall, withCall, update, h, hfragment]
    · simp [store, seenCall, withCall, update, h, hfragment, OrdMap.get_insert_self,
        OrdMap.insert_insert]

/-- **A tool call grows by what is stored.** -/
theorem store_seenCall (h : OrdMap.get index a.calls = none) (id : String)
    (call : ChatCompletionStreamToolCall) (hcall : call.announced = call.name.isSome)
    (arguments fragment : String) :
    (a.withCall index (seenCall id call.name arguments)).store index call fragment =
      a.withCall index (seenCall id call.name (arguments ++ fragment)) := by
  obtain ⟨callId, name, stored, announced⟩ := call
  obtain rfl : announced = name.isSome := hcall
  cases name with
  | none =>
    by_cases hfragment : fragment = ""
    · simp [store, hfragment]
    · by_cases harguments : arguments = ""
      · simp [store, seenCall, withCall, update, h, hfragment, harguments]
      · simp [store, seenCall, withCall, update, hfragment, harguments, OrdMap.get_insert_self,
          OrdMap.insert_insert]
  | some name =>
    by_cases hfragment : fragment = ""
    · simp [store, hfragment]
    · simp [store, seenCall, withCall, update, hfragment, OrdMap.get_insert_self,
        OrdMap.insert_insert]

theorem calls_withCall (h : ∀ e ∈ a.calls, e.1 < index) (seen : Option AssembledCall) :
    (a.withCall index seen).calls = a.calls ++ (seen.map fun seen => (index, seen)).toList := by
  cases seen with
  | none => simp [withCall]
  | some seen => exact OrdMap.insert_of_lt h seen

end Assembled

/-! ### What a client has of the tool calls -/

/-- The stored tool calls of a stream, and the message that its client has by now. -/
structure CallsView where
  toolCalls : List (ℕ × ChatCompletionStreamToolCall) := []
  seen : Assembled := {}

namespace CallsView

/-- Store a tool call and send a fragment of its arguments. -/
def store (v : CallsView) (index : ℕ) (call : ChatCompletionStreamToolCall) (fragment : String) :
    CallsView where
  toolCalls := OrdMap.insert index
    { call with announced := call.announced || call.name.isSome } v.toolCalls
  seen := v.seen.store index call fragment

/-- **What is stored and sent for a tool call**, as the client sees it. -/
theorem of_storeCall (seen : Assembled) (h : ChunkHead) (u roleSent : Bool)
    (calls : List (ℕ × ChatCompletionStreamToolCall)) (index : ℕ)
    (call : ChatCompletionStreamToolCall) (fragment : String) :
    let r := storeCall (fun d => .chunk h d none u) roleSent calls index call fragment
    { toolCalls := r.1.2, seen := seen.applyAll r.2 } =
      ({ toolCalls := calls, seen } : CallsView).store index call fragment := by
  dsimp only
  rw [storeCall_calls, Assembled.applyAll_storeCall]
  rfl

/-- The view with a tool call of which some arguments came. -/
def withCall (v : CallsView) (index : ℕ) (id : String) (callId name : Option String)
    (arguments : String) : CallsView where
  toolCalls := OrdMap.insert index { callId, name, arguments, announced := name.isSome }
    v.toolCalls
  seen := v.seen.withCall index (seenCall id name arguments)

variable {v : CallsView} {index : ℕ}

theorem callAt_withCall (id : String) (callId name : Option String) (arguments : String) :
    callAt (v.withCall index id callId name arguments).toolCalls index =
      { callId, name, arguments, announced := name.isSome } := by
  rw [withCall, callAt_insert, if_pos rfl]

theorem store_first (hseen : OrdMap.get index v.seen.calls = none) (callId name : Option String) :
    v.store index { callId, name } "" =
      v.withCall index (callId.getD (syntheticCallId index)) callId name "" := by
  have hfirst := Assembled.store_first hseen { callId, name } rfl ""
  simp only [store, withCall, hfirst]
  rfl

/-- **A stored tool call grows** by the fragments that are stored. -/
theorem store_withCall (hseen : OrdMap.get index v.seen.calls = none) (id : String)
    (callId callId' name : Option String) (arguments fragment : String) :
    (v.withCall index id callId name arguments).store index
        { callId := callId', name, arguments := arguments ++ fragment, announced := name.isSome }
        fragment =
      v.withCall index id callId' name (arguments ++ fragment) := by
  have hgrow := Assembled.store_seenCall hseen id
    { callId := callId', name, arguments := arguments ++ fragment, announced := name.isSome } rfl
    arguments fragment
  simp only [store, withCall, hgrow, OrdMap.insert_insert, Bool.or_self]

/-- The calls of a view are at the indexes before some index. -/
def Below (v : CallsView) (index : ℕ) : Prop :=
  (∀ e ∈ v.toolCalls, e.1 < index) ∧ ∀ e ∈ v.seen.calls, e.1 < index

theorem Below.succ (h : v.Below index) : v.Below (index + 1) :=
  ⟨fun e he => Nat.lt_succ_of_lt (h.1 e he), fun e he => Nat.lt_succ_of_lt (h.2 e he)⟩

theorem Below.withCall (h : v.Below index) (id : String) (callId name : Option String)
    (arguments : String) : (v.withCall index id callId name arguments).Below (index + 1) := by
  constructor
  · intro e he
    rcases OrdMap.mem_insert he with rfl | he
    · exact Nat.lt_succ_self index
    · exact Nat.lt_succ_of_lt (h.1 e he)
  · intro e he
    have hcalls := Assembled.calls_withCall h.2 (seenCall id name arguments)
    rw [CallsView.withCall, hcalls] at he
    rcases List.mem_append.mp he with he | he
    · exact Nat.lt_succ_of_lt (h.2 e he)
    · obtain ⟨call, -, rfl⟩ := Option.map_eq_some_iff.mp (Option.mem_toList.mp he)
      exact Nat.lt_succ_self index

end CallsView

/-! ### Upstream events -/

/-- Steps that leave the state alone may be left out of a run. -/
theorem foldl_filter_of_skips {σ α : Type} {step : σ → α → σ} {p : α → Bool}
    (h : ∀ s a, p a = false → step s a = s) (s : σ) (as : List α) :
    (as.filter p).foldl step s = as.foldl step s := by
  rw [List.foldl_filter]
  congr 1
  funext s a
  split_ifs with ha
  · rfl
  · exact (h s a (by simpa using ha)).symm

/-- The values of the `data:` lines. -/
def dataValues (fs : List SseFrame) : List Value :=
  fs.filterMap fun
    | .data value _ _ => some value
    | _ => none

/-- The frame is the end marker. -/
def SseFrame.isDone : SseFrame → Bool
  | .done _ => true
  | _ => false

/-- The events of a stream in which an end marker comes, if at all, after the last of them. -/
def EventsOf (fs : List SseFrame) (es : List Value) : Prop :=
  ∃ before after, fs = before ++ after ∧ (∀ f ∈ before, f.isDone = false) ∧
    dataValues before = es ∧ dataValues after = []

/-- A printed stream has the events that were printed. -/
theorem eventsOf_printed {c : Codec} (hc : c.Lawful) {es : List Value}
    (h : ∀ e ∈ es, ReadsBack c e) : EventsOf (frames c (es.flatMap (sseData c))) es := by
  refine ⟨frames c (es.flatMap (sseData c)), [], (List.append_nil _).symm, ?_, ?_, rfl⟩
  · rw [frames_printed hc h]
    intro f hf
    obtain ⟨e, -, he⟩ := List.mem_flatMap.mp hf
    rcases List.mem_cons.mp he with rfl | he
    · rfl
    · rw [List.mem_singleton.mp he]
      rfl
  · rw [frames_printed hc h]
    clear h
    induction es with
    | nil => rfl
    | cons e es ih => exact congrArg (e :: ·) ih

theorem chatSignals_eventsOf (o : SseObserver) {fs : List SseFrame} {es : List Value}
    (h : EventsOf fs es) : ∃ n, chatSignals o fs =
      es.map (fun e => .event (o.rewritten e)) ++ List.replicate n .stop := by
  obtain ⟨before, after, rfl, hdone, rfl, hnone⟩ := h
  have hbefore : before.flatMap (frameSignals o) =
      (dataValues before).map fun e => .event (o.rewritten e) := by
    clear hnone
    induction before with
    | nil => rfl
    | cons f before ih =>
      have hrest := ih fun g hg => hdone g (List.mem_cons_of_mem _ hg)
      have hf := hdone f List.mem_cons_self
      rw [List.flatMap_cons, hrest]
      cases f <;> simp_all [frameSignals, dataValues, SseFrame.isDone]
  have hafter : ∃ n, after.flatMap (frameSignals o) = List.replicate n .stop := by
    clear hdone hbefore
    induction after with
    | nil => exact ⟨0, rfl⟩
    | cons f after ih =>
      rw [List.flatMap_cons]
      cases f with
      | data value leadingSpace line => simp [dataValues] at hnone
      | done line =>
        obtain ⟨n, hn⟩ := ih hnone
        exact ⟨n + 1, by rw [hn]; rfl⟩
      | _ => exact ih hnone
  obtain ⟨n, hn⟩ := hafter
  refine ⟨n + 1, ?_⟩
  rw [chatSignals, List.flatMap_append, hbefore, hn, List.replicate_succ', List.append_assoc]

/-- A signal that tells of an upstream event. -/
def MessagesSignal.Tells (o : SseObserver) (sig : MessagesSignal) (e : Value) : Prop :=
  ∃ usage count, sig = .event usage count (AnthropicMessagesToChatSseNormalizer.rewriteEvent o e)

theorem rewriteEvent_observeMessages (o : SseObserver) (f : SseFrame) :
    AnthropicMessagesToChatSseNormalizer.rewriteEvent (o.observeMessages f) =
      AnthropicMessagesToChatSseNormalizer.rewriteEvent o := by
  have hmodels : (o.observeMessages f).backendModel = o.backendModel ∧
      (o.observeMessages f).publicModel = o.publicModel := by
    cases f with
    | data value leadingSpace line =>
      simp only [SseObserver.observeMessages, SseObserver.observeUsage]
      split <;> exact ⟨rfl, rfl⟩
    | _ => exact ⟨rfl, rfl⟩
  funext e
  unfold AnthropicMessagesToChatSseNormalizer.rewriteEvent
  rw [hmodels.1, hmodels.2]

theorem messagesSignals_eventsOf (o : SseObserver) {fs : List SseFrame} {es : List Value}
    (h : EventsOf fs es) : ∃ sigs stops, messagesSignals o fs = sigs ++ stops ∧
      List.Forall₂ (MessagesSignal.Tells o) sigs es ∧
      ∀ sig ∈ stops, ∃ usage count, sig = .stop usage count := by
  obtain ⟨before, after, rfl, hdone, rfl, hnone⟩ := h
  induction before generalizing o with
  | nil =>
    refine ⟨[], messagesSignals o after, rfl, .nil, ?_⟩
    induction after generalizing o with
    | nil => simp [messagesSignals]
    | cons f after ih =>
      rw [messagesSignals]
      cases f with
      | data value leadingSpace line => simp [dataValues] at hnone
      | done line =>
        exact List.forall_mem_append.mpr ⟨by simp [messagesFrameSignals], ih hnone _⟩
      | _ => exact ih hnone _
  | cons f before ih =>
    obtain ⟨sigs, stops, hsigs, htells, hstops⟩ :=
      ih (o.observeMessages f) fun g hg => hdone g (List.mem_cons_of_mem _ hg)
    have htells' : List.Forall₂ (MessagesSignal.Tells o) sigs (dataValues before) := by
      unfold MessagesSignal.Tells at htells
      rwa [rewriteEvent_observeMessages] at htells
    have hf := hdone f List.mem_cons_self
    rw [List.cons_append, messagesSignals, hsigs]
    cases f with
    | data value leadingSpace line =>
      exact ⟨_ :: sigs, stops, rfl, .cons ⟨_, _, rfl⟩ htells', hstops⟩
    | done line => simp [SseFrame.isDone] at hf
    | _ => exact ⟨sigs, stops, rfl, htells', hstops⟩

end Onair
