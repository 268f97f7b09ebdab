import Onair.Chat.GrammarMessages
import Onair.Responses.Lifecycle
import Onair.Stream.Named

/-!
# The model that a converted stream names

The conversions take the name of the model from the first event that has one, and name it in what
they send. Where the events do not name the backend's model, nothing that is sent does.

* `Move.Unnamed`, `ResponsesStream.run_unnamed`: the events of a response;
* `Unnamed`, `ChatStream.signal_unnamed`: the chunks made from the events of a response;
* `MessagesStream.signal_unnamed`: **the chunks made from Anthropic events**, in which the name may
  still stand.
-/

namespace Onair

open Json

/-! ### Values without the name -/

section

variable {name : String} {v : Value}

theorem namesModel_get (h : namesModel name v = false) {k : String} {w : Value}
    (hw : v.get k = some w) : namesModel name w = false := by
  cases v with
  | object m =>
    by_contra hnames
    have hfield : fieldNames name (k, w) = true := by
      rw [fieldNames_eq, Bool.not_eq_false _ |>.mp hnames, Bool.or_true]
    exact Bool.false_ne_true (h.symm.trans (fieldNames_of_get hw hfield))
  | _ => cases hw

theorem model_ne_of_not_names (h : namesModel name v = false) :
    (v.get "model").bind Value.asStr ≠ some name := by
  intro hmodel
  obtain ⟨w, hw, hstr⟩ := Option.bind_eq_some_iff.mp hmodel
  cases v with
  | object m =>
    have hfield : fieldNames name ("model", w) = true := by simp [fieldNames_eq, hstr]
    exact Bool.false_ne_true (h.symm.trans (fieldNames_of_get hw hfield))
  | _ => cases hw

theorem or_ne {model other : Option String} (hmodel : model ≠ some name)
    (hother : other ≠ some name) : model.or other ≠ some name := by
  cases model with
  | none => exact hother
  | some model => exact hmodel

theorem getD_unknown_ne (hunknown : name ≠ "unknown") {model : Option String}
    (h : model ≠ some name) : some (model.getD "unknown") ≠ some name := by
  cases model with
  | none => exact fun heq => hunknown (Option.some.inj heq).symm
  | some model => exact h

end

/-! ### Events of the Responses API -/

theorem ResponsesEvent.modelName_of_isItem {e : ResponsesEvent} (h : e.isItem = true) :
    e.modelName = none := by
  cases e with
  | created => cases h
  | inProgress => cases h
  | completed => cases h
  | _ => rfl

/-- The move takes no model of the given name. -/
def Move.Unnamed (name : String) : Move → Prop
  | .metadata chunk => (chunk.get "model").bind Value.asStr ≠ some name
  | _ => True

namespace ResponsesStream

variable {name : String}

theorem model_setChunkMetadata (s : ResponsesStream) (chunk : Value) :
    (s.setChunkMetadata chunk).model = s.model.or ((chunk.get "model").bind Value.asStr) := by
  unfold setChunkMetadata
  cases s.responseId <;> cases hmodel : s.model <;> dsimp only <;> split_ifs <;> simp [hmodel]

/-- **A move does not bring the name up.** -/
theorem step_unnamed (hunknown : name ≠ "unknown") {s : ResponsesStream}
    (h : s.model ≠ some name) {m : Move} (hm : m.Unnamed name) :
    (s.step m).1.model ≠ some name ∧ ∀ e ∈ (s.step m).2, e.modelName ≠ some name := by
  have hitem {e : ResponsesEvent} (he : e.isItem = true) : e.modelName ≠ some name := by
    rw [e.modelName_of_isItem he]
    exact fun heq => by cases heq
  cases m with
  | metadata chunk =>
    rw [step, model_setChunkMetadata]
    exact ⟨or_ne h hm, by simp⟩
  | start usage =>
    rw [step, startResponseEvents]
    split_ifs
    · exact ⟨h, by simp⟩
    · refine ⟨h, ?_⟩
      have hresponse := getD_unknown_ne hunknown h
      simpa [ResponsesEvent.modelName, responseObject] using hresponse
  | text text =>
    by_cases htext : text = ""
    · rw [step, processContent, if_pos htext]
      exact ⟨h, by simp⟩
    · rw [step, processContent_some htext]
      refine ⟨h, List.forall_mem_append.mpr ⟨fun e he => hitem (mem_textOpenEvents he).2.1, ?_⟩⟩
      exact List.forall_mem_singleton.mpr (hitem rfl)
  | tool toolCall =>
    obtain ⟨new, callName, hstep, heq⟩ := s.processToolCallDelta_spec toolCall
    rw [step, heq]
    refine ⟨h, fun e he => hitem ?_⟩
    obtain ⟨-, -, id, -, hcall⟩ := hstep.mem_out he
    cases e <;> simp_all [ResponsesEvent.openCall, ResponsesEvent.isItem]
  | finish usage =>
    rw [step]
    cases hcompleted : s.completed with
    | true =>
      rw [finishResponse_completed usage hcompleted]
      exact ⟨h, by simp⟩
    | false =>
      rw [finishResponse_open usage hcompleted]
      refine ⟨h, List.forall_mem_append.mpr
        ⟨fun e he => hitem (isItem_itemDoneEvents s e he), ?_⟩⟩
      exact List.forall_mem_singleton.mpr (getD_unknown_ne hunknown h)

theorem run_unnamed (hunknown : name ≠ "unknown") {s : ResponsesStream}
    (h : s.model ≠ some name) {ms : List Move} (hms : ∀ m ∈ ms, m.Unnamed name) :
    (Mealy.run step s ms).1.model ≠ some name ∧
      ∀ e ∈ (Mealy.run step s ms).2, e.modelName ≠ some name :=
  Mealy.run_forall (fun t : ResponsesStream => t.model ≠ some name) _
    (fun _ m hm ht => step_unnamed hunknown ht (hms m hm)) h

theorem choiceMoves_unnamed (usage : UsageTotals) (choice : Value) :
    ∀ m ∈ choiceMoves usage choice, m.Unnamed name := by
  unfold choiceMoves
  refine List.forall_mem_append.mpr ⟨?_, ?_⟩
  · split
    · refine List.forall_mem_append.mpr ⟨?_, List.forall_mem_map.mpr fun _ _ => trivial⟩
      split
      · split_ifs
        · simp
        · exact List.forall_mem_singleton.mpr trivial
      · simp
    · simp
  · split_ifs
    · exact List.forall_mem_singleton.mpr trivial
    · simp

/-- The moves of a frame whose value does not name the model take no such model. -/
theorem frameMoves_unnamed {o : SseObserver} (ho : ∀ v, namesModel name (o.rewritten v) = false)
    (f : SseFrame) : ∀ m ∈ frameMoves o f, m.Unnamed name := by
  cases f with
  | data value space line =>
    rw [frameMoves, chunkMoves, o.applyDataPrologue_value]
    refine List.forall_mem_append.mpr ⟨?_, ?_⟩
    · exact List.forall_mem_cons.mpr
        ⟨model_ne_of_not_names (ho value), List.forall_mem_singleton.mpr trivial⟩
    · intro m hm
      obtain ⟨choice, -, hm⟩ := List.mem_flatMap.mp hm
      exact choiceMoves_unnamed _ choice m hm
  | done line => exact List.forall_mem_singleton.mpr trivial
  | _ => exact fun m hm => by cases hm

end ResponsesStream

/-! ### Chat completion frames -/

/-- Neither the model that is kept nor the frames that are sent have the name. -/
def Unnamed (name : String) (model : Option String) (out : List ChatFrame) : Prop :=
  model ≠ some name ∧ ∀ f ∈ out, f.modelName ≠ some name

namespace Unnamed

variable {name : String} {model model' : Option String} {out out' : List ChatFrame}

theorem nil (h : model ≠ some name) : Unnamed name model [] := ⟨h, by simp⟩

theorem append (h : Unnamed name model out) (h' : Unnamed name model' out') :
    Unnamed name model' (out ++ out') :=
  ⟨h'.1, List.forall_mem_append.mpr ⟨h.2, h'.2⟩⟩

theorem storeCall {chunk : ChatDelta → ChatFrame} (hmodel : model ≠ some name)
    (hchunk : ∀ d, (chunk d).modelName ≠ some name) (roleSent : Bool)
    (calls : List (ℕ × ChatCompletionStreamToolCall)) (index : ℕ)
    (call : ChatCompletionStreamToolCall) (fragment : String) :
    Unnamed name model (storeCall chunk roleSent calls index call fragment).2 := by
  rw [Onair.storeCall, putCall_out]
  refine ⟨hmodel, List.forall_mem_append.mpr ⟨?_, ?_⟩⟩
  · split
    · exact List.forall_mem_singleton.mpr (hchunk _)
    · simp
  · split_ifs
    · simp
    · exact List.forall_mem_singleton.mpr (hchunk _)

end Unnamed

/-- The signal tells of no model of the given name. -/
def ChatSignal.Unnamed (name : String) : ChatSignal → Prop
  | .event value => namesModel name value = false
  | .stop => True

namespace ChatStream

variable {name : String}

theorem model_setResponseMetadata_ne {s : ChatStream} (h : s.model ≠ some name) {response : Value}
    (hresponse : namesModel name response = false) :
    (s.setResponseMetadata response).model ≠ some name :=
  or_ne h (model_ne_of_not_names hresponse)

theorem model_setEventMetadata_ne {s : ChatStream} (h : s.model ≠ some name) {event : Value}
    (hevent : namesModel name event = false) : (s.setEventMetadata event).model ≠ some name := by
  unfold setEventMetadata
  cases hresponse : event.get "response" with
  | none => exact or_ne h (model_ne_of_not_names hevent)
  | some response =>
    exact or_ne (model_setResponseMetadata_ne h (namesModel_get hevent hresponse))
      (model_ne_of_not_names hevent)

theorem doneEvent_unnamed {s : ChatStream} (h : s.model ≠ some name) :
    Unnamed name s.doneEvent.1.model s.doneEvent.2 := by
  unfold doneEvent
  split_ifs
  · exact .nil h
  · exact ⟨h, List.forall_mem_singleton.mpr fun heq => by cases heq⟩

theorem failResponse_unnamed {s : ChatStream} (h : s.model ≠ some name) {response : Option Value}
    (hresponse : ∀ r ∈ response, namesModel name r = false) :
    Unnamed name (s.failResponse response).1.model (s.failResponse response).2 := by
  unfold failResponse
  split_ifs
  · exact .nil h
  · cases response with
    | none =>
      have hdone := doneEvent_unnamed (s := { s with completed := true }) h
      exact ⟨hdone.1, List.forall_mem_cons.mpr ⟨fun heq => (by cases heq), hdone.2⟩⟩
    | some r =>
      have hmodel := model_setResponseMetadata_ne h (hresponse r rfl)
      have hdone := doneEvent_unnamed
        (s := { s with completed := true }.setResponseMetadata r) hmodel
      exact ⟨hdone.1, List.forall_mem_cons.mpr ⟨fun heq => (by cases heq), hdone.2⟩⟩

variable (hunknown : name ≠ "unknown") {s : ChatStream} (h : s.model ≠ some name)

include hunknown h

theorem chatChunk_unnamed (delta : ChatDelta) (reason : Option FinishReason) :
    (s.chatChunk delta reason).modelName ≠ some name := getD_unknown_ne hunknown h

theorem sendText_unnamed (text : String) :
    Unnamed name (s.sendText text).1.model (s.sendText text).2 :=
  ⟨h, List.forall_mem_singleton.mpr (chatChunk_unnamed hunknown h _ _)⟩

theorem store_unnamed (index : ℕ) (call : ChatCompletionStreamToolCall) (fragment : String) :
    Unnamed name (s.store index call fragment).1.model (s.store index call fragment).2 :=
  Unnamed.storeCall h (fun d => chatChunk_unnamed hunknown h d none) _ _ _ _ _

theorem processTextDelta_unnamed (event : Value) :
    Unnamed name (s.processTextDelta event).1.model (s.processTextDelta event).2 := by
  unfold processTextDelta
  split
  · split_ifs
    · exact .nil h
    · exact sendText_unnamed hunknown h _
  · exact .nil h

theorem processOutputItem_unnamed (event : Value) (done : Bool) :
    Unnamed name (s.processOutputItem event done).1.model (s.processOutputItem event done).2 := by
  unfold processOutputItem
  split
  · split
    · rw [processFunctionItem_eq]
      exact store_unnamed hunknown h _ _ _
    · split_ifs
      · split
        · dsimp only
          split_ifs
          · exact .nil h
          · exact sendText_unnamed hunknown h _
        · exact .nil h
      · exact .nil h
    · exact .nil h
  · exact .nil h

theorem run_emitToolCall_unnamed (entries : List (ChatToolCall × ℕ)) :
    Unnamed name (Mealy.run emitToolCall s entries).1.model (Mealy.run emitToolCall s entries).2 :=
  Mealy.run_forall (fun t : ChatStream => t.model ≠ some name) _
    (fun t entry _ ht => by
      rw [emitToolCall_eq]
      exact store_unnamed hunknown ht _ _ _) h

theorem emitCompletedOutputIfNeeded_unnamed (response : Option Value) :
    Unnamed name (s.emitCompletedOutputIfNeeded response).1.model
      (s.emitCompletedOutputIfNeeded response).2 := by
  unfold emitCompletedOutputIfNeeded
  split_ifs
  · exact .nil h
  · cases response with
    | none => exact .nil h
    | some response =>
      dsimp only
      split_ifs
      · exact run_emitToolCall_unnamed hunknown h _
      · have hsend := sendText_unnamed hunknown h
          (responseOutputToChatMessage (response.get "output")).1
        exact hsend.append (run_emitToolCall_unnamed hunknown hsend.1 _)

theorem finishResponse_unnamed {response : Option Value}
    (hresponse : ∀ r ∈ response, namesModel name r = false) :
    Unnamed name (s.finishResponse response).1.model (s.finishResponse response).2 := by
  unfold finishResponse
  split_ifs
  · exact .nil h
  · cases response with
    | none =>
      refine ⟨h, List.forall_mem_cons.mpr ⟨getD_unknown_ne hunknown h, ?_⟩⟩
      split
      · exact List.forall_mem_singleton.mpr (getD_unknown_ne hunknown h)
      · simp
    | some r =>
      have hmodel := model_setResponseMetadata_ne h (hresponse r rfl)
      refine ⟨hmodel, List.forall_mem_cons.mpr ⟨getD_unknown_ne hunknown hmodel, ?_⟩⟩
      split
      · exact List.forall_mem_singleton.mpr (getD_unknown_ne hunknown hmodel)
      · simp

/-- **A signal does not bring the name up.** -/
theorem signal_unnamed {sig : ChatSignal} (hsig : sig.Unnamed name) :
    Unnamed name (s.signal sig).1.model (s.signal sig).2 := by
  cases sig with
  | stop =>
    have hnone : ∀ r ∈ (none : Option Value), namesModel name r = false := by simp
    have hfinish := finishResponse_unnamed hunknown h hnone
    exact hfinish.append (doneEvent_unnamed hfinish.1)
  | event event =>
    have hevent : namesModel name event = false := hsig
    have hmodel := model_setEventMetadata_ne h hevent
    have hresponse : ∀ r ∈ event.get "response", namesModel name r = false :=
      fun r hr => namesModel_get hevent hr
    rw [signal, processResponseEvent]
    dsimp only
    split
    · exact processTextDelta_unnamed hunknown hmodel event
    · rw [processFunctionArgumentsDelta_eq]
      exact store_unnamed hunknown hmodel _ _ _
    · exact processOutputItem_unnamed hunknown hmodel event false
    · exact processOutputItem_unnamed hunknown hmodel event true
    · have hout := emitCompletedOutputIfNeeded_unnamed hunknown hmodel (event.get "response")
      exact hout.append (finishResponse_unnamed hunknown hout.1 hresponse)
    · have hout := emitCompletedOutputIfNeeded_unnamed hunknown hmodel (event.get "response")
      exact hout.append (finishResponse_unnamed hunknown hout.1 hresponse)
    · exact failResponse_unnamed hmodel hresponse
    · exact failResponse_unnamed hmodel hresponse
    · exact failResponse_unnamed hmodel hresponse
    · exact .nil hmodel

end ChatStream

namespace MessagesStream

variable {name : String}

/-- **The backend's name is not kept**, whatever the event says. -/
theorem model_setMetadata_ne {publicModel : String} (hne : name ≠ publicModel)
    (s : MessagesStream) (event : Value) :
    (s.setMetadata (some name) (some publicModel) event).model ≠ some name := by
  unfold setMetadata
  cases event.get "message" <;> dsimp only <;> split <;> grind

theorem doneEvent_unnamed {s : MessagesStream} (h : s.model ≠ some name) :
    Unnamed name s.doneEvent.1.model s.doneEvent.2 := by
  unfold doneEvent
  split_ifs
  · exact .nil h
  · exact ⟨h, List.forall_mem_singleton.mpr fun heq => by cases heq⟩

theorem errorFrame_unnamed {s : MessagesStream} (h : s.model ≠ some name) (event : Value) :
    Unnamed name (s.errorFrame event).1.model (s.errorFrame event).2 := by
  have hdone := doneEvent_unnamed (s := { s with completed := true }) h
  exact ⟨hdone.1, List.forall_mem_cons.mpr ⟨fun heq => (by cases heq), hdone.2⟩⟩

variable (hunknown : name ≠ "unknown") {s : MessagesStream} (h : s.model ≠ some name)

include hunknown h

theorem chatChunk_unnamed (delta : ChatDelta) (reason : Option FinishReason) :
    (s.chatChunk delta reason).modelName ≠ some name := getD_unknown_ne hunknown h

theorem store_unnamed (index : ℕ) (call : ChatCompletionStreamToolCall) (fragment : String) :
    Unnamed name (s.store index call fragment).1.model (s.store index call fragment).2 :=
  Unnamed.storeCall h (fun d => chatChunk_unnamed hunknown h d none) _ _ _ _ _

theorem processContentBlockStart_unnamed (event : Value) :
    Unnamed name (s.processContentBlockStart event).1.model
      (s.processContentBlockStart event).2 := by
  unfold processContentBlockStart
  dsimp only
  split
  · split
    · rw [announceToolCallIfReady_eq]
      exact store_unnamed hunknown h _ _ _
    · exact .nil h
  · exact .nil h

theorem processContentBlockDelta_unnamed (event : Value) :
    Unnamed name (s.processContentBlockDelta event).1.model
      (s.processContentBlockDelta event).2 := by
  cases hdelta : (event.get "delta").bind Value.asObject with
  | none =>
    rw [processContentBlockDelta, hdelta]
    exact .nil h
  | some delta =>
    by_cases htype : (OrdMap.get "type" delta).bind Value.asStr = some "input_json_delta"
    · rw [s.processContentBlockDelta_input hdelta htype]
      split_ifs
      · exact .nil h
      · exact store_unnamed hunknown h _ _ _
    · rw [processContentBlockDelta, hdelta]
      dsimp only
      split
      · split_ifs
        · exact .nil h
        · exact ⟨h, List.forall_mem_singleton.mpr (chatChunk_unnamed hunknown h _ _)⟩
      · contradiction
      · exact .nil h

theorem finishResponse_unnamed (usage : UsageTotals) (count : ℕ) :
    Unnamed name (s.finishResponse usage count).1.model (s.finishResponse usage count).2 := by
  unfold finishResponse
  split_ifs
  · exact .nil h
  · have hdone := doneEvent_unnamed (s := { s with completed := true }) h
    refine ⟨hdone.1, List.forall_mem_cons.mpr ⟨getD_unknown_ne hunknown h, ?_⟩⟩
    refine List.forall_mem_append.mpr ⟨?_, hdone.2⟩
    split_ifs
    · exact List.forall_mem_singleton.mpr (getD_unknown_ne hunknown h)
    · simp

/-- **A signal does not bring the name up**, even if it has it. -/
theorem signal_unnamed {publicModel : String} (hne : name ≠ publicModel) (sig : MessagesSignal) :
    Unnamed name (s.signal (some name) (some publicModel) sig).1.model
      (s.signal (some name) (some publicModel) sig).2 := by
  cases sig with
  | stop usage count =>
    rw [signal, finishStream]
    dsimp only
    split_ifs
    · have hfinish := finishResponse_unnamed hunknown h usage count
      exact hfinish.append (doneEvent_unnamed hfinish.1)
    · exact doneEvent_unnamed h
  | event usage count event =>
    have hmodel := model_setMetadata_ne hne s event
    rw [signal, processEvent]
    split
    · exact .nil hmodel
    · exact processContentBlockStart_unnamed hunknown hmodel event
    · exact processContentBlockDelta_unnamed hunknown hmodel event
    · refine .nil ?_
      unfold processMessageDelta
      split
      · exact hmodel
      · exact hmodel
    · exact finishResponse_unnamed hunknown hmodel usage count
    · exact errorFrame_unnamed hmodel event
    · exact .nil hmodel

end MessagesStream

end Onair
