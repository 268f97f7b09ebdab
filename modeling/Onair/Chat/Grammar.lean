import Onair.Chat.Signals
import Onair.Lib.Json.Reference

/-!
# How a chat stream ends

* `IsTerminal`, `ChatGrammar`: deltas, one terminal frame, the end marker, and nothing else;
* `QuietEvent`, `deltaStep_eq_nil_iff`: the events that send nothing, in the state they come in;
* `Progress`, `signal_progress`: how far a stream is, and what one signal does to that;
* `chat_grammar_iff`: **a stream of Responses events has the grammar if and only if it is quiet once
  it has ended**.
-/

namespace Onair

open Json Text

/-! ### The grammar -/

/-- The frames that end a stream: a chunk with a finish reason and perhaps one with the usage, or an
error. -/
inductive IsTerminal : List ChatFrame → Prop
  | chunk (h : ChunkHead) (delta : ChatDelta) (reason : FinishReason) (u : Bool) :
    IsTerminal [.chunk h delta (some reason) u]
  | usage (h : ChunkHead) (delta : ChatDelta) (reason : FinishReason) (u : Bool) (h' : ChunkHead)
    (counts : ChatUsage) : IsTerminal [.chunk h delta (some reason) u, .usage h' counts]
  | error (message : String) : IsTerminal [.error message]

theorem IsTerminal.ne_nil {fs : List ChatFrame} (h : IsTerminal fs) : fs ≠ [] := by
  cases h <;> simp

theorem IsTerminal.not_delta {fs : List ChatFrame} (h : IsTerminal fs) :
    ∀ f ∈ fs, f.isDelta = false := by
  cases h <;> simp [ChatFrame.isDelta]

theorem IsTerminal.not_done {fs : List ChatFrame} (h : IsTerminal fs) : .done ∉ fs := by
  cases h <;> simp

/-- Deltas, then one terminal frame, then the end marker, and nothing after it. -/
def ChatGrammar (fs : List ChatFrame) : Prop :=
  ∃ deltas terminal, fs = deltas ++ terminal ++ [.done] ∧ (∀ f ∈ deltas, f.isDelta = true) ∧
    IsTerminal terminal

theorem ChatGrammar.deltas_first {fs : List ChatFrame} (h : ChatGrammar fs) :
    fs.Pairwise fun f g => g.isDelta = true → f.isDelta = true := by
  obtain ⟨deltas, terminal, rfl, hdeltas, hterminal⟩ := h
  have hrest : ∀ g ∈ terminal ++ [.done], g.isDelta = false := by
    intro g hg
    rcases List.mem_append.mp hg with hg | hg
    · exact hterminal.not_delta g hg
    · rw [List.mem_singleton.mp hg]
      rfl
  rw [List.append_assoc, List.pairwise_append]
  refine ⟨?_, ?_, fun f hf g hg _ => hdeltas f hf⟩
  · exact List.pairwise_of_forall_mem_list fun f hf g hg _ => hdeltas f hf
  · refine List.pairwise_of_forall_mem_list fun f hf g hg hdelta => ?_
    rw [hrest g hg] at hdelta
    exact absurd hdelta (by decide)

theorem ChatGrammar.done_last {fs : List ChatFrame} (h : ChatGrammar fs)
    {before after : List ChatFrame} (heq : fs = before ++ .done :: after) : after = [] := by
  obtain ⟨deltas, terminal, rfl, hdeltas, hterminal⟩ := h
  by_contra hne
  have hmem : .done ∈ deltas ++ terminal := by
    rw [show deltas ++ terminal = (before ++ .done :: after).dropLast by
      rw [← heq, List.dropLast_concat], List.dropLast_append_of_ne_nil (by simp),
      List.dropLast_cons_of_ne_nil hne]
    simp
  rcases List.mem_append.mp hmem with h | h
  · exact absurd (hdeltas _ h) (by simp [ChatFrame.isDelta])
  · exact hterminal.not_done h

theorem ChatGrammar.terminal_mem {fs : List ChatFrame} (h : ChatGrammar fs) :
    ∃ f ∈ fs, f.isDelta = false ∧ f ≠ .done := by
  obtain ⟨deltas, terminal, rfl, -, hterminal⟩ := h
  obtain ⟨f, rest, rfl⟩ := List.exists_cons_of_ne_nil hterminal.ne_nil
  refine ⟨f, by simp, hterminal.not_delta f List.mem_cons_self, ?_⟩
  rintro rfl
  exact hterminal.not_done List.mem_cons_self

/-! ### Progress -/

/-- How far a stream is: it has sent deltas, or its terminal frame too, or it is finished. -/
inductive Progress : List ChatFrame → Bool → Bool → Prop
  | sending {h : List ChatFrame} (hdeltas : ∀ f ∈ h, f.isDelta = true) : Progress h false false
  | ended {deltas terminal : List ChatFrame} (hdeltas : ∀ f ∈ deltas, f.isDelta = true)
    (hterminal : IsTerminal terminal) : Progress (deltas ++ terminal) true false
  | finished {h : List ChatFrame} (hgrammar : ChatGrammar h) : Progress h true true

namespace Progress

variable {h out : List ChatFrame} {completed doneSent : Bool}

theorem deltas (hp : Progress h false doneSent) (hout : ∀ f ∈ out, f.isDelta = true) :
    Progress (h ++ out) false doneSent := by
  cases hp with
  | sending hdeltas =>
    refine .sending fun f hf => ?_
    rcases List.mem_append.mp hf with hf | hf
    · exact hdeltas f hf
    · exact hout f hf

theorem terminal (hp : Progress h false doneSent) (hout : IsTerminal out) :
    Progress (h ++ out) true doneSent := by
  cases hp with
  | sending hdeltas => exact .ended hdeltas hout

theorem done (hp : Progress h true false) : Progress (h ++ [.done]) true true := by
  cases hp with
  | ended hdeltas hterminal => exact .finished ⟨_, _, rfl, hdeltas, hterminal⟩

theorem grammar (hp : Progress h true true) : ChatGrammar h := by
  cases hp with
  | finished hgrammar => exact hgrammar

/-- A stream that has ended has sent a frame that is no delta. -/
theorem exists_not_delta (hp : Progress h true doneSent) : ∃ f ∈ h, f.isDelta = false := by
  cases hp with
  | ended hdeltas hterminal =>
    obtain ⟨f, hf⟩ := List.exists_mem_of_ne_nil _ hterminal.ne_nil
    exact ⟨f, List.mem_append_right _ hf, hterminal.not_delta f hf⟩
  | finished hgrammar =>
    obtain ⟨f, hf, hdelta, -⟩ := hgrammar.terminal_mem
    exact ⟨f, hf, hdelta⟩

end Progress

/-! ### Quiet events -/

/-- Storing a call sends nothing if it is announced or without a name, and no fragment comes. -/
theorem storeCall_eq_nil_iff (chunk : ChatDelta → ChatFrame) (roleSent : Bool)
    (calls : List (ℕ × ChatCompletionStreamToolCall)) (index : ℕ)
    (call : ChatCompletionStreamToolCall) (fragment : String) :
    (storeCall chunk roleSent calls index call fragment).2 = [] ↔
      (call.name.isSome = true → call.announced = true) ∧ fragment = "" := by
  obtain ⟨callId, name, arguments, announced⟩ := call
  rw [storeCall, List.append_eq_nil_iff, putCall_out]
  refine and_congr ?_ ?_
  · cases announced <;> cases name <;> simp
  · split_ifs with h <;> simp [h]

namespace ChatStream

/-- The text of a text event. -/
def textDelta (event : Value) : String := ((event.get "delta").bind Value.asStr).getD ""

/-- The item event sends nothing: its call has its name already and its arguments, and its text is
empty or text was sent before. -/
def QuietItem (s : ChatStream) (event : Value) (done : Bool) : Prop :=
  match (event.get "item").bind Value.asObject with
  | some item =>
    match (OrdMap.get "type" item).bind Value.asStr with
    | some "function_call" =>
      ((itemName item).isSome = true →
        (callAt s.toolCalls (s.eventIndex event "output_index")).announced = true) ∧
      s.itemArguments event item done = ""
    | some "message" => done = true → s.textSent = false →
      responsesMessageContentToChatText ((OrdMap.get "content" item).getD .null) = ""
    | _ => True
  | none => True

/-- The output of a finished response is needed: nothing was sent before, and there is some. -/
def NeedsOutput (s : ChatStream) (response : Option Value) : Prop :=
  s.textSent = false ∧ s.toolCalls = [] ∧
    ∃ r, response = some r ∧ responseOutputToChatMessage (r.get "output") ≠ ("", [])

/-- The event sends no delta. -/
def QuietEvent (s : ChatStream) (event : Value) : Prop :=
  match responsesKind event with
  | .text => textDelta event = ""
  | .arguments => argumentsDelta event = ""
  | .item done => s.QuietItem event done
  | .completed => ¬s.NeedsOutput (event.get "response")
  | .failed | .other => True

theorem setEventMetadata_spec (s : ChatStream) (event : Value) :
    ∃ responseId createdAt model,
      s.setEventMetadata event = { s with responseId, createdAt, model } := by
  unfold setEventMetadata
  cases event.get "response" <;> exact ⟨_, _, _, rfl⟩

theorem processTextDelta_eq_nil_iff (s : ChatStream) (event : Value) :
    (s.processTextDelta event).2 = [] ↔ textDelta event = "" := by
  unfold processTextDelta textDelta
  cases (event.get "delta").bind Value.asStr with
  | none => simp
  | some delta =>
    dsimp only [Option.getD_some]
    split_ifs with h <;> simp [h, sendText]

theorem processOutputItem_eq_nil_iff (s : ChatStream) (h : NamedAnnounced s.toolCalls)
    (event : Value) (done : Bool) :
    (s.processOutputItem event done).2 = [] ↔ s.QuietItem event done := by
  unfold processOutputItem
  cases hitem : (event.get "item").bind Value.asObject with
  | none => simp [QuietItem, hitem]
  | some item =>
    dsimp only
    split <;> rename_i htype
    · simp only [QuietItem, hitem, htype]
      rw [processFunctionItem_eq, store, storeCall_eq_nil_iff]
      refine and_congr_left' ?_
      -- A call that had a name before is announced.
      have hnamed := h (s.eventIndex event "output_index")
      simp only [itemCall, Option.isSome_or, Bool.or_eq_true]
      tauto
    · simp only [QuietItem, hitem, htype]
      cases done <;> cases s.textSent <;> simp
      cases OrdMap.get "content" item with
      | none => simp [responsesMessageContentToChatText]
      | some content =>
        dsimp only [Option.getD_some]
        split_ifs with h <;> simp [h, sendText]
    · simp only [QuietItem, hitem]

theorem run_emitToolCall_eq_nil_iff (s : ChatStream) (hcalls : s.toolCalls = [])
    (entries : List (ChatToolCall × ℕ)) :
    (Mealy.run emitToolCall s entries).2 = [] ↔ entries = [] := by
  cases entries with
  | nil => simp
  | cons entry entries =>
    rw [Mealy.run_cons, List.append_eq_nil_iff, emitToolCall_eq, store, storeCall_eq_nil_iff]
    simp [entryCall, hcalls]

theorem emitCompletedOutputIfNeeded_eq_nil_iff (s : ChatStream) (response : Option Value) :
    (s.emitCompletedOutputIfNeeded response).2 = [] ↔ ¬s.NeedsOutput response := by
  unfold emitCompletedOutputIfNeeded NeedsOutput
  split_ifs with h
  · simp only [true_iff]
    rintro ⟨htext, hcalls, -⟩
    simp [htext, hcalls] at h
  · simp only [Bool.or_eq_true, Bool.not_eq_true', not_or, Bool.not_eq_true, Bool.not_eq_false,
      List.isEmpty_iff] at h
    cases response with
    | none => simp
    | some response =>
      rcases hmessage : responseOutputToChatMessage (response.get "output") with ⟨content, calls⟩
      simp only [hmessage, Option.some.injEq, exists_eq_left', List.append_eq_nil_iff]
      by_cases hcontent : content = ""
      · rw [if_pos hcontent, run_emitToolCall_eq_nil_iff _ h.2]
        simp [h, hcontent]
      · rw [if_neg hcontent]
        simp [h, hcontent, sendText]

/-- **An event sends no delta if and only if it is quiet.** -/
theorem deltaStep_eq_nil_iff (s : ChatStream) (h : NamedAnnounced s.toolCalls) (event : Value) :
    (s.deltaStep event).2 = [] ↔ s.QuietEvent event := by
  obtain ⟨responseId, createdAt, model, hmeta⟩ := s.setEventMetadata_spec event
  unfold deltaStep QuietEvent
  rw [hmeta]
  cases responsesKind event with
  | text => exact processTextDelta_eq_nil_iff _ event
  | arguments =>
    dsimp only
    rw [processFunctionArgumentsDelta_eq, store, storeCall_eq_nil_iff]
    exact and_iff_right (h _)
  | item done =>
    exact processOutputItem_eq_nil_iff { s with responseId, createdAt, model } h event done
  | completed => exact emitCompletedOutputIfNeeded_eq_nil_iff _ _
  | failed => simp
  | other => simp

/-! ### One signal -/

/-- The finish reason of a stream that ends with a response, or with none. -/
def finishReasonOf (s : ChatStream) (response : Option Value) : FinishReason :=
  match response.bind Value.asObject with
  | some object => responseFinishReason object (!s.toolCalls.isEmpty)
  | none => if !s.toolCalls.isEmpty then .toolCalls else .stop

theorem finishResponse_open {s : ChatStream} (h : s.completed = false) (response : Option Value) :
    ∃ head usage, (s.finishResponse response).2 =
        .chunk head .empty (some (s.finishReasonOf response)) s.emitUsageToClient :: usage ∧
      (usage = [] ∨ ∃ counts, usage = [.usage head counts]) ∧
      (s.finishResponse response).1.core = { s.core with completed := true } := by
  rw [finishResponse, if_neg (by rw [h]; decide)]
  cases response with
  | none =>
    refine ⟨_, _, rfl, ?_, rfl⟩
    cases s.emitUsageToClient <;> exact Or.inl rfl
  | some response =>
    refine ⟨_, _, rfl, ?_, rfl⟩
    dsimp only
    split
    · exact Or.inr ⟨_, rfl⟩
    · exact Or.inl rfl

theorem isTerminal_finishResponse {s : ChatStream} (h : s.completed = false)
    (response : Option Value) : IsTerminal (s.finishResponse response).2 := by
  obtain ⟨head, usage, heq, rfl | ⟨counts, rfl⟩, -⟩ := finishResponse_open h response
  · rw [heq]
    exact .chunk _ _ _ _
  · rw [heq]
    exact .usage _ _ _ _ _ _

theorem finishResponse_completed {s : ChatStream} (h : s.completed = true)
    (response : Option Value) : s.finishResponse response = (s, []) := by
  rw [finishResponse, if_pos h]

theorem failResponse_completed {s : ChatStream} (h : s.completed = true)
    (response : Option Value) : s.failResponse response = (s, []) := by
  rw [failResponse, if_pos h]

theorem failResponse_open {s : ChatStream} (h : s.completed = false) (hdone : s.doneSent = false)
    (response : Option Value) :
    (s.failResponse response).2 = [.error couldNotComplete, .done] ∧
      (s.failResponse response).1.core = { s.core with completed := true, doneSent := true } := by
  rw [failResponse, if_neg (by rw [h]; decide)]
  cases response <;> simp [doneEvent, setResponseMetadata, hdone, core]

theorem doneEvent_spec (s : ChatStream) :
    (s.doneEvent.1.core = { s.core with doneSent := true }) ∧
      s.doneEvent.2 = if s.doneSent then [] else [.done] := by
  unfold doneEvent
  cases h : s.doneSent <;> simp [core, h]

/-- The progress of a stream that has sent `h`. -/
def At (s : ChatStream) (h : List ChatFrame) : Prop := Progress h s.completed s.doneSent

theorem doneEvent_at {s : ChatStream} {h : List ChatFrame} (hcompleted : s.completed = true)
    (hp : s.At h) : s.doneEvent.1.At (h ++ s.doneEvent.2) := by
  obtain ⟨hcore, hout⟩ := s.doneEvent_spec
  have hflags : s.doneEvent.1.completed = true ∧ s.doneEvent.1.doneSent = true :=
    ⟨(congrArg ChatCore.completed hcore).trans hcompleted, congrArg ChatCore.doneSent hcore⟩
  simp only [At, hcompleted, hflags, hout] at hp ⊢
  cases hdone : s.doneSent with
  | true =>
    rw [hdone] at hp
    simpa using hp
  | false =>
    rw [hdone] at hp
    exact hp.done

theorem finishResponse_at {s : ChatStream} {h : List ChatFrame} (hp : s.At h)
    (response : Option Value) :
    (s.finishResponse response).1.At (h ++ (s.finishResponse response).2) ∧
      (s.finishResponse response).1.completed = true := by
  cases hcompleted : s.completed with
  | true =>
    rw [finishResponse_completed hcompleted]
    exact ⟨by simpa using hp, hcompleted⟩
  | false =>
    obtain ⟨head, usage, -, -, hcore⟩ := finishResponse_open hcompleted response
    have hflags : (s.finishResponse response).1.completed = true ∧
        (s.finishResponse response).1.doneSent = s.doneSent :=
      ⟨congrArg ChatCore.completed hcore, congrArg ChatCore.doneSent hcore⟩
    simp only [At, hcompleted, hflags] at hp ⊢
    exact ⟨hp.terminal (isTerminal_finishResponse hcompleted response), trivial⟩

theorem failResponse_at {s : ChatStream} {h : List ChatFrame} (hp : s.At h)
    (response : Option Value) :
    (s.failResponse response).1.At (h ++ (s.failResponse response).2) := by
  cases hcompleted : s.completed with
  | true =>
    rw [failResponse_completed hcompleted]
    simpa using hp
  | false =>
    rw [At, hcompleted] at hp
    have hdone : s.doneSent = false := by
      generalize s.doneSent = d at hp
      cases hp
      rfl
    obtain ⟨hout, hcore⟩ := failResponse_open hcompleted hdone response
    have hflags : (s.failResponse response).1.completed = true ∧
        (s.failResponse response).1.doneSent = true :=
      ⟨congrArg ChatCore.completed hcore, congrArg ChatCore.doneSent hcore⟩
    rw [hdone] at hp
    simp only [At, hflags, hout]
    have := (hp.terminal (.error couldNotComplete)).done
    rwa [List.append_assoc] at this

/-- The signal is quiet. -/
def QuietSignal (s : ChatStream) : ChatSignal → Prop
  | .event event => s.QuietEvent event
  | .stop => True

/-- **One signal and the grammar**: a signal that is quiet once the stream has ended takes the
stream on in the grammar. -/
theorem signal_at {s : ChatStream} {h : List ChatFrame} (hnamed : NamedAnnounced s.toolCalls)
    (hp : s.At h) (sig : ChatSignal) (hquiet : s.completed = true → s.QuietSignal sig) :
    (s.signal sig).1.At (h ++ (s.signal sig).2) := by
  cases sig with
  | stop =>
    obtain ⟨hfinish, hcompleted⟩ := finishResponse_at hp none
    have := doneEvent_at hcompleted hfinish
    rwa [List.append_assoc] at this
  | event event =>
    have hspec := s.deltaStep_spec event
    have hdelta : (s.deltaStep event).1.At (h ++ (s.deltaStep event).2) := by
      rw [At, show (s.deltaStep event).1.completed = s.completed from hspec.completed_eq,
        show (s.deltaStep event).1.doneSent = s.doneSent from hspec.doneSent_eq]
      rw [At] at hp
      cases hcompleted : s.completed with
      | true =>
        rw [(s.deltaStep_eq_nil_iff hnamed event).mpr (hquiet hcompleted), List.append_nil]
        rwa [hcompleted] at hp
      | false =>
        rw [hcompleted] at hp
        exact hp.deltas hspec.deltas
    rw [signal, processResponseEvent_eq, ← List.append_assoc]
    unfold closeStep
    cases responsesKind event with
    | completed => exact (finishResponse_at hdelta _).1
    | failed => exact failResponse_at hdelta _
    | _ => simpa using hdelta

theorem closeStep_named {s : ChatStream} (event : Value) :
    (s.closeStep event).1.toolCalls = s.toolCalls := by
  unfold closeStep
  cases responsesKind event with
  | completed =>
    unfold finishResponse
    cases event.get "response" <;> dsimp only <;> split_ifs <;> rfl
  | failed =>
    unfold failResponse doneEvent
    cases event.get "response" <;> dsimp only <;> split_ifs <;> rfl
  | _ => rfl

theorem finishStream_toolCalls (s : ChatStream) : s.finishStream.1.toolCalls = s.toolCalls := by
  unfold finishStream finishResponse doneEvent
  dsimp only
  split_ifs <;> rfl

theorem signal_named {s : ChatStream} (h : NamedAnnounced s.toolCalls) (sig : ChatSignal) :
    NamedAnnounced (s.signal sig).1.toolCalls := by
  cases sig with
  | stop =>
    rw [signal, finishStream_toolCalls]
    exact h
  | event event =>
    rw [signal, processResponseEvent_eq, closeStep_named]
    exact (s.deltaStep_spec event).named h

theorem finishStream_flags (s : ChatStream) :
    s.finishStream.1.completed = true ∧ s.finishStream.1.doneSent = true := by
  have hcompleted : (s.finishResponse none).1.completed = true := by
    cases hs : s.completed with
    | true =>
      rw [finishResponse_completed hs]
      exact hs
    | false =>
      obtain ⟨_, _, -, -, hcore⟩ := finishResponse_open hs none
      exact congrArg ChatCore.completed hcore
  obtain ⟨hcore, -⟩ := (s.finishResponse none).1.doneEvent_spec
  exact ⟨(congrArg ChatCore.completed hcore).trans hcompleted, congrArg ChatCore.doneSent hcore⟩

/-- An event that is not quiet sends a delta. -/
theorem exists_delta_of_not_quiet {s : ChatStream} (h : NamedAnnounced s.toolCalls)
    {sig : ChatSignal} (hquiet : ¬s.QuietSignal sig) :
    ∃ f ∈ (s.signal sig).2, f.isDelta = true := by
  cases sig with
  | stop => exact absurd trivial hquiet
  | event event =>
    obtain ⟨f, hf⟩ := List.exists_mem_of_ne_nil _
      (mt (s.deltaStep_eq_nil_iff h event).mp hquiet)
    refine ⟨f, ?_, (s.deltaStep_spec event).deltas f hf⟩
    rw [signal, processResponseEvent_eq]
    exact List.mem_append_left _ hf

end ChatStream

/-- The signals of a stream are quiet once it has ended. -/
def QuietOnceEnded (emit : Bool) (sigs : List ChatSignal) : Prop :=
  Mealy.Along ChatStream.signal (fun s sig => s.completed = true → s.QuietSignal sig)
    { emitUsageToClient := emit } sigs

/-- What a client is sent consists of chat frames, and they have the property. -/
def SentFrames (P : List ChatFrame → Prop) (out : List SseOut) : Prop :=
  ∃ fs, out = fs.map .chat ∧ P fs

theorem sentFrames_map (P : List ChatFrame → Prop) (fs : List ChatFrame) :
    SentFrames P (fs.map .chat) ↔ P fs := by
  constructor
  · rintro ⟨gs, heq, h⟩
    rwa [List.map_injective_iff.mpr (fun a b hab => SseOut.chat.inj hab) heq]
  · intro h
    exact ⟨fs, rfl, h⟩

/-- **A run has the grammar if and only if it is quiet once the stream has ended.** -/
theorem chatGrammar_run_iff (emit : Bool) (sigs : List ChatSignal) :
    ChatGrammar (Mealy.run ChatStream.signal { emitUsageToClient := emit }
        (sigs ++ [.stop])).2 ↔
      QuietOnceEnded emit (sigs ++ [.stop]) := by
  let start : ChatStream := { emitUsageToClient := emit }
  have hinv : ∀ sigs, QuietOnceEnded emit sigs →
      NamedAnnounced (Mealy.run ChatStream.signal start sigs).1.toolCalls ∧
        (Mealy.run ChatStream.signal start sigs).1.At
          (Mealy.run ChatStream.signal start sigs).2 := by
    intro sigs hsigs
    have := Mealy.run_hist_along
      (fun h s => NamedAnnounced s.toolCalls ∧ s.At h)
      (fun h s sig hquiet hs => ⟨ChatStream.signal_named hs.1 sig,
        ChatStream.signal_at hs.1 hs.2 sig hquiet⟩) (h := []) hsigs
      ⟨namedAnnounced_nil, .sending (by simp)⟩
    simpa using this
  constructor
  · intro hgrammar
    by_contra hnot
    -- Take the first signal that is not quiet after the end.
    have hfirst : ¬Mealy.Along ChatStream.signal
        (fun s sig => ¬(s.completed = true ∧ ¬s.QuietSignal sig)) start (sigs ++ [.stop]) := by
      simpa only [QuietOnceEnded, not_and_not_right] using hnot
    obtain ⟨pre, sig, post, heq, hpre, hcompleted, hquiet⟩ :=
      Mealy.exists_first_of_not_along hfirst
    obtain ⟨hnamed, hat⟩ := hinv pre (by simpa only [QuietOnceEnded, not_and_not_right] using hpre)
    rw [ChatStream.At, hcompleted] at hat
    obtain ⟨f, hf, hfdelta⟩ := hat.exists_not_delta
    obtain ⟨g, hg, hgdelta⟩ := ChatStream.exists_delta_of_not_quiet hnamed hquiet
    have hpairs := hgrammar.deltas_first
    rw [heq, Mealy.run_append, List.pairwise_append] at hpairs
    have := hpairs.2.2 f hf g (by rw [Mealy.run_cons]; exact List.mem_append_left _ hg) hgdelta
    rw [hfdelta] at this
    exact absurd this (by decide)
  · intro hquiet
    obtain ⟨-, hat⟩ := hinv _ hquiet
    have hflags := (Mealy.run ChatStream.signal start sigs).1.finishStream_flags
    rw [ChatStream.At, Mealy.run_append, Mealy.run_singleton] at hat
    simp only [ChatStream.signal, hflags] at hat
    rw [Mealy.run_append, Mealy.run_singleton]
    exact hat.grammar

/-- **When a chat stream made from Responses events has the grammar**: for every upstream stream in
any chunks, if and only if every event is quiet once the stream has ended. -/
theorem chat_grammar_iff (c : Codec) (backendModel publicModel : Option String) (emit : Bool)
    (chunks : List Bytes) :
    SentFrames ChatGrammar
        ((SseStrategy.new .chatCompletionsViaResponses backendModel publicModel emit).runAll c
          chunks).2 ↔
      QuietOnceEnded emit
        (chatSignals { backendModel, publicModel } (frames c chunks.flatten)) := by
  rw [runAll_chat, sentFrames_map, chatFrames, chatSignals]
  exact chatGrammar_run_iff emit _

/-- Text after the response is completed is sent after the terminal chunk. -/
theorem chat_grammar_late_text :
    ¬SentFrames ChatGrammar
      ((SseStrategy.new .chatCompletionsViaResponses none none false).runAll reference
        [sseData reference (.obj [("type", .string "response.completed")]),
          sseData reference (.obj [("type", .string "response.output_text.delta"),
            ("delta", .string "x")])]).2 := by
  rw [runAll_chat, sentFrames_map]
  intro hgrammar
  have hkinds : (chatFrames { backendModel := none, publicModel := none } false (frames reference
      [sseData reference (.obj [("type", .string "response.completed")]),
        sseData reference (.obj [("type", .string "response.output_text.delta"),
          ("delta", .string "x")])].flatten)).map ChatFrame.isDelta = [false, true, false] := by
    decide +kernel
  have hpairs := (List.pairwise_map (R := fun a b => b = true → a = true)).mpr
    hgrammar.deltas_first
  rw [hkinds] at hpairs
  simp at hpairs

end Onair
