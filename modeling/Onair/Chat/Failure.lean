import Onair.Chat.GrammarMessages
import Onair.Responses.Deltas

/-!
# Failed upstream streams

* `RequestMode.errorValue`, `successValue`, `failsFirst`, `endsFirst`: what comes first in an
  upstream stream, an error, the end of a completion or an end marker;
* `SseOut.isSuccess`, `SseOut.isFailure`: what a client takes for an end of either kind;
* `ChatStream.signal_completed`, `MessagesStream.signal_completed`: a stream that has ended sends no
  success any more;
* `failed_stream_iff`: **a failed stream is shown as one in every conversion but that of chat
  completions into a response**.
-/

namespace Onair

open Json Text

/-! ### Ends of upstream streams -/

namespace RequestMode

/-- The modes that convert one stream into another. -/
def converts : RequestMode → Bool
  | .responsesViaChatCompletions | .chatCompletionsViaResponses
  | .chatCompletionsViaMessages => true
  | .native | .anthropicMessagesNative => false

/-- An upstream value that reports an error. -/
def errorValue (mode : RequestMode) (value : Value) : Bool :=
  match mode with
  | .responsesViaChatCompletions => ((value.get "error").bind Value.asObject).isSome
  | .chatCompletionsViaResponses => responsesKind value = .failed
  | .chatCompletionsViaMessages => messagesKind value = .failed
  | .native | .anthropicMessagesNative => false

/-- An upstream value that ends a completion. -/
def successValue (mode : RequestMode) (value : Value) : Bool :=
  match mode with
  | .responsesViaChatCompletions =>
    (ResponsesStream.chunkChoices value).any ResponsesStream.choiceFinishes
  | .chatCompletionsViaResponses => responsesKind value = .completed
  | .chatCompletionsViaMessages => messagesKind value = .stop
  | .native | .anthropicMessagesNative => false

/-- An error of the upstream stream comes before any end of a completion. -/
def failsFirst (mode : RequestMode) : List SseFrame → Bool
  | [] => false
  | .data value _ _ :: fs =>
    mode.errorValue value || (!mode.successValue value && mode.failsFirst fs)
  | _ :: fs => mode.failsFirst fs

/-- An upstream value that begins a message. -/
def beginsMessage (mode : RequestMode) (value : Value) : Bool :=
  match mode with
  | .chatCompletionsViaMessages =>
    (((value.get "message").bind fun message => message.get "id").bind Value.asStr).isSome
  | _ => true

/-- An end marker comes before any error of the upstream stream, and after a message was begun;
`begun` says whether one was begun already. -/
def endsFirst (mode : RequestMode) (begun : Bool) : List SseFrame → Bool
  | [] => false
  | .data value _ _ :: fs =>
    !mode.errorValue value && mode.endsFirst (begun || mode.beginsMessage value) fs
  | .done _ :: fs => begun || mode.endsFirst begun fs
  | _ :: fs => mode.endsFirst begun fs

end RequestMode

/-! ### What a client is told -/

/-- A chunk with a finish reason. -/
def ChatFrame.isFinish : ChatFrame → Bool
  | .chunk _ _ (some _) _ => true
  | _ => false

theorem ChatFrame.not_finish_of_delta {f : ChatFrame} (h : f.isDelta = true) :
    f.isFinish = false := by
  cases f with
  | chunk head delta reason u => cases reason <;> simp_all [isDelta, isFinish]
  | _ => rfl

/-- A client takes this for the end of a completion: `response.completed`, whose status is
`completed`, or a chunk with a finish reason. -/
def SseOut.isSuccess : SseOut → Bool
  | .event (.completed response) => response.status = .completed
  | .chat f => f.isFinish
  | _ => false

/-- A client takes this for an error: an error frame, or a line with the name of an error event. -/
def SseOut.isFailure : SseOut → Bool
  | .chat (.error _) => true
  | .line bytes =>
    utf8FieldValue (lineContent bytes) (asBytes "event:") ∈ [some "error", some "response.failed"]
  | _ => false

/-- A failure is shown: the client is told of an error and of no completion. -/
def ShownAsFailure (out : List SseOut) : Prop :=
  (∀ o ∈ out, o.isSuccess = false) ∧ ∃ o ∈ out, o.isFailure = true

theorem shownAsFailure_map {fs : List ChatFrame} :
    ShownAsFailure (fs.map .chat) ↔
      (∀ f ∈ fs, f.isFinish = false) ∧ ∃ message, .error message ∈ fs := by
  refine and_congr List.forall_mem_map ⟨?_, ?_⟩
  · rintro ⟨o, ho, hfailure⟩
    obtain ⟨f, hf, rfl⟩ := List.mem_map.mp ho
    cases f with
    | error message => exact ⟨message, hf⟩
    | _ => simp [SseOut.isFailure] at hfailure
  · rintro ⟨message, herror⟩
    exact ⟨.chat (.error message), List.mem_map_of_mem herror, rfl⟩

/-- Deltas and end markers show nothing. -/
theorem shownAsFailure_append {out : List ChatFrame} (h : ∀ f ∈ out, f.isDelta = true ∨ f = .done)
    (fs : List ChatFrame) :
    ShownAsFailure ((out ++ fs).map .chat) ↔ ShownAsFailure (fs.map .chat) := by
  have hout : ∀ f ∈ out, f.isFinish = false ∧ ∀ message, f ≠ .error message := by
    intro f hf
    obtain hdelta | rfl := h f hf
    · refine ⟨ChatFrame.not_finish_of_delta hdelta, ?_⟩
      rintro message rfl
      simp [ChatFrame.isDelta] at hdelta
    · simp [ChatFrame.isFinish]
  rw [shownAsFailure_map, shownAsFailure_map, List.forall_mem_append]
  refine and_congr (and_iff_right fun f hf => (hout f hf).1) (exists_congr fun message => ?_)
  rw [List.mem_append]
  exact or_iff_right fun hmem => (hout _ hmem).2 message rfl

theorem not_shownAsFailure {out : List ChatFrame} (h : ∃ f ∈ out, f.isFinish = true)
    (fs : List ChatFrame) : ¬ShownAsFailure ((out ++ fs).map .chat) := by
  rw [shownAsFailure_map]
  rintro ⟨hfinish, -⟩
  obtain ⟨f, hf, hf'⟩ := h
  rw [hfinish f (List.mem_append_left _ hf)] at hf'
  exact absurd hf' (by decide)

/-! ### The conversion from Responses events -/

namespace ChatStream

theorem signal_completed {s : ChatStream} (h : s.completed = true) (sig : ChatSignal) :
    (s.signal sig).1.completed = true ∧ ∀ f ∈ (s.signal sig).2, f.isFinish = false := by
  cases sig with
  | stop =>
    refine ⟨s.finishStream_flags.1, ?_⟩
    rw [signal, finishStream, finishResponse_completed h]
    obtain ⟨-, hout⟩ := s.doneEvent_spec
    simp only [List.nil_append, hout]
    split_ifs <;> simp [ChatFrame.isFinish]
  | event event =>
    have hspec := s.deltaStep_spec event
    have hs : (s.deltaStep event).1.completed = true := hspec.completed_eq.trans h
    rw [signal, processResponseEvent_eq]
    have hclose : (s.deltaStep event).1.closeStep event = ((s.deltaStep event).1, []) := by
      unfold closeStep
      cases responsesKind event with
      | completed => exact finishResponse_completed hs _
      | failed => exact failResponse_completed hs _
      | _ => rfl
    rw [hclose, List.append_nil]
    exact ⟨hs, fun f hf => ChatFrame.not_finish_of_delta (hspec.deltas f hf)⟩

theorem run_completed {s : ChatStream} (h : s.completed = true) (sigs : List ChatSignal) :
    ∀ f ∈ (Mealy.run signal s sigs).2, f.isFinish = false :=
  (Mealy.run_forall (fun t : ChatStream => t.completed = true) _
    (fun _ sig _ hs => signal_completed hs sig) h).2

theorem signal_eq_deltaStep {s : ChatStream} {event : Value}
    (hcompleted : responsesKind event ≠ .completed) (hfailed : responsesKind event ≠ .failed) :
    s.signal (.event event) = s.deltaStep event := by
  have hclose : (s.deltaStep event).1.closeStep event = ((s.deltaStep event).1, []) := by
    unfold closeStep
    cases hkind : responsesKind event with
    | completed => exact absurd hkind hcompleted
    | failed => exact absurd hkind hfailed
    | _ => rfl
  rw [signal, processResponseEvent_eq, hclose, List.append_nil]

theorem signal_open (s : ChatStream) (event : Value)
    (hcompleted : responsesKind event ≠ .completed) (hfailed : responsesKind event ≠ .failed) :
    (s.signal (.event event)).1.completed = s.completed ∧
      (s.signal (.event event)).1.doneSent = s.doneSent ∧
      ∀ f ∈ (s.signal (.event event)).2, f.isDelta = true := by
  have hspec := s.deltaStep_spec event
  rw [signal_eq_deltaStep hcompleted hfailed]
  exact ⟨hspec.completed_eq, hspec.doneSent_eq, hspec.deltas⟩

/-- An event that reports an error ends an open stream with one. -/
theorem signal_failed {s : ChatStream} (h : s.completed = false) (hdone : s.doneSent = false)
    {event : Value} (hfailed : responsesKind event = .failed) :
    (s.signal (.event event)).1.completed = true ∧
      (s.signal (.event event)).2 = [.error couldNotComplete, .done] := by
  have hspec := s.deltaStep_spec event
  have hdelta : (s.deltaStep event).2 = [] := by
    rw [deltaStep, hfailed]
  obtain ⟨hout, hcore⟩ := failResponse_open (hspec.completed_eq.trans h)
    (hspec.doneSent_eq.trans hdone) (event.get "response")
  rw [signal, processResponseEvent_eq, closeStep, hfailed, hdelta]
  exact ⟨congrArg ChatCore.completed hcore, hout⟩

end ChatStream

theorem responsesKind_rewritten (o : SseObserver) (value : Value) :
    responsesKind (o.rewritten value) = responsesKind value := by
  rw [responsesKind, o.str_rewritten (by decide) (by decide), responsesKind]

/-- The end of the upstream stream ends an open stream with a finish reason. -/
theorem ChatStream.signal_stop_open {s : ChatStream} (h : s.completed = false) :
    ∃ f ∈ (s.signal .stop).2, f.isFinish = true := by
  obtain ⟨head, usage, hout, -, -⟩ := finishResponse_open h none
  refine ⟨.chunk head .empty (some (s.finishReasonOf none)) s.emitUsageToClient, ?_, rfl⟩
  rw [signal, finishStream]
  refine List.mem_append_left _ ?_
  rw [hout]
  exact List.mem_cons_self

/-- The frames sent for a stream of Responses events that fails: an error and no finish reason,
unless an end marker came first. -/
theorem chatFrames_failed (o : SseObserver) {fs : List SseFrame}
    (hfails : RequestMode.chatCompletionsViaResponses.failsFirst fs = true) {s : ChatStream}
    (h : s.completed = false) (hdone : s.doneSent = false) :
    ShownAsFailure ((Mealy.run ChatStream.signal s (chatSignals o fs)).2.map .chat) ↔
      RequestMode.chatCompletionsViaResponses.endsFirst true fs = false := by
  induction fs generalizing s with
  | nil => simp [RequestMode.failsFirst] at hfails
  | cons f fs ih =>
    cases f with
    | data value leadingSpace line =>
      have hcons : chatSignals o (.data value leadingSpace line :: fs) =
          .event (o.rewritten value) :: chatSignals o fs := rfl
      have hkind := responsesKind_rewritten o value
      rw [hcons, Mealy.run_cons]
      simp only [RequestMode.failsFirst, RequestMode.errorValue, RequestMode.successValue,
        Bool.or_eq_true, Bool.and_eq_true, decide_eq_true_eq, Bool.not_eq_true',
        decide_eq_false_iff_not] at hfails
      by_cases hfailed : responsesKind value = .failed
      · obtain ⟨hcompleted, hout⟩ := ChatStream.signal_failed h hdone (hkind.trans hfailed)
        refine iff_of_true (shownAsFailure_map.mpr ⟨?_, couldNotComplete, ?_⟩) ?_
        · rw [hout]
          refine List.forall_mem_append.mpr ⟨by simp [ChatFrame.isFinish], ?_⟩
          exact ChatStream.run_completed hcompleted _
        · rw [hout]
          exact List.mem_append_left _ List.mem_cons_self
        · simp [RequestMode.endsFirst, RequestMode.errorValue, hfailed]
      · obtain ⟨hnot, hrest⟩ := hfails.resolve_left hfailed
        obtain ⟨h1, h2, h3⟩ := s.signal_open (o.rewritten value)
          (by rwa [hkind]) (by rwa [hkind])
        rw [shownAsFailure_append (fun f hf => Or.inl (h3 f hf)),
          ih hrest (h1.trans h) (h2.trans hdone)]
        simp [RequestMode.endsFirst, RequestMode.errorValue, hfailed]
    | done line =>
      have hcons : chatSignals o (.done line :: fs) = .stop :: chatSignals o fs := rfl
      rw [hcons, Mealy.run_cons]
      exact iff_of_false (not_shownAsFailure (ChatStream.signal_stop_open h) _)
        (by simp [RequestMode.endsFirst])
    | _ => exact ih hfails h hdone

/-! ### The conversion from Anthropic events -/

namespace MessagesStream

variable (backendModel publicModel : Option String)

theorem doneEvent_not_finish (s : MessagesStream) : ∀ f ∈ s.doneEvent.2, f.isFinish = false := by
  unfold doneEvent
  split_ifs <;> simp [ChatFrame.isFinish]

theorem signal_completed {s : MessagesStream} (h : s.completed = true) (sig : MessagesSignal) :
    (s.signal backendModel publicModel sig).1.completed = true ∧
      ∀ f ∈ (s.signal backendModel publicModel sig).2, f.isFinish = false := by
  have hdone : ∀ t : MessagesStream, t.completed = true → t.doneEvent.1.completed = true := by
    intro t ht
    unfold doneEvent
    split_ifs <;> exact ht
  cases sig with
  | stop usage count =>
    have hfinish : (if s.messageId.isSome then s.finishResponse usage count else (s, [])) =
        (s, []) := by
      rw [finishResponse_completed h, ite_self]
    rw [signal, finishStream, hfinish]
    exact ⟨hdone s h, s.doneEvent_not_finish⟩
  | event usage count event =>
    have hspec := s.deltaStep_spec backendModel publicModel event
    have hs : (s.deltaStep backendModel publicModel event).1.completed = true :=
      hspec.completed_eq.trans h
    have hdeltas : ∀ f ∈ (s.deltaStep backendModel publicModel event).2, f.isFinish = false :=
      fun f hf => ChatFrame.not_finish_of_delta (hspec.deltas f hf)
    rw [signal, processEvent_eq]
    unfold closeStep
    cases messagesKind event with
    | stop =>
      simp only [finishResponse_completed hs, List.append_nil]
      exact ⟨hs, hdeltas⟩
    | failed =>
      refine ⟨hdone _ rfl, List.forall_mem_append.mpr ⟨hdeltas, ?_⟩⟩
      exact List.forall_mem_cons.mpr ⟨rfl, doneEvent_not_finish _⟩
    | _ =>
      simp only [List.append_nil]
      exact ⟨hs, hdeltas⟩

theorem run_completed {s : MessagesStream} (h : s.completed = true) (sigs : List MessagesSignal) :
    ∀ f ∈ (Mealy.run (signal backendModel publicModel) s sigs).2, f.isFinish = false :=
  (Mealy.run_forall (fun t : MessagesStream => t.completed = true) _
    (fun _ sig _ hs => signal_completed backendModel publicModel hs sig) h).2

theorem processContentBlockStart_frame (s : MessagesStream) (event : Value) :
    ∃ roleSent toolCalls,
      (s.processContentBlockStart event).1 = { s with roleSent, toolCalls } := by
  unfold processContentBlockStart
  dsimp only
  split
  · split
    · rw [announceToolCallIfReady_eq]
      exact ⟨_, _, rfl⟩
    · exact ⟨_, _, rfl⟩
  · exact ⟨_, _, rfl⟩

theorem processContentBlockDelta_frame (s : MessagesStream) (event : Value) :
    ∃ roleSent contentStarted toolCalls,
      (s.processContentBlockDelta event).1 = { s with roleSent, contentStarted, toolCalls } := by
  unfold processContentBlockDelta
  dsimp only
  split
  · split
    · split_ifs
      · exact ⟨_, _, _, rfl⟩
      · exact ⟨_, _, _, rfl⟩
    · split_ifs
      · exact ⟨_, _, _, rfl⟩
      · rw [announceToolCallIfReady_eq]
        exact ⟨_, _, _, rfl⟩
    · exact ⟨_, _, _, rfl⟩
  · exact ⟨_, _, _, rfl⟩

/-- A message is begun by the first event with the id of one. -/
theorem messageId_deltaStep (s : MessagesStream) (event : Value) :
    (s.deltaStep backendModel publicModel event).1.messageId.isSome =
      (s.messageId.isSome || (((event.get "message").bind fun message => message.get "id").bind
        Value.asStr).isSome) := by
  have hmeta : (s.setMetadata backendModel publicModel event).messageId.isSome =
      (s.messageId.isSome || (((event.get "message").bind fun message => message.get "id").bind
        Value.asStr).isSome) := by
    unfold setMetadata
    cases event.get "message" <;> dsimp only <;> split <;> (try split_ifs) <;>
      simp only [Option.isSome_or, Option.isSome_map, Option.bind_some, Option.bind_none,
        Option.isSome_none, Bool.or_false]
  rw [← hmeta, deltaStep]
  generalize s.setMetadata backendModel publicModel event = t
  cases messagesKind event with
  | blockStart =>
    obtain ⟨_, _, hframe⟩ := t.processContentBlockStart_frame event
    simp only [hframe]
  | blockDelta =>
    obtain ⟨_, _, _, hframe⟩ := t.processContentBlockDelta_frame event
    simp only [hframe]
  | messageDelta =>
    dsimp only
    unfold processMessageDelta
    split <;> rfl
  | _ => rfl

theorem signal_eq_deltaStep {s : MessagesStream} (usage : UsageTotals) (count : ℕ) {event : Value}
    (hstop : messagesKind event ≠ .stop) (hfailed : messagesKind event ≠ .failed) :
    s.signal backendModel publicModel (.event usage count event) =
      s.deltaStep backendModel publicModel event := by
  have hclose : (s.deltaStep backendModel publicModel event).1.closeStep usage count event =
      ((s.deltaStep backendModel publicModel event).1, []) := by
    unfold closeStep
    cases hkind : messagesKind event with
    | stop => exact absurd hkind hstop
    | failed => exact absurd hkind hfailed
    | _ => rfl
  rw [signal, processEvent_eq]
  simp only [hclose, List.append_nil]

theorem signal_open {s : MessagesStream} (usage : UsageTotals) (count : ℕ) {event : Value}
    (hstop : messagesKind event ≠ .stop) (hfailed : messagesKind event ≠ .failed) :
    let r := s.signal backendModel publicModel (.event usage count event)
    r.1.completed = s.completed ∧
      r.1.messageId.isSome = (s.messageId.isSome ||
        (((event.get "message").bind fun message => message.get "id").bind Value.asStr).isSome) ∧
      ∀ f ∈ r.2, f.isDelta = true := by
  have hspec := s.deltaStep_spec backendModel publicModel event
  rw [signal_eq_deltaStep _ _ _ _ hstop hfailed]
  exact ⟨hspec.completed_eq, s.messageId_deltaStep backendModel publicModel event, hspec.deltas⟩

/-- An end marker ends a message that was begun with a finish reason. -/
theorem signal_stop_open {s : MessagesStream} (h : s.completed = false)
    (hid : s.messageId.isSome = true) (usage : UsageTotals) (count : ℕ) :
    ∃ f ∈ (s.signal backendModel publicModel (.stop usage count)).2, f.isFinish = true := by
  refine ⟨.chunk s.head .empty (some s.finishReasonOf) s.emitUsageToClient, ?_, rfl⟩
  rw [signal, finishStream, if_pos hid, finishResponse, if_neg (by rw [h]; decide)]
  exact List.mem_append_left _ List.mem_cons_self

/-- An end marker before any message ends nothing. -/
theorem signal_stop_unbegun {s : MessagesStream} (hid : s.messageId.isSome = false)
    (usage : UsageTotals) (count : ℕ) :
    let r := s.signal backendModel publicModel (.stop usage count)
    r.1.completed = s.completed ∧ r.1.messageId.isSome = s.messageId.isSome ∧
      ∀ f ∈ r.2, f = .done := by
  simp only [signal, finishStream, if_neg (Bool.eq_false_iff.mp hid), List.nil_append, doneEvent]
  split_ifs <;> simp

theorem signal_failed {s : MessagesStream} (usage : UsageTotals) (count : ℕ) {event : Value}
    (hfailed : messagesKind event = .failed) :
    (s.signal backendModel publicModel (.event usage count event)).1.completed = true ∧
      (∃ message, .error message ∈
        (s.signal backendModel publicModel (.event usage count event)).2) ∧
      ∀ f ∈ (s.signal backendModel publicModel (.event usage count event)).2,
        f.isFinish = false := by
  have hspec := s.deltaStep_spec backendModel publicModel event
  rw [signal, processEvent_eq]
  simp only [closeStep, hfailed]
  refine ⟨?_, ⟨_, List.mem_append_right _ List.mem_cons_self⟩,
    List.forall_mem_append.mpr ⟨fun f hf => ChatFrame.not_finish_of_delta (hspec.deltas f hf),
      List.forall_mem_cons.mpr ⟨rfl, doneEvent_not_finish _⟩⟩⟩
  simp only [errorFrame, doneEvent]
  split_ifs <;> rfl

end MessagesStream

theorem messagesKind_rewriteEvent (o : SseObserver) (value : Value) :
    messagesKind (AnthropicMessagesToChatSseNormalizer.rewriteEvent o value) =
      messagesKind value := by
  rw [messagesKind, get_rewriteEvent o value (by decide), messagesKind]

/-- The frames sent for a stream of Anthropic events that fails: an error and no finish reason,
unless an end marker came first and after a message was begun. -/
theorem messagesFrames_failed (backendModel publicModel : Option String) (o : SseObserver)
    {fs : List SseFrame}
    (hfails : RequestMode.chatCompletionsViaMessages.failsFirst fs = true) {s : MessagesStream}
    (h : s.completed = false) :
    ShownAsFailure ((Mealy.run (MessagesStream.signal backendModel publicModel) s
        (messagesSignals o fs)).2.map .chat) ↔
      RequestMode.chatCompletionsViaMessages.endsFirst s.messageId.isSome fs = false := by
  induction fs generalizing s o with
  | nil => simp [RequestMode.failsFirst] at hfails
  | cons f fs ih =>
    cases f with
    | data value leadingSpace line =>
      rw [messagesSignals, messagesFrameSignals, List.singleton_append, Mealy.run_cons]
      simp only [RequestMode.failsFirst, RequestMode.errorValue, RequestMode.successValue,
        Bool.or_eq_true, Bool.and_eq_true, decide_eq_true_eq, Bool.not_eq_true',
        decide_eq_false_iff_not] at hfails
      have hkind := messagesKind_rewriteEvent o value
      by_cases hfailed : messagesKind value = .failed
      · obtain ⟨hcompleted, ⟨message, herror⟩, hfinish⟩ := MessagesStream.signal_failed (s := s)
          backendModel publicModel _ _ (hkind.trans hfailed)
        refine iff_of_true (shownAsFailure_map.mpr ⟨?_, message, ?_⟩) ?_
        · exact List.forall_mem_append.mpr ⟨hfinish, MessagesStream.run_completed _ _ hcompleted _⟩
        · exact List.mem_append_left _ herror
        · simp [RequestMode.endsFirst, RequestMode.errorValue, hfailed]
      · obtain ⟨hnot, hrest⟩ := hfails.resolve_left hfailed
        obtain ⟨hcompleted, hid, hdeltas⟩ := MessagesStream.signal_open (s := s) backendModel
          publicModel _ _ (by rwa [hkind]) (by rwa [hkind])
        rw [shownAsFailure_append (fun f hf => Or.inl (hdeltas f hf)),
          ih _ hrest (hcompleted.trans h), hid, get_rewriteEvent o value (by decide)]
        simp [RequestMode.endsFirst, RequestMode.errorValue, RequestMode.beginsMessage, hfailed]
    | done line =>
      rw [messagesSignals, messagesFrameSignals, List.singleton_append, Mealy.run_cons]
      cases hid : s.messageId.isSome with
      | true =>
        exact iff_of_false (not_shownAsFailure (MessagesStream.signal_stop_open _ _ h hid _ _) _)
          (by simp [RequestMode.endsFirst])
      | false =>
        obtain ⟨hcompleted, hid', hdone⟩ := MessagesStream.signal_stop_unbegun backendModel
          publicModel hid o.usage o.diagnostics.usageObjectCount
        rw [shownAsFailure_append (fun f hf => Or.inr (hdone f hf)),
          ih _ hfails (hcompleted.trans h), hid', hid]
        simp [RequestMode.endsFirst]
    | _ => exact ih _ hfails h

/-! ### All conversions -/

/-- The conversion into a response always sends `response.completed`. -/
theorem exists_completed (c : Codec) (backendModel publicModel : Option String) (emit : Bool)
    (chunks : List Bytes) :
    ∃ o ∈ ((SseStrategy.new .responsesViaChatCompletions backendModel publicModel emit).runAll c
      chunks).2, o.isSuccess = true := by
  obtain ⟨h, s, usage, after, -, heq, -⟩ :=
    responsesEvents_split c backendModel publicModel emit chunks
  have hmem : .completed (s.responseObject usage .completed s.finalOutput) ∈
      responsesEvents c backendModel publicModel emit chunks := by
    rw [heq]
    exact List.mem_append_right _ List.mem_cons_self
  obtain ⟨o, ho, hevent⟩ := List.mem_filterMap.mp hmem
  refine ⟨o, ho, ?_⟩
  cases o with
  | event e =>
    obtain rfl := Option.some.inj hevent
    rfl
  | _ => simp at hevent

/-- **When a failed upstream stream is shown as a failure**: for every converting mode and every
upstream stream with an error before any end of a completion, in any chunks, if and only if the
mode is not the conversion of chat completions into a response and no end marker came first (of an
Anthropic stream: none after a message was begun). -/
theorem failed_stream_iff (c : Codec) (mode : RequestMode) (hmode : mode.converts = true)
    (backendModel publicModel : Option String) (emit : Bool) (chunks : List Bytes)
    (hfails : mode.failsFirst (frames c chunks.flatten) = true) :
    ShownAsFailure ((SseStrategy.new mode backendModel publicModel emit).runAll c chunks).2 ↔
      mode ≠ .responsesViaChatCompletions ∧
        mode.endsFirst (mode = .chatCompletionsViaResponses) (frames c chunks.flatten) = false := by
  cases mode with
  | native => simp [RequestMode.converts] at hmode
  | anthropicMessagesNative => simp [RequestMode.converts] at hmode
  | responsesViaChatCompletions =>
    refine iff_of_false ?_ (by simp)
    rintro ⟨hsuccess, -⟩
    obtain ⟨o, ho, hcompleted⟩ := exists_completed c backendModel publicModel emit chunks
    rw [hsuccess o ho] at hcompleted
    exact absurd hcompleted (by decide)
  | chatCompletionsViaResponses =>
    rw [runAll_chat]
    refine (chatFrames_failed { backendModel, publicModel } hfails
      (s := { emitUsageToClient := emit }) rfl rfl).trans ?_
    simp
  | chatCompletionsViaMessages =>
    rw [runAll_messages]
    refine (messagesFrames_failed backendModel publicModel { backendModel, publicModel } hfails
      (s := { emitUsageToClient := emit }) rfl).trans ?_
    simp

/-- An error event of an Anthropic stream is shown. -/
theorem failed_stream_overloaded :
    let b := sseData reference (.obj [("type", .string "error"), ("error", .obj
      [("message", .string "Overloaded")])])
    RequestMode.chatCompletionsViaMessages.failsFirst (frames reference [b].flatten) = true ∧
      (ShownAsFailure ((SseStrategy.new .chatCompletionsViaMessages none none false).runAll
          reference [b]).2 ↔
        RequestMode.chatCompletionsViaMessages ≠ .responsesViaChatCompletions ∧
          RequestMode.chatCompletionsViaMessages.endsFirst false (frames reference [b].flatten) =
            false) :=
  ⟨by decide +kernel, failed_stream_iff reference .chatCompletionsViaMessages rfl none none false _
    (by decide +kernel)⟩

/-- An error of a chat completion stream is shown as a completed response. -/
theorem failed_stream_completed :
    let b := sseData reference (.obj [("error", .obj [("message", .string "Overloaded")])])
    RequestMode.responsesViaChatCompletions.failsFirst (frames reference [b].flatten) = true ∧
      ¬ShownAsFailure ((SseStrategy.new .responsesViaChatCompletions none none false).runAll
        reference [b]).2 := by
  refine ⟨by decide +kernel, ?_⟩
  rintro ⟨hsuccess, -⟩
  obtain ⟨o, ho, hcompleted⟩ := exists_completed reference none none false _
  rw [hsuccess o ho] at hcompleted
  exact absurd hcompleted (by decide)

end Onair
