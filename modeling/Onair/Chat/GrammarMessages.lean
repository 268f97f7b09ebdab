import Onair.Chat.Grammar

/-!
# How a chat stream made from Anthropic events ends

* `MessagesStream.QuietEvent`, `deltaStep_eq_nil_iff`: the events that send no delta;
* `EndsWell`: the signals that keep to the grammar, in the state they come in;
* `messages_grammar_iff`: **a stream of Anthropic events has the grammar if and only if all its
  signals do**.
-/

namespace Onair

open Json Text

namespace MessagesStream

/-! ### Quiet events -/

/-- The block opens no tool call, or one that is announced or has no name. -/
def QuietBlock (s : MessagesStream) (event : Value) : Prop :=
  ∀ block, (event.get "content_block").bind Value.asObject = some block →
    (OrdMap.get "type" block).bind Value.asStr = some "tool_use" →
    ((OrdMap.get "name" block).bind Value.asStr).isSome = true →
      (callAt s.toolCalls (s.eventIndex event)).announced = true

/-- The text or the input of a delta is empty. -/
def QuietDelta (event : Value) : Prop :=
  match (event.get "delta").bind Value.asObject with
  | some delta =>
    match (OrdMap.get "type" delta).bind Value.asStr with
    | some "text_delta" => ((OrdMap.get "text" delta).bind Value.asStr).getD "" = ""
    | some "input_json_delta" =>
      ((OrdMap.get "partial_json" delta).bind Value.asStr).getD "" = ""
    | _ => True
  | none => True

/-- The event sends no delta. -/
def QuietEvent (s : MessagesStream) (event : Value) : Prop :=
  match messagesKind event with
  | .blockStart => s.QuietBlock event
  | .blockDelta => QuietDelta event
  | _ => True

theorem processContentBlockStart_eq_nil_iff (s : MessagesStream) (event : Value) :
    (s.processContentBlockStart event).2 = [] ↔ s.QuietBlock event := by
  unfold processContentBlockStart QuietBlock
  cases (event.get "content_block").bind Value.asObject with
  | none => simp
  | some block =>
    simp only [Option.some.injEq, forall_eq']
    split <;> rename_i htype
    · rw [announceToolCallIfReady_eq, store, storeCall_eq_nil_iff]
      simp only [htype, and_true, forall_const]
      rfl
    · simpa using fun h => absurd h htype

theorem processContentBlockDelta_eq_nil_iff (s : MessagesStream) (event : Value) :
    (s.processContentBlockDelta event).2 = [] ↔ QuietDelta event := by
  unfold processContentBlockDelta
  cases hdelta : (event.get "delta").bind Value.asObject with
  | none => simp [QuietDelta, hdelta]
  | some delta =>
    dsimp only
    split <;> rename_i htype
    · simp only [QuietDelta, hdelta, htype]
      split_ifs with h <;> simp [h]
    · simp only [QuietDelta, hdelta, htype]
      split_ifs with h <;> simp [h]
    · simp only [QuietDelta, hdelta]

theorem setMetadata_spec (backendModel publicModel : Option String) (s : MessagesStream)
    (event : Value) : ∃ messageId model,
      s.setMetadata backendModel publicModel event = { s with messageId, model } := by
  unfold setMetadata
  cases event.get "message" <;> dsimp only <;> split <;>
    first | exact ⟨_, _, rfl⟩ | (split_ifs <;> exact ⟨_, _, rfl⟩)

/-- **An event sends no delta if and only if it is quiet.** -/
theorem deltaStep_eq_nil_iff (backendModel publicModel : Option String) (s : MessagesStream)
    (event : Value) :
    (s.deltaStep backendModel publicModel event).2 = [] ↔ s.QuietEvent event := by
  obtain ⟨messageId, model, hmeta⟩ := s.setMetadata_spec backendModel publicModel event
  unfold deltaStep QuietEvent
  rw [hmeta]
  cases messagesKind event with
  | blockStart => exact processContentBlockStart_eq_nil_iff { s with messageId, model } event
  | blockDelta => exact processContentBlockDelta_eq_nil_iff { s with messageId, model } event
  | _ => simp

/-! ### Ends of the stream -/

/-- The finish reason of a stream that ends. -/
def finishReasonOf (s : MessagesStream) : FinishReason :=
  s.finishReason.getD (if s.toolCalls.isEmpty then .stop else .toolCalls)

theorem finishResponse_completed {s : MessagesStream} (h : s.completed = true)
    (usage : UsageTotals) (count : ℕ) : s.finishResponse usage count = (s, []) := by
  rw [finishResponse, if_pos h]

theorem finishResponse_open {s : MessagesStream} (h : s.completed = false)
    (hdone : s.doneSent = false) (usage : UsageTotals) (count : ℕ) :
    ∃ head counts, (s.finishResponse usage count).2 =
        .chunk head .empty (some s.finishReasonOf) s.emitUsageToClient :: counts ++ [.done] ∧
      (counts = [] ∨ ∃ u, counts = [.usage head u]) ∧
      (s.finishResponse usage count).1.core =
        { s.core with completed := true, doneSent := true } := by
  rw [finishResponse, if_neg (by rw [h]; decide)]
  simp only [doneEvent, hdone]
  refine ⟨_, _, rfl, ?_, rfl⟩
  split_ifs
  · exact Or.inr ⟨_, rfl⟩
  · exact Or.inl rfl

theorem errorFrame_open {s : MessagesStream} (hdone : s.doneSent = false) (event : Value) :
    ∃ message, (s.errorFrame event).2 = [.error message, .done] ∧
      (s.errorFrame event).1.core = { s.core with completed := true, doneSent := true } := by
  simp only [errorFrame, doneEvent, hdone]
  exact ⟨_, rfl, rfl⟩

/-- The signal keeps to the grammar: once the stream has ended it is quiet and no error, and before
that the stream does not end without a message. -/
def EndsWell (s : MessagesStream) : MessagesSignal → Prop
  | .event _ _ event =>
    s.completed = true → s.QuietEvent event ∧ messagesKind event ≠ .failed
  | .stop _ _ => s.completed = false → s.messageId.isSome = true

/-- The stream has sent deltas only, or it is finished. -/
def At (s : MessagesStream) (h : List ChatFrame) : Prop :=
  s.doneSent = s.completed ∧ Progress h s.completed s.doneSent

theorem finishResponse_at {s : MessagesStream} {h : List ChatFrame} (hs : s.At h)
    (usage : UsageTotals) (count : ℕ) :
    (s.finishResponse usage count).1.At (h ++ (s.finishResponse usage count).2) ∧
      (s.finishResponse usage count).1.completed = true := by
  obtain ⟨hflag, hp⟩ := hs
  cases hcompleted : s.completed with
  | true =>
    rw [finishResponse_completed hcompleted]
    exact ⟨⟨hflag, by simpa using hp⟩, hcompleted⟩
  | false =>
    have hdone : s.doneSent = false := hflag.trans hcompleted
    obtain ⟨head, counts, hout, hcounts, hcore⟩ :=
      finishResponse_open hcompleted hdone usage count
    have hflags : (s.finishResponse usage count).1.completed = true ∧
        (s.finishResponse usage count).1.doneSent = true :=
      ⟨congrArg ChatCore.completed hcore, congrArg ChatCore.doneSent hcore⟩
    have hterminal : IsTerminal
        (.chunk head .empty (some s.finishReasonOf) s.emitUsageToClient :: counts) := by
      obtain rfl | ⟨u, rfl⟩ := hcounts
      · exact .chunk _ _ _ _
      · exact .usage _ _ _ _ _ _
    rw [hcompleted, hdone] at hp
    simp only [At, hflags, hout, true_and, and_true]
    have := (hp.terminal hterminal).done
    rwa [List.append_assoc] at this

theorem finishStream_at {s : MessagesStream} {h : List ChatFrame} (hs : s.At h)
    (hend : s.completed = false → s.messageId.isSome = true) (usage : UsageTotals) (count : ℕ) :
    (s.finishStream usage count).1.At (h ++ (s.finishStream usage count).2) ∧
      (s.finishStream usage count).1.completed = true := by
  have hdone : ∀ t : MessagesStream, t.doneSent = true → t.doneEvent = (t, []) := by
    intro t ht
    rw [doneEvent, if_pos ht]
  cases hid : s.messageId.isSome with
  | true =>
    obtain ⟨hat, hcompleted⟩ := finishResponse_at hs usage count
    have hsent := hat.1.trans hcompleted
    simp only [finishStream, hid, if_true, hdone _ hsent, List.append_nil]
    exact ⟨hat, hcompleted⟩
  | false =>
    have hcompleted : s.completed = true := by
      by_contra h
      rw [hend (by simpa using h)] at hid
      exact absurd hid (by decide)
    simp only [finishStream, hid, Bool.false_eq_true, if_false,
      hdone _ (hs.1.trans hcompleted), List.append_nil]
    exact ⟨hs, hcompleted⟩

/-- **One signal that ends well takes the stream on in the grammar.** -/
theorem signal_at (backendModel publicModel : Option String) {s : MessagesStream}
    {h : List ChatFrame} (hs : s.At h) (sig : MessagesSignal) (hwell : s.EndsWell sig) :
    (s.signal backendModel publicModel sig).1.At
      (h ++ (s.signal backendModel publicModel sig).2) := by
  cases sig with
  | stop usage count => exact (finishStream_at hs hwell usage count).1
  | event usage count event =>
    have hspec := s.deltaStep_spec backendModel publicModel event
    have hflags : (s.deltaStep backendModel publicModel event).1.completed = s.completed ∧
        (s.deltaStep backendModel publicModel event).1.doneSent = s.doneSent :=
      ⟨hspec.completed_eq, hspec.doneSent_eq⟩
    have hdelta : (s.deltaStep backendModel publicModel event).1.At
        (h ++ (s.deltaStep backendModel publicModel event).2) := by
      rw [At, hflags.1, hflags.2]
      refine ⟨hs.1, ?_⟩
      have hp := hs.2
      cases hcompleted : s.completed with
      | true =>
        rw [(s.deltaStep_eq_nil_iff backendModel publicModel event).mpr (hwell hcompleted).1,
          List.append_nil]
        rwa [hcompleted] at hp
      | false =>
        rw [hcompleted] at hp
        exact hp.deltas hspec.deltas
    rw [signal, processEvent_eq, ← List.append_assoc]
    unfold closeStep
    cases hkind : messagesKind event with
    | stop => exact (finishResponse_at hdelta usage count).1
    | failed =>
      have hcompleted : s.completed = false := by
        by_contra h
        exact (hwell (by simpa using h)).2 hkind
      have hdone := hflags.2.trans (hs.1.trans hcompleted)
      obtain ⟨message, hout, hcore⟩ := errorFrame_open hdone event
      have hend : ∀ t : MessagesStream,
          t.core = { (s.deltaStep backendModel publicModel event).1.core with
            completed := true, doneSent := true } → t.completed = true ∧ t.doneSent = true :=
        fun t ht => ⟨congrArg ChatCore.completed ht, congrArg ChatCore.doneSent ht⟩
      have hp := hdelta.2
      rw [hflags.1, hcompleted, hdone] at hp
      simp only [At, hend _ hcore, hout, true_and]
      have := (hp.terminal (.error message)).done
      rwa [List.append_assoc] at this
    | _ => simpa using hdelta

end MessagesStream

/-! ### Whole streams -/

/-- Every signal of a stream keeps to the grammar. -/
def AllEndWell (o : SseObserver) (emit : Bool) (sigs : List MessagesSignal) : Prop :=
  Mealy.Along (MessagesStream.signal o.backendModel o.publicModel) MessagesStream.EndsWell
    { emitUsageToClient := emit } sigs

/-- The last signal of a stream is its end. -/
theorem messagesSignals_stop (o : SseObserver) (fs : List SseFrame) :
    ∃ sigs usage count, messagesSignals o fs = sigs ++ [.stop usage count] := by
  induction fs generalizing o with
  | nil => exact ⟨[], _, _, rfl⟩
  | cons f fs ih =>
    obtain ⟨sigs, usage, count, heq⟩ := ih (o.observeMessages f)
    refine ⟨messagesFrameSignals o f ++ sigs, usage, count, ?_⟩
    rw [messagesSignals, heq, List.append_assoc]

/-- What a signal that does not end well sends, after what the stream has sent, leaves the
grammar. -/
theorem not_grammar_of_not_endsWell (backendModel publicModel : Option String)
    {s : MessagesStream} {h : List ChatFrame} (hs : s.At h) {sig : MessagesSignal}
    (hnot : ¬s.EndsWell sig) (rest : List ChatFrame) :
    ¬ChatGrammar (h ++ ((s.signal backendModel publicModel sig).2 ++ rest)) := by
  intro hgrammar
  have hp := hs.2
  cases sig with
  | event usage count event =>
    simp only [MessagesStream.EndsWell, Classical.not_imp, not_and_or, not_not] at hnot
    obtain ⟨hcompleted, hnot⟩ := hnot
    -- The end marker was sent, and the event sends something.
    rw [hcompleted, hs.1.trans hcompleted] at hp
    obtain ⟨deltas, terminal, rfl, -, -⟩ := hp.grammar
    rw [List.append_assoc, List.singleton_append] at hgrammar
    have hnil := hgrammar.done_last rfl
    rw [MessagesStream.signal, MessagesStream.processEvent_eq] at hnil
    simp only [List.append_eq_nil_iff] at hnil
    rcases hnot with hquiet | hfailed
    · exact hquiet ((s.deltaStep_eq_nil_iff backendModel publicModel event).mp hnil.1.1)
    · have := hnil.1.2
      rw [MessagesStream.closeStep, hfailed] at this
      simp [MessagesStream.errorFrame] at this
  | stop usage count =>
    simp only [MessagesStream.EndsWell, Classical.not_imp, Bool.not_eq_true] at hnot
    obtain ⟨hcompleted, hid⟩ := hnot
    have hdone : s.doneSent = false := hs.1.trans hcompleted
    have hout : (s.signal backendModel publicModel (.stop usage count)).2 = [.done] := by
      simp [MessagesStream.signal, MessagesStream.finishStream, hid, MessagesStream.doneEvent,
        hdone]
    rw [hout, List.singleton_append] at hgrammar
    obtain rfl := hgrammar.done_last rfl
    obtain ⟨f, hf, hdelta, hne⟩ := hgrammar.terminal_mem
    rcases List.mem_append.mp hf with hf | hf
    · rw [hcompleted, hdone] at hp
      cases hp with
      | sending hdeltas =>
        rw [hdeltas f hf] at hdelta
        exact absurd hdelta (by decide)
    · exact hne (List.mem_singleton.mp hf)

/-- **When a chat stream made from Anthropic events has the grammar**: for every upstream stream in
any chunks, if and only if every signal ends well in the state it comes in. -/
theorem messages_grammar_iff (c : Codec) (backendModel publicModel : Option String) (emit : Bool)
    (chunks : List Bytes) :
    SentFrames ChatGrammar
        ((SseStrategy.new .chatCompletionsViaMessages backendModel publicModel emit).runAll c
          chunks).2 ↔
      AllEndWell { backendModel, publicModel } emit
        (messagesSignals { backendModel, publicModel } (frames c chunks.flatten)) := by
  rw [runAll_messages, sentFrames_map, messagesFrames]
  obtain ⟨sigs, usage, count, heq⟩ :=
    messagesSignals_stop { backendModel, publicModel } (frames c chunks.flatten)
  let step := MessagesStream.signal backendModel publicModel
  let start : MessagesStream := { emitUsageToClient := emit }
  have hinv : ∀ sigs, Mealy.Along step MessagesStream.EndsWell start sigs →
      (Mealy.run step start sigs).1.At (Mealy.run step start sigs).2 := by
    intro sigs hsigs
    have := Mealy.run_hist_along (fun h s => s.At h)
      (fun h s sig hwell hs => MessagesStream.signal_at backendModel publicModel hs sig hwell)
      (h := []) hsigs ⟨rfl, .sending (by simp)⟩
    simpa using this
  constructor
  · intro hgrammar
    by_contra hnot
    have hfirst : ¬Mealy.Along step (fun s sig => ¬¬s.EndsWell sig) start
        (messagesSignals { backendModel, publicModel } (frames c chunks.flatten)) := by
      simpa only [AllEndWell, not_not] using hnot
    obtain ⟨pre, sig, post, hsplit, hpre, hsig⟩ := Mealy.exists_first_of_not_along hfirst
    have hat := hinv pre (by simpa only [not_not] using hpre)
    rw [hsplit, Mealy.run_append, Mealy.run_cons] at hgrammar
    exact not_grammar_of_not_endsWell backendModel publicModel hat hsig _ hgrammar
  · intro hwell
    have hat := hinv _ hwell
    rw [heq] at hat ⊢
    rw [AllEndWell, heq, Mealy.along_append] at hwell
    obtain ⟨hsigs, hstop, -⟩ := hwell
    have hfinish := MessagesStream.finishStream_at (hinv sigs hsigs) hstop usage count
    rw [Mealy.run_append, Mealy.run_singleton] at hat ⊢
    have hp := hfinish.1.2
    rw [hfinish.1.1, hfinish.2] at hp
    exact hp.grammar

/-- A stream that is cut off before any message sends text and the end marker only. -/
theorem messages_grammar_no_message :
    let event : Value := .obj [("type", .string "content_block_delta"), ("delta", .obj
      [("type", .string "text_delta"), ("text", .string "x")])]
    ((frames reference (sseData reference event)).any fun
        | .data value _ _ => messagesKind value = .blockDelta
        | _ => false) = true ∧
      ¬SentFrames ChatGrammar
        ((SseStrategy.new .chatCompletionsViaMessages none none false).runAll reference
          [sseData reference event]).2 := by
  intro event
  refine ⟨by decide +kernel, ?_⟩
  rw [runAll_messages, sentFrames_map]
  intro hgrammar
  have hkinds : (messagesFrames { backendModel := none, publicModel := none } false (frames
      reference [sseData reference event].flatten)).map (fun f => f.isDelta || f == .done) =
      [true, true] := by
    decide +kernel
  obtain ⟨f, hf, hdelta, hne⟩ := hgrammar.terminal_mem
  have hmem := List.mem_map_of_mem (f := fun f => ChatFrame.isDelta f || f == .done) hf
  rw [hkinds] at hmem
  simp [hdelta, hne] at hmem

end Onair
