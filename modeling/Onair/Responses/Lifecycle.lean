import Onair.Lib.Json.Reference
import Onair.Responses.Steps

/-!
# The lifecycle of a Responses stream

`response.created`, `response.in_progress`, the events about items, `response.completed`, and
nothing more: the order the Responses API promises.

* `opensWithData`, `responsesMoves_open`, `responsesMoves_closed`: how the moves of a stream begin;
* `Move.QuietAt`, `step_eq_nil_iff`: when a move of a completed response emits nothing;
* `ResponsesLifecycle`, **`responses_lifecycle_iff`**: the order holds of exactly the streams that
  have a chunk before they end and are quiet once the response is completed.
-/

namespace Onair

open Json Text

/-! ### Events about items -/

namespace ResponsesStream

theorem isItem_step {s : ResponsesStream} (h : s.responseStarted = true) {m : Move}
    (hm : m.isFinish = false) :
    (s.step m).1.responseStarted = true ∧ (s.step m).1.completed = s.completed ∧
      ∀ e ∈ (s.step m).2, e.isItem = true := by
  cases m with
  | metadata chunk =>
    obtain ⟨_, _, _, _, heq, -⟩ := s.setChunkMetadata_spec chunk
    rw [step, heq]
    exact ⟨h, rfl, by simp⟩
  | start usage =>
    rw [step, startResponseEvents, if_pos h]
    exact ⟨h, rfl, by simp⟩
  | text text =>
    by_cases htext : text = ""
    · rw [step, processContent, if_pos htext]
      exact ⟨h, rfl, by simp⟩
    · rw [step, processContent_some htext]
      refine ⟨h, rfl, fun e he => ?_⟩
      rcases List.mem_append.mp he with he | he
      · exact (mem_textOpenEvents he).2.1
      · obtain rfl := List.mem_singleton.mp he
        rfl
  | tool toolCall =>
    obtain ⟨new, name, hstep, heq⟩ := s.processToolCallDelta_spec toolCall
    rw [step, heq]
    refine ⟨h, rfl, fun e he => ?_⟩
    obtain ⟨-, -, id, -, hcall⟩ := hstep.mem_out he
    cases e <;> simp_all [ResponsesEvent.openCall, ResponsesEvent.isItem]
  | finish usage => exact absurd hm (by simp [Move.isFinish])

theorem isItem_run {s : ResponsesStream} (h : s.responseStarted = true) {ms : List Move}
    (hms : ∀ m ∈ ms, m.isFinish = false) :
    (Mealy.run step s ms).1.responseStarted = true ∧
      (Mealy.run step s ms).1.completed = s.completed ∧
      ∀ e ∈ (Mealy.run step s ms).2, e.isItem = true := by
  have hrun := Mealy.run_forall
    (fun t : ResponsesStream => t.responseStarted = true ∧ t.completed = s.completed)
    (fun e : ResponsesEvent => e.isItem = true)
    (fun t m hm ht => by
      obtain ⟨h1, h2, h3⟩ := isItem_step ht.1 (hms m hm)
      exact ⟨⟨h1, h2.trans ht.2⟩, h3⟩) ⟨h, rfl⟩
  exact ⟨hrun.1.1, hrun.1.2, hrun.2⟩

theorem isItem_itemDoneEvents (s : ResponsesStream) :
    ∀ e ∈ s.itemDoneEvents, e.isItem = true := by
  intro e he
  rcases List.mem_append.mp he with he | he
  · unfold textDoneEvents at he
    split_ifs at he
    · simp only [List.mem_cons, List.not_mem_nil, or_false] at he
      rcases he with rfl | rfl | rfl <;> rfl
    · exact absurd he List.not_mem_nil
  · obtain ⟨entry, -, he⟩ := List.mem_flatMap.mp he
    rcases List.mem_pair.mp he with rfl | rfl <;> rfl

end ResponsesStream

/-! ### Quiet moves -/

/-- The move is quiet: it has no text and no arguments, and names no tool call that is not yet
announced. -/
def Move.QuietAt (s : ResponsesStream) : Move → Prop
  | .text t => t = ""
  | .tool toolCall => ResponsesStream.toolArguments toolCall = "" ∧
      ((ResponsesStream.toolName toolCall).isSome = true → (s.toolBefore toolCall).added = true)
  | _ => True

namespace ResponsesStream

theorem processToolCallDelta_eq_nil_iff {s : ResponsesStream} (h : s.NamedAdded)
    (toolCall : Value) :
    (s.processToolCallDelta toolCall).2 = [] ↔ (Move.tool toolCall).QuietAt s := by
  obtain ⟨new, name, hstep, heq⟩ := s.processToolCallDelta_spec toolCall
  have hadded := (processToolCallDelta_named h toolCall).2 new heq
  have hann : announcement (s.toolIndex toolCall) (s.toolBefore toolCall) new name = [] ↔
      ((toolName toolCall).isSome = true → (s.toolBefore toolCall).added = true) := by
    unfold announcement
    rw [hadded]
    cases (s.toolBefore toolCall).added <;> cases (toolName toolCall).isSome <;> simp
  have hargs : argumentsEvent (s.toolIndex toolCall) new (toolArguments toolCall) = [] ↔
      toolArguments toolCall = "" := by
    unfold argumentsEvent
    split_ifs with hf <;> simp [hf]
  rw [hstep.out_eq, List.append_eq_nil_iff, hann, hargs, Move.QuietAt, and_comm]

/-- **A move of a completed response is silent if and only if it is quiet.** -/
theorem step_eq_nil_iff {s : ResponsesStream} (hstarted : s.responseStarted = true)
    (hcompleted : s.completed = true) (hnamed : s.NamedAdded) (m : Move) :
    (s.step m).2 = [] ↔ m.QuietAt s := by
  cases m with
  | metadata chunk => simp [step, Move.QuietAt]
  | start usage => simp [step, startResponseEvents, hstarted, Move.QuietAt]
  | text text =>
    by_cases htext : text = ""
    · simp [step, processContent, htext, Move.QuietAt]
    · simp [step, processContent_some htext, htext, Move.QuietAt]
  | tool toolCall => exact processToolCallDelta_eq_nil_iff hnamed toolCall
  | finish usage => simp [step, finishResponse, hcompleted, Move.QuietAt]

theorem responseStarted_step {s : ResponsesStream} (h : s.responseStarted = true) (m : Move) :
    (s.step m).1.responseStarted = true := by
  cases hm : m.isFinish with
  | false => exact (isItem_step h hm).1
  | true =>
    cases m with
    | finish usage =>
      rw [step, finishResponse]
      split_ifs <;> exact h
    | _ => simp [Move.isFinish] at hm

theorem run_eq_nil_iff_quiet {s : ResponsesStream} (hstarted : s.responseStarted = true)
    (hcompleted : s.completed = true) (hnamed : s.NamedAdded) (ms : List Move) :
    (Mealy.run step s ms).2 = [] ↔
      Mealy.Along step (fun s m => s.completed = true → m.QuietAt s) s ms := by
  rw [Mealy.run_eq_nil_iff]
  refine Mealy.along_congr (fun s => s.responseStarted = true ∧ s.completed = true ∧ s.NamedAdded)
    ms ?_ ?_ ⟨hstarted, hcompleted, hnamed⟩
  · rintro s m - ⟨h1, h2, h3⟩
    exact ⟨responseStarted_step h1 m, (step_completed h2 m).1, namedAdded_step h3 m⟩
  · rintro s m - ⟨h1, h2, h3⟩
    rw [step_eq_nil_iff h1 h2 h3]
    simp [h2]

end ResponsesStream

/-! ### How a stream begins -/

/-- The first chunk of the stream comes before its end marker. -/
def opensWithData : List SseFrame → Bool
  | [] => false
  | .data _ _ _ :: _ => true
  | .done _ :: _ => false
  | _ :: fs => opensWithData fs

/-- The moves of a stream that opens with a chunk open the response. -/
theorem streamMoves_open {fs : List SseFrame} (h : opensWithData fs = true) (o : SseObserver) :
    ∃ chunk usage rest, streamMoves o fs = .metadata chunk :: .start usage :: rest := by
  induction fs generalizing o with
  | nil => exact absurd h (by simp [opensWithData])
  | cons f fs ih =>
    cases f with
    | data value leadingSpace line => exact ⟨_, _, _, rfl⟩
    | done line => exact absurd h (by simp [opensWithData])
    | _ => exact ih h _

/-- The first move of any other stream completes the response. -/
theorem streamMoves_closed {fs : List SseFrame} (h : opensWithData fs = false) (o : SseObserver)
    (u : UsageTotals) :
    ∃ usage rest, streamMoves o fs ++ [.finish u] = .finish usage :: rest := by
  induction fs generalizing o with
  | nil => exact ⟨u, [], rfl⟩
  | cons f fs ih =>
    cases f with
    | data value leadingSpace line => exact absurd h (by simp [opensWithData])
    | done line => exact ⟨_, _, rfl⟩
    | _ => exact ih h _

/-! ### The lifecycle of the events -/

/-- The lifecycle of a list of events: one `response.created`, one `response.in_progress`, events
about items, and one `response.completed` at the end. -/
def EventLifecycle (es : List ResponsesEvent) : Prop :=
  ∃ r r' items response, es = .created r :: .inProgress r' :: items ++ [.completed response] ∧
    ∀ e ∈ items, e.isItem = true

theorem EventLifecycle.eq_nil_of_completed {before after : List ResponsesEvent}
    {response : ResponseObject} (h : EventLifecycle (before ++ .completed response :: after)) :
    after = [] := by
  obtain ⟨r, r', items, response', heq, hitems⟩ := h
  by_contra hne
  -- All but the last event of a lifecycle differ from `response.completed`.
  have hlast : (before ++ .completed response :: after).dropLast =
      .created r :: .inProgress r' :: items := by
    rw [heq]
    exact List.dropLast_concat
  have hmem : .completed response ∈ (before ++ .completed response :: after).dropLast := by
    rw [List.dropLast_append_of_ne_nil (by simp), List.dropLast_cons_of_ne_nil hne]
    simp
  rw [hlast] at hmem
  simp only [List.mem_cons, reduceCtorEq, false_or] at hmem
  exact absurd (hitems _ hmem) (by simp [ResponsesEvent.isItem])

/-- The moves of a stream are quiet once the response is completed. -/
def QuietOnceCompleted (ms : List Move) : Prop :=
  Mealy.Along ResponsesStream.step (fun s m => s.completed = true → m.QuietAt s) {} ms

theorem along_quiet_of_open {s : ResponsesStream} (hstarted : s.responseStarted = true)
    (hopen : s.completed = false) {ms : List Move} (hms : ∀ m ∈ ms, m.isFinish = false) :
    Mealy.Along ResponsesStream.step (fun s m => s.completed = true → m.QuietAt s) s ms := by
  induction ms generalizing s with
  | nil => trivial
  | cons m ms ih =>
    obtain ⟨h1, h2, -⟩ := ResponsesStream.isItem_step hstarted (hms m List.mem_cons_self)
    refine ⟨fun hc => ?_, ih h1 (h2.trans hopen) fun m hm => hms m (List.mem_cons_of_mem _ hm)⟩
    rw [hopen] at hc
    exact absurd hc (by decide)

/-- A response that is opened first has the lifecycle if and only if it is quiet at the end. -/
theorem eventLifecycle_open_iff (chunk : Value) (usage : UsageTotals) {rest : List Move}
    (hrest : ∃ m ∈ rest, m.isFinish = true) :
    EventLifecycle
        (Mealy.run ResponsesStream.step {} (.metadata chunk :: .start usage :: rest)).2 ↔
      QuietOnceCompleted (.metadata chunk :: .start usage :: rest) := by
  obtain ⟨before, usage', after, rfl, hbefore⟩ := exists_first_finish hrest
  obtain ⟨responseId, messageId, createdAt, model, hmeta, -, -⟩ :=
    ResponsesStream.setChunkMetadata_spec {} chunk
  -- The state after the first two moves, and after those before the completion.
  generalize hs : (ResponsesStream.setChunkMetadata {} chunk).step (.start usage) = r
  have hr : r.1.responseStarted = true ∧ r.1.completed = false ∧
      (∃ response, r.2 = [.created response, .inProgress response]) ∧ r.1.NamedAdded := by
    rw [← hs, hmeta]
    exact ⟨rfl, rfl, ⟨_, rfl⟩, ResponsesStream.namedAdded_step (fun i hi => absurd hi (by simp)) _⟩
  obtain ⟨hstarted, hcompleted, ⟨response, hout⟩, hnamed⟩ := hr
  obtain ⟨hstarted', hcompleted', hitems⟩ := ResponsesStream.isItem_run hstarted hbefore
  have hnamed' := Mealy.run_inv ResponsesStream.NamedAdded
    (fun s m h => ResponsesStream.namedAdded_step h m) hnamed before
  generalize ht : Mealy.run ResponsesStream.step r.1 before = t at *
  have hfinish := ResponsesStream.finishResponse_open usage' (hcompleted'.trans hcompleted)
  have hquiet := ResponsesStream.run_eq_nil_iff_quiet (s := { t.1 with completed := true })
    hstarted' rfl hnamed' after
  have hrun : (Mealy.run ResponsesStream.step {}
      (.metadata chunk :: .start usage :: (before ++ .finish usage' :: after))).2 =
      (r.2 ++ t.2 ++ t.1.itemDoneEvents) ++
        .completed (t.1.responseObject usage' .completed t.1.finalOutput) ::
          (Mealy.run ResponsesStream.step { t.1 with completed := true } after).2 := by
    rw [Mealy.run_cons, Mealy.run_cons, Mealy.run_append, Mealy.run_cons]
    simp only [ResponsesStream.step] at hs ⊢
    rw [hs, ht, hfinish]
    simp only [List.append_assoc, List.cons_append, List.nil_append]
  have halong : QuietOnceCompleted
      (.metadata chunk :: .start usage :: (before ++ .finish usage' :: after)) ↔
      Mealy.Along ResponsesStream.step (fun s m => s.completed = true → m.QuietAt s)
        { t.1 with completed := true } after := by
    rw [QuietOnceCompleted, Mealy.Along, Mealy.Along, Mealy.along_append, Mealy.Along]
    simp only [ResponsesStream.step] at hs ⊢
    rw [hs, ht, hfinish]
    simp only [Move.QuietAt, implies_true, true_and]
    exact and_iff_right (along_quiet_of_open hstarted hcompleted hbefore)
  rw [hrun, halong, ← hquiet]
  constructor
  · exact EventLifecycle.eq_nil_of_completed
  · intro hafter
    refine ⟨response, response, t.2 ++ t.1.itemDoneEvents, _, by rw [hafter, hout]; simp; rfl, ?_⟩
    intro e he
    rcases List.mem_append.mp he with he | he
    · exact hitems e he
    · exact ResponsesStream.isItem_itemDoneEvents _ e he

/-! ### The lifecycle of the output -/

/-- The frame is an `event:` line or a `data:` line that is not JSON. -/
def SseFrame.isForeign : SseFrame → Bool
  | .event _ _ | .dataUnparseable _ => true
  | _ => false

/-- The frame is an end marker, or a line without an event name or data. -/
def SseFrame.isTrailer : SseFrame → Bool
  | .done _ | .passThrough _ => true
  | _ => false

/-- The lifecycle of an output: its events have theirs, and only trailers of the upstream stream
follow `response.completed`. -/
def ResponsesLifecycle (fs : List SseFrame) (out : List SseOut) : Prop :=
  EventLifecycle (events out) ∧
    ∀ before response after, out = before ++ .event (.completed response) :: after →
      ∀ o ∈ after, ∃ f ∈ fs, o = .line f.line ∧ f.isTrailer = true

namespace ResponsesSseNormalizer

theorem mem_handleFrame (n : ResponsesSseNormalizer) {f : SseFrame} (hf : f.isForeign = false)
    {o : SseOut} (ho : o ∈ (n.handleFrame f).2) :
    (∃ e, o = .event e) ∨ o = .line f.line ∧ f.isTrailer = true := by
  cases f with
  | event name line => exact absurd hf (by simp [SseFrame.isForeign])
  | data value leadingSpace line =>
    obtain ⟨e, -, rfl⟩ := List.mem_map.mp ho
    exact Or.inl ⟨e, rfl⟩
  | dataUnparseable line => exact absurd hf (by simp [SseFrame.isForeign])
  | done line =>
    rcases List.mem_append.mp ho with ho | ho
    · obtain ⟨e, -, rfl⟩ := List.mem_map.mp ho
      exact Or.inl ⟨e, rfl⟩
    · exact Or.inr ⟨List.mem_singleton.mp ho, rfl⟩
  | passThrough line => exact Or.inr ⟨List.mem_singleton.mp ho, rfl⟩

theorem mem_run_handleFrame (n : ResponsesSseNormalizer) {fs : List SseFrame}
    (hfs : ∀ f ∈ fs, f.isForeign = false) :
    ∀ o ∈ (Mealy.run handleFrame n fs).2,
      (∃ e, o = .event e) ∨ ∃ f ∈ fs, o = .line f.line ∧ f.isTrailer = true :=
  (Mealy.run_forall (fun _ => True) _
    (fun m f hf _ => ⟨trivial, fun o ho => by
      rcases mem_handleFrame m (hfs f hf) ho with he | hl
      · exact Or.inl he
      · exact Or.inr ⟨f, hf, hl⟩⟩) trivial).2

end ResponsesSseNormalizer

/-- **When a Responses stream has its lifecycle**: for every upstream stream without `event:` lines
and without unparseable data, in any chunks, if and only if the first chunk comes before the end
marker and every move of the completed response is quiet. -/
theorem responses_lifecycle_iff (c : Codec) (backendModel publicModel : Option String)
    (emit : Bool) (chunks : List Bytes)
    (hframes : ∀ f ∈ frames c chunks.flatten, f.isForeign = false) :
    ResponsesLifecycle (frames c chunks.flatten)
        ((SseStrategy.new .responsesViaChatCompletions backendModel publicModel emit).runAll c
          chunks).2 ↔
      opensWithData (frames c chunks.flatten) = true ∧
        QuietOnceCompleted (responsesMoves c backendModel publicModel chunks.flatten) := by
  have hevents : EventLifecycle (responsesEvents c backendModel publicModel emit chunks) ↔
      opensWithData (frames c chunks.flatten) = true ∧
        QuietOnceCompleted (responsesMoves c backendModel publicModel chunks.flatten) := by
    rw [responsesEvents_eq, responsesMoves]
    cases hopen : opensWithData (frames c chunks.flatten) with
    | true =>
      obtain ⟨chunk, usage, rest, heq⟩ := streamMoves_open hopen { backendModel, publicModel }
      rw [heq, List.cons_append, List.cons_append, eventLifecycle_open_iff chunk usage
        ⟨_, List.mem_append_right _ List.mem_cons_self, rfl⟩]
      exact (and_iff_right rfl).symm
    | false =>
      obtain ⟨usage, rest, heq⟩ := streamMoves_closed hopen { backendModel, publicModel }
        (({ backendModel, publicModel } : SseObserver).observeAll (frames c chunks.flatten)).usage
      rw [heq]
      refine iff_of_false ?_ (by simp)
      rintro ⟨r, r', items, response, hes, -⟩
      rw [Mealy.run_cons] at hes
      cases (List.cons.inj hes).1
  rw [← hevents, ResponsesLifecycle]
  refine and_iff_left_of_imp fun hlife => ?_
  intro before response after hout o ho
  rw [hout, events_append, events_event] at hlife
  have hafter := hlife.eq_nil_of_completed
  have hmem : o ∈ ((SseStrategy.new .responsesViaChatCompletions backendModel publicModel
      emit).runAll c chunks).2 := by
    rw [hout]
    simp [ho]
  have hcases : (∃ e, o = .event e) ∨
      ∃ f ∈ frames c chunks.flatten, o = .line f.line ∧ f.isTrailer = true := by
    rw [SseStrategy.runAll_eq] at hmem
    rcases List.mem_append.mp hmem with hmem | hmem
    · exact ResponsesSseNormalizer.mem_run_handleFrame _ hframes o hmem
    · obtain ⟨e, -, rfl⟩ := List.mem_map.mp hmem
      exact Or.inl ⟨e, rfl⟩
  rcases hcases with ⟨e, rfl⟩ | hline
  · -- An event after the completion would be one of the events after it.
    have : e ∈ events after := List.mem_filterMap.mpr ⟨_, ho, rfl⟩
    rw [hafter] at this
    exact absurd this List.not_mem_nil
  · exact hline

/-- A stream of two chunks and the end marker, as a backend sends it. -/
theorem responses_lifecycle_iff_hello :
    let chunks := [sseData reference (.obj [("id", .string "c1"), ("choices", .array [.obj
        [("delta", .obj [("content", .string "Hello")])]])]),
      sseData reference (.obj [("id", .string "c1"), ("choices", .array [.obj
        [("finish_reason", .string "stop")]])]),
      asBytes "data: [DONE]\n\n"]
    (∀ f ∈ frames reference chunks.flatten, f.isForeign = false) ∧
      (ResponsesLifecycle (frames reference chunks.flatten)
          ((SseStrategy.new .responsesViaChatCompletions none none false).runAll reference
            chunks).2 ↔
        opensWithData (frames reference chunks.flatten) = true ∧
          QuietOnceCompleted (responsesMoves reference none none chunks.flatten)) :=
  ⟨by decide +kernel, responses_lifecycle_iff reference none none false _ (by decide +kernel)⟩

/-- A stream of only the end marker is completed without ever being created. -/
theorem responses_lifecycle_only_done :
    let chunks := [asBytes "data: [DONE]\n\n"]
    (∀ f ∈ frames reference chunks.flatten, f.isForeign = false) ∧
      ¬ResponsesLifecycle (frames reference chunks.flatten)
        ((SseStrategy.new .responsesViaChatCompletions none none false).runAll reference
          chunks).2 := by
  refine ⟨by decide +kernel, ?_⟩
  rintro ⟨⟨r, r', items, response, hes, -⟩, -⟩
  have hfirst : (events ((SseStrategy.new .responsesViaChatCompletions none none false).runAll
      reference [asBytes "data: [DONE]\n\n"]).2).head?.map ResponsesEvent.eventType =
      some "response.completed" := by decide +kernel
  rw [hes] at hfirst
  simp [ResponsesEvent.eventType] at hfirst

end Onair
