import Onair.Responses.Steps

/-!
# The deltas of a Responses stream add up

* `OpenInv`, `OpenInv.run`: before completion, the state holds what the deltas so far add up to;
* `responsesEvents_split`: the one completion of a stream;
* `DeltasAddUp`, **`responses_deltas_add_up`**: the deltas sent before `response.completed` add up
  to what the closing events and the response say.
-/

namespace Onair

open Json

/-! ### Before completion -/

/-- What holds of the events so far and the state while the response is open: nothing is closed,
and the state holds the text and the arguments that the deltas add up to. -/
structure OpenInv (h : List ResponsesEvent) (s : ResponsesStream) : Prop where
  not_completed : s.completed = false
  not_done : ∀ e ∈ h, e.isDone = false
  text_eq : s.outputText = textOf h
  text_started : s.textStarted = true ↔ s.outputText ≠ ""
  sorted : OrdMap.Sorted s.toolCalls
  arguments_eq : ∀ i, ((OrdMap.get i s.toolCalls).getD {}).arguments = argumentsOf i h
  callId_eq : ∀ e ∈ h, ∀ i id, e.openCall = some (i, id) →
    ∃ call, OrdMap.get i s.toolCalls = some call ∧ call.callId = some id

theorem openInv_nil : OpenInv [] {} where
  not_completed := rfl
  not_done := by simp
  text_eq := rfl
  text_started := by simp
  sorted := List.Pairwise.nil
  arguments_eq := fun i => rfl
  callId_eq := by simp

namespace OpenInv

variable {h : List ResponsesEvent} {s : ResponsesStream}

/-- Events that say nothing about text or tool calls, and a state with the same items. -/
theorem of_silent (hs : OpenInv h s) {out : List ResponsesEvent} {s' : ResponsesStream}
    (hdone : ∀ e ∈ out, e.isDone = false) (htext : textOf out = "")
    (harguments : ∀ i, argumentsOf i out = "") (hopen : ∀ e ∈ out, e.openCall = none)
    (hcompleted : s'.completed = s.completed) (houtput : s'.outputText = s.outputText)
    (hstarted : s'.textStarted = s.textStarted) (htools : s'.toolCalls = s.toolCalls) :
    OpenInv (h ++ out) s' where
  not_completed := by rw [hcompleted, hs.not_completed]
  not_done := by
    intro e he
    rcases List.mem_append.mp he with he | he
    · exact hs.not_done e he
    · exact hdone e he
  text_eq := by rw [houtput, hs.text_eq, textOf_append, htext, String.append_empty]
  text_started := by rw [hstarted, houtput]; exact hs.text_started
  sorted := by rw [htools]; exact hs.sorted
  arguments_eq := fun i => by
    rw [htools, hs.arguments_eq, argumentsOf_append, harguments, String.append_empty]
  callId_eq := by
    intro e he i id hcall
    rw [htools]
    rcases List.mem_append.mp he with he | he
    · exact hs.callId_eq e he i id hcall
    · rw [hopen e he] at hcall
      exact absurd hcall (by simp)

theorem setChunkMetadata (hs : OpenInv h s) (chunk : Value) :
    OpenInv h (s.setChunkMetadata chunk) := by
  obtain ⟨responseId, messageId, createdAt, model, heq, -⟩ := s.setChunkMetadata_spec chunk
  rw [heq]
  have hopen : OpenInv (h ++ []) { s with responseId, messageId, createdAt, model } :=
    hs.of_silent (by simp) rfl (fun _ => rfl) (by simp) rfl rfl rfl rfl
  rwa [List.append_nil] at hopen

theorem startResponseEvents (hs : OpenInv h s) (usage : UsageTotals) :
    OpenInv (h ++ (s.startResponseEvents usage).2) (s.startResponseEvents usage).1 := by
  unfold ResponsesStream.startResponseEvents
  split_ifs
  · rwa [List.append_nil]
  · refine hs.of_silent ?_ rfl (fun _ => rfl) ?_ rfl rfl rfl rfl
    · simp [ResponsesEvent.isDone]
    · simp [ResponsesEvent.openCall]

theorem processContent (hs : OpenInv h s) (text : String) :
    OpenInv (h ++ (s.processContent (some text)).2) (s.processContent (some text)).1 := by
  by_cases htext : text = ""
  · rw [ResponsesStream.processContent, if_pos htext, List.append_nil]
    exact hs
  rw [ResponsesStream.processContent_some htext]
  have hout := fun e he => ResponsesStream.mem_textOpenEvents (s := s) (e := e) he
  have houtText : textOf s.textOpenEvents = "" :=
    textOf_eq_empty fun e he => (hout e he).2.2.2.1
  have houtArgs : ∀ i, argumentsOf i s.textOpenEvents = "" := fun i =>
    argumentsOf_eq_empty fun e he => (hout e he).2.2.2.2 i
  constructor
  · exact hs.not_completed
  · intro e he
    rcases List.mem_append.mp he with he | he
    · exact hs.not_done e he
    · rcases List.mem_append.mp he with he | he
      · exact (hout e he).1
      · obtain rfl := List.mem_singleton.mp he
        rfl
  · rw [textOf_append, textOf_append, houtText, String.empty_append, ← hs.text_eq]
    simp [textOf, ResponsesEvent.textDelta]
  · simp [htext]
  · exact hs.sorted
  · intro i
    rw [argumentsOf_append, argumentsOf_append, houtArgs, ← hs.arguments_eq]
    simp [argumentsOf, ResponsesEvent.argumentsDelta]
  · intro e he i id hcall
    rcases List.mem_append.mp he with he | he
    · exact hs.callId_eq e he i id hcall
    · rcases List.mem_append.mp he with he | he
      · rw [(hout e he).2.2.1] at hcall
        exact absurd hcall (by simp)
      · obtain rfl := List.mem_singleton.mp he
        exact absurd hcall (by simp [ResponsesEvent.openCall])

theorem processToolCallDelta (hs : OpenInv h s) (toolCall : Value) :
    OpenInv (h ++ (s.processToolCallDelta toolCall).2) (s.processToolCallDelta toolCall).1 := by
  obtain ⟨new, name, hstep, heq⟩ := s.processToolCallDelta_spec toolCall
  rw [ResponsesStream.toolBefore] at hstep
  generalize s.toolIndex toolCall = index at hstep heq
  generalize (s.processToolCallDelta toolCall).2 = out at hstep
  rw [heq]
  constructor
  · exact hs.not_completed
  · intro e he
    rcases List.mem_append.mp he with he | he
    · exact hs.not_done e he
    · exact (hstep.mem_out he).1
  · have htext : textOf out = "" := textOf_eq_empty fun e he => (hstep.mem_out he).2.1
    rw [textOf_append, htext, String.append_empty]
    exact hs.text_eq
  · exact hs.text_started
  · exact OrdMap.sorted_insert hs.sorted index new
  · intro i
    rw [argumentsOf_append, hstep.argumentsOf_out, OrdMap.get_insert, ← hs.arguments_eq]
    by_cases hi : index = i
    · subst hi
      simp [hstep.arguments_eq]
    · simp [hi, Ne.symm hi]
  · intro e he i id hcall
    rw [OrdMap.get_insert]
    rcases List.mem_append.mp he with he | he
    · -- An entry that an earlier event was about keeps its call id.
      obtain ⟨call, hget, hid⟩ := hs.callId_eq e he i id hcall
      by_cases hi : i = index
      · subst hi
        rw [hget] at hstep
        exact ⟨new, if_pos rfl, hstep.callId_eq id hid⟩
      · exact ⟨call, by rw [if_neg hi, hget], hid⟩
    · obtain ⟨-, -, id', hid', hcall'⟩ := hstep.mem_out he
      rw [hcall'] at hcall
      obtain ⟨rfl, rfl⟩ := Prod.mk.inj (Option.some.inj hcall)
      exact ⟨new, if_pos rfl, hid'⟩

/-- **Every move but completion keeps the invariant.** -/
theorem step (hs : OpenInv h s) {m : Move} (hm : m.isFinish = false) :
    OpenInv (h ++ (s.step m).2) (s.step m).1 := by
  cases m with
  | metadata chunk =>
    rw [ResponsesStream.step, List.append_nil]
    exact hs.setChunkMetadata chunk
  | start usage => exact hs.startResponseEvents usage
  | text text => exact hs.processContent text
  | tool toolCall => exact hs.processToolCallDelta toolCall
  | finish usage => exact absurd hm (by simp [Move.isFinish])

/-- **Runs without completion keep the invariant.** -/
theorem run (hs : OpenInv h s) {ms : List Move} (hms : ∀ m ∈ ms, m.isFinish = false) :
    OpenInv (h ++ (Mealy.run ResponsesStream.step s ms).2)
      (Mealy.run ResponsesStream.step s ms).1 :=
  Mealy.run_hist _ OpenInv ms (fun _ _ m hm hs => hs.step (hms m hm)) hs

end OpenInv

/-! ### The one completion -/

/-- What a stream emits whose first completion is for the given usage: the events of its open
phase, the closing of its items, `response.completed`, and events that close nothing. -/
theorem responsesEvents_of_first_finish {c : Codec} {backendModel publicModel : Option String}
    {chunks : List Bytes} {before after : List Move} {usage : UsageTotals}
    (hms : responsesMoves c backendModel publicModel chunks.flatten =
      before ++ .finish usage :: after) (hbefore : ∀ m ∈ before, m.isFinish = false) (emit : Bool) :
    ∃ h s after, OpenInv h s ∧
      responsesEvents c backendModel publicModel emit chunks =
        h ++ s.itemDoneEvents ++
          .completed (s.responseObject usage .completed s.finalOutput) :: after ∧
      ∀ e ∈ after, e.isDone = false := by
  have hopen := openInv_nil.run hbefore
  rw [List.nil_append] at hopen
  have hfinish := ResponsesStream.finishResponse_open usage hopen.not_completed
  have hafter := ResponsesStream.run_completed (s := (ResponsesStream.step _ (.finish usage)).1)
    (by rw [ResponsesStream.step, hfinish]) after
  refine ⟨_, _, _, hopen, ?_, hafter.2⟩
  rw [responsesEvents_eq, hms, Mealy.run_append, Mealy.run_cons, ResponsesStream.step, hfinish]
  simp only [List.append_assoc, List.cons_append, List.nil_append]

/-- **A Responses stream has one completion.** -/
theorem responsesEvents_split (c : Codec) (backendModel publicModel : Option String)
    (emit : Bool) (chunks : List Bytes) :
    ∃ h s usage after, OpenInv h s ∧
      responsesEvents c backendModel publicModel emit chunks =
        h ++ s.itemDoneEvents ++
          .completed (s.responseObject usage .completed s.finalOutput) :: after ∧
      ∀ e ∈ after, e.isDone = false := by
  have hfinish : ∃ m ∈ responsesMoves c backendModel publicModel chunks.flatten,
      m.isFinish = true := ⟨_, List.mem_append_right _ List.mem_cons_self, rfl⟩
  obtain ⟨before, usage, after, hms, hbefore⟩ := exists_first_finish hfinish
  obtain ⟨h, s, after, hsplit⟩ := responsesEvents_of_first_finish hms hbefore emit
  exact ⟨h, s, usage, after, hsplit⟩

/-! ### What the closing events say -/

theorem filterMap_open {β : Type} {p : ResponsesEvent → Option β} {es : List ResponsesEvent}
    (hp : ∀ e, e.isDone = false → p e = none) (hes : ∀ e ∈ es, e.isDone = false) :
    es.filterMap p = [] := by
  rw [List.filterMap_eq_nil_iff]
  intro e he
  exact hp e (hes e he)

namespace ResponsesStream

variable (s : ResponsesStream)

theorem filterMap_textDone : s.itemDoneEvents.filterMap ResponsesEvent.textDone =
    if s.textStarted then [s.outputText] else [] := by
  have htools : (s.toolCalls.flatMap toolDoneEvents).filterMap ResponsesEvent.textDone = [] := by
    rw [List.filterMap_eq_nil_iff]
    intro e he
    obtain ⟨entry, -, he⟩ := List.mem_flatMap.mp he
    rcases List.mem_pair.mp he with rfl | rfl <;> rfl
  rw [itemDoneEvents, List.filterMap_append, htools, List.append_nil, textDoneEvents]
  split_ifs <;> rfl

theorem filterMap_doneItem :
    s.itemDoneEvents.filterMap ResponsesEvent.doneItem = s.finalOutput := by
  have htools : ∀ m : List (ℕ × StreamToolCall),
      (m.flatMap toolDoneEvents).filterMap ResponsesEvent.doneItem = m.map toolItem := by
    intro m
    induction m with
    | nil => rfl
    | cons entry m ih =>
      rw [List.flatMap_cons, List.filterMap_append, ih]
      rfl
  rw [itemDoneEvents, List.filterMap_append, htools, finalOutput, textDoneEvents]
  split_ifs <;> rfl

theorem filterMap_toolDone {s : ResponsesStream} (hs : OrdMap.Sorted s.toolCalls) (i : ℕ)
    {p : ResponsesEvent → Option (String × String)}
    (htext : s.textDoneEvents.filterMap p = [])
    (hp : ∀ entry : ℕ × StreamToolCall, (toolDoneEvents entry).filterMap p =
      if entry.1 = i then [(finalCallId entry.1 entry.2, entry.2.arguments)] else []) :
    s.itemDoneEvents.filterMap p =
      ((OrdMap.get i s.toolCalls).map fun call => (finalCallId i call, call.arguments)).toList := by
  have htools : ∀ m : List (ℕ × StreamToolCall), (m.flatMap toolDoneEvents).filterMap p =
      m.filterMap fun entry =>
        if entry.1 = i then some (finalCallId entry.1 entry.2, entry.2.arguments) else none := by
    intro m
    induction m with
    | nil => rfl
    | cons entry m ih =>
      rw [List.flatMap_cons, List.filterMap_append, ih, hp, List.filterMap_cons]
      split_ifs <;> rfl
  rw [itemDoneEvents, List.filterMap_append, htext, htools, List.nil_append]
  exact OrdMap.filterMap_key hs i fun entry => (finalCallId entry.1 entry.2, entry.2.arguments)

theorem filterMap_done {s : ResponsesStream} (hs : OrdMap.Sorted s.toolCalls) (i : ℕ) :
    let final := ((OrdMap.get i s.toolCalls).map fun call =>
      (finalCallId i call, call.arguments)).toList
    s.itemDoneEvents.filterMap (ResponsesEvent.argumentsDone i) = final ∧
      s.itemDoneEvents.filterMap (ResponsesEvent.callDone i) = final := by
  constructor
  all_goals
    refine filterMap_toolDone hs i ?_ fun entry => ?_
    · unfold textDoneEvents
      split_ifs <;> rfl
    · by_cases hi : entry.1 = i <;>
        simp [toolDoneEvents, toolItem, ResponsesEvent.argumentsDone, ResponsesEvent.callDone,
          List.filterMap_cons, hi]

theorem filterMap_messageText : s.finalOutput.filterMap OutputItem.messageText =
    if s.textStarted then [[s.outputText]] else [] := by
  have htools : (s.toolCalls.map toolItem).filterMap OutputItem.messageText = [] := by
    rw [List.filterMap_map, List.filterMap_eq_nil_iff]
    intro entry _
    rfl
  rw [finalOutput, List.filterMap_append, htools, List.append_nil]
  split_ifs <;> rfl

theorem deltas_itemDoneEvents :
    ∀ e ∈ s.itemDoneEvents, e.textDelta = "" ∧ (∀ i, e.argumentsDelta i = "") ∧
      e.openCall = none ∧ ∀ r, e ≠ .completed r := by
  intro e he
  rcases List.mem_append.mp he with he | he
  · unfold textDoneEvents at he
    split_ifs at he
    · simp only [List.mem_cons, List.not_mem_nil, or_false] at he
      rcases he with rfl | rfl | rfl <;> exact ⟨rfl, fun _ => rfl, rfl, fun _ => nofun⟩
    · exact absurd he List.not_mem_nil
  · obtain ⟨entry, -, he⟩ := List.mem_flatMap.mp he
    rcases List.mem_pair.mp he with rfl | rfl <;> exact ⟨rfl, fun _ => rfl, rfl, fun _ => nofun⟩

end ResponsesStream

/-! ### The result -/

/-- The deltas of `before` add up to what the closing events and the response say: its text, the
one `output_text.done`, the one message item, and for every tool index the arguments of its
`function_call_arguments.done` and of its function call item, all under one call id. -/
structure DeltasAddUp (before after : List ResponsesEvent) (response : ResponseObject) :
    Prop where
  outputText_eq : response.outputText = textOf before
  textDone_eq : (before ++ after).filterMap ResponsesEvent.textDone =
    if textOf before = "" then [] else [textOf before]
  message_eq : response.output.filterMap OutputItem.messageText =
    if textOf before = "" then [] else [[textOf before]]
  output_eq : response.output = (before ++ after).filterMap ResponsesEvent.doneItem
  calls : ∀ i, ∃ callId, (∀ e ∈ before, ∀ id, e.openCall = some (i, id) → id = callId) ∧
    ((∀ e ∈ before, ∀ id, e.openCall ≠ some (i, id)) ∧
        (before ++ after).filterMap (ResponsesEvent.argumentsDone i) = [] ∧
        (before ++ after).filterMap (ResponsesEvent.callDone i) = [] ∨
      (before ++ after).filterMap (ResponsesEvent.argumentsDone i) =
          [(callId, argumentsOf i before)] ∧
        (before ++ after).filterMap (ResponsesEvent.callDone i) =
          [(callId, argumentsOf i before)])

section AddUp

variable {h after : List ResponsesEvent} {s : ResponsesStream}

/-- What a projection that reads closing events only sees of a completed stream. -/
theorem filterMap_split {β : Type} {p : ResponsesEvent → Option β} (hs : OpenInv h s)
    (hafter : ∀ e ∈ after, e.isDone = false) (hp : ∀ e, e.isDone = false → p e = none) :
    (h ++ s.itemDoneEvents ++ after).filterMap p = s.itemDoneEvents.filterMap p := by
  rw [List.filterMap_append, List.filterMap_append, filterMap_open hp hs.not_done,
    filterMap_open hp hafter, List.nil_append, List.append_nil]

theorem textOf_split (s : ResponsesStream) (h : List ResponsesEvent) :
    textOf (h ++ s.itemDoneEvents) = textOf h := by
  rw [textOf_append, textOf_eq_empty fun e he => (s.deltas_itemDoneEvents e he).1,
    String.append_empty]

theorem argumentsOf_split (s : ResponsesStream) (h : List ResponsesEvent) (i : ℕ) :
    argumentsOf i (h ++ s.itemDoneEvents) = argumentsOf i h := by
  rw [argumentsOf_append,
    argumentsOf_eq_empty fun e he => (s.deltas_itemDoneEvents e he).2.1 i, String.append_empty]

theorem OpenInv.deltasAddUp (hs : OpenInv h s) (usage : UsageTotals)
    (hafter : ∀ e ∈ after, e.isDone = false) :
    DeltasAddUp (h ++ s.itemDoneEvents) after
      (s.responseObject usage .completed s.finalOutput) := by
  have hcond : ∀ {β : Type} (x : β), (if s.textStarted then [x] else []) =
      if textOf h = "" then [] else [x] := by
    intro β x
    have := hs.text_started
    rw [hs.text_eq] at this
    by_cases ht : textOf h = "" <;> simp_all
  constructor
  · rw [textOf_split]
    exact hs.text_eq
  · rw [filterMap_split hs hafter (fun e he => by cases e <;> simp_all [ResponsesEvent.isDone,
      ResponsesEvent.textDone]), s.filterMap_textDone, hcond, textOf_split, hs.text_eq]
  · rw [textOf_split]
    change s.finalOutput.filterMap OutputItem.messageText = _
    rw [s.filterMap_messageText, hcond, hs.text_eq]
  · rw [filterMap_split hs hafter (fun e he => by cases e <;> simp_all [ResponsesEvent.isDone,
      ResponsesEvent.doneItem]), s.filterMap_doneItem]
    rfl
  · intro i
    have hcalls : ∀ e ∈ h ++ s.itemDoneEvents, ∀ id, e.openCall = some (i, id) →
        ∃ call, OrdMap.get i s.toolCalls = some call ∧ call.callId = some id := by
      intro e he id hid
      rcases List.mem_append.mp he with he | he
      · exact hs.callId_eq e he i id hid
      · rw [(s.deltas_itemDoneEvents e he).2.2.1] at hid
        exact absurd hid (by simp)
    obtain ⟨harguments, hcallDone⟩ := ResponsesStream.filterMap_done hs.sorted i
    rw [filterMap_split hs hafter (fun e he => by cases e <;> simp_all [ResponsesEvent.isDone,
        ResponsesEvent.argumentsDone]),
      filterMap_split hs hafter (fun e he => by cases e <;> simp_all [ResponsesEvent.isDone,
        ResponsesEvent.callDone]), harguments, hcallDone, argumentsOf_split, ← hs.arguments_eq]
    cases hget : OrdMap.get i s.toolCalls with
    | none =>
      -- No delta came for `i`, so any call id will do.
      have hno : ∀ e ∈ h ++ s.itemDoneEvents, ∀ id, e.openCall ≠ some (i, id) := by
        intro e he id hid
        obtain ⟨call, hcall, -⟩ := hcalls e he id hid
        rw [hget] at hcall
        exact absurd hcall (by simp)
      exact ⟨"", fun e he id hid => absurd hid (hno e he id), Or.inl ⟨hno, rfl, rfl⟩⟩
    | some call =>
      refine ⟨ResponsesStream.finalCallId i call, fun e he id hid => ?_, Or.inr ⟨rfl, rfl⟩⟩
      obtain ⟨call', hcall', hid'⟩ := hcalls e he id hid
      rw [hget] at hcall'
      obtain rfl := Option.some.inj hcall'
      rw [ResponsesStream.finalCallId, hid']
      rfl

end AddUp

theorem not_completed_of_split {h after : List ResponsesEvent} {s : ResponsesStream}
    (hs : OpenInv h s) (hafter : ∀ e ∈ after, e.isDone = false) :
    ∀ e ∈ (h ++ s.itemDoneEvents) ++ after, ∀ r, e ≠ .completed r := by
  have hopen : ∀ e : ResponsesEvent, e.isDone = false → ∀ r, e ≠ .completed r := by
    rintro e he r rfl
    exact absurd he (by simp [ResponsesEvent.isDone])
  intro e he
  rcases List.mem_append.mp he with he | he
  · rcases List.mem_append.mp he with he | he
    · exact hopen e (hs.not_done e he)
    · exact (s.deltas_itemDoneEvents e he).2.2.2
  · exact hopen e (hafter e he)

/-- **The deltas of a Responses stream add up**, for every upstream stream in any chunks: the
stream has one `response.completed`, and the deltas before it add up to what the closing events
and the completed response say. -/
theorem responses_deltas_add_up (c : Codec) (backendModel publicModel : Option String)
    (emit : Bool) (chunks : List Bytes) :
    ∃ before response after,
      responsesEvents c backendModel publicModel emit chunks =
        before ++ .completed response :: after ∧
      (∀ e ∈ before ++ after, ∀ r, e ≠ .completed r) ∧
      DeltasAddUp before after response := by
  obtain ⟨h, s, usage, after, hs, heq, hafter⟩ :=
    responsesEvents_split c backendModel publicModel emit chunks
  exact ⟨_, _, after, heq, not_completed_of_split hs hafter, hs.deltasAddUp usage hafter⟩

end Onair
