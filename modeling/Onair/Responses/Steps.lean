import Onair.Responses.Moves

/-!
# What the moves of a Responses stream do

* `textOf`, `argumentsOf`: the text and the arguments that the deltas of a list of events add up to;
* `setChunkMetadata_spec`, `processContent_some`: one statement for each small move;
* `ToolStep`, `processToolCallDelta_spec`: **what a tool call delta can do**;
* `NamedAdded`, `processToolCallDelta_named`: a tool call is announced when it is named;
* `step_completed`, `run_completed`: after completion nothing is closed again.
-/

namespace Onair

open Json

/-! ### Reading a list of events -/

namespace ResponsesEvent

/-- The event closes something. -/
def isDone : ResponsesEvent → Bool
  | .outputTextDone _ _ | .contentPartDone _ _ | .outputItemDone _ _
  | .functionCallArgumentsDone _ _ _ | .completed _ => true
  | _ => false

/-- The event is about an item. -/
def isItem : ResponsesEvent → Bool
  | .created _ | .inProgress _ | .completed _ => false
  | _ => true

/-- The text of a text delta. -/
def textDelta : ResponsesEvent → String
  | .outputTextDelta _ delta => delta
  | _ => ""

/-- The fragment of an arguments delta at `i`. -/
def argumentsDelta (i : ℕ) : ResponsesEvent → String
  | .functionCallArgumentsDelta _ j delta => if j = i then delta else ""
  | _ => ""

/-- The tool index and the call id of an event about an open tool call. -/
def openCall : ResponsesEvent → Option (ℕ × String)
  | .functionCallArgumentsDelta callId i _ => some (i, callId)
  | .outputItemAdded i (.functionCall _ callId _ _) => some (i, callId)
  | _ => none

/-- The text of an `output_text.done` event. -/
def textDone : ResponsesEvent → Option String
  | .outputTextDone _ text => some text
  | _ => none

/-- Call id and arguments of a `function_call_arguments.done` event at `i`. -/
def argumentsDone (i : ℕ) : ResponsesEvent → Option (String × String)
  | .functionCallArgumentsDone callId j arguments =>
    if j = i then some (callId, arguments) else none
  | _ => none

/-- Call id and arguments of the function call item of an `output_item.done` event at `i`. -/
def callDone (i : ℕ) : ResponsesEvent → Option (String × String)
  | .outputItemDone j (.functionCall _ callId _ arguments) =>
    if j = i then some (callId, arguments) else none
  | _ => none

/-- The item of an `output_item.done` event. -/
def doneItem : ResponsesEvent → Option OutputItem
  | .outputItemDone _ item => some item
  | _ => none

end ResponsesEvent

/-- The texts of a message item. -/
def OutputItem.messageText : OutputItem → Option (List String)
  | .message _ _ content => some content
  | .functionCall _ _ _ _ => none

/-- The text deltas of a list of events, joined. -/
def textOf (es : List ResponsesEvent) : String := String.join (es.map ResponsesEvent.textDelta)

/-- The arguments deltas at `i` of a list of events, joined. -/
def argumentsOf (i : ℕ) (es : List ResponsesEvent) : String :=
  String.join (es.map (ResponsesEvent.argumentsDelta i))

@[simp] theorem textOf_nil : textOf [] = "" := rfl
@[simp] theorem argumentsOf_nil (i : ℕ) : argumentsOf i [] = "" := rfl

@[simp] theorem textOf_append (es es' : List ResponsesEvent) :
    textOf (es ++ es') = textOf es ++ textOf es' := by
  simp [textOf, String.join_append]

@[simp] theorem argumentsOf_append (i : ℕ) (es es' : List ResponsesEvent) :
    argumentsOf i (es ++ es') = argumentsOf i es ++ argumentsOf i es' := by
  simp [argumentsOf, String.join_append]

theorem argumentsOf_eq_empty {i : ℕ} {es : List ResponsesEvent}
    (h : ∀ e ∈ es, e.argumentsDelta i = "") : argumentsOf i es = "" := by
  induction es with
  | nil => rfl
  | cons e es ih =>
    rw [← List.singleton_append, argumentsOf_append,
      ih fun e he => h e (List.mem_cons_of_mem _ he)]
    simp [argumentsOf, h e List.mem_cons_self]

theorem textOf_eq_empty {es : List ResponsesEvent} (h : ∀ e ∈ es, e.textDelta = "") :
    textOf es = "" := by
  induction es with
  | nil => rfl
  | cons e es ih =>
    rw [← List.singleton_append, textOf_append, ih fun e he => h e (List.mem_cons_of_mem _ he)]
    simp [textOf, h e List.mem_cons_self]

/-! ### Metadata -/

/-- Only ids, creation time and model are taken from a chunk, and a response keeps its ids. -/
theorem ResponsesStream.setChunkMetadata_spec (s : ResponsesStream) (chunk : Value) :
    ∃ responseId messageId createdAt model,
      s.setChunkMetadata chunk =
        { s with responseId := responseId, messageId := messageId, createdAt := createdAt,
                 model := model } ∧
      responseId.isSome = true ∧
      (s.responseId.isSome = true → responseId = s.responseId ∧ messageId = s.messageId) := by
  refine ⟨(s.setChunkMetadata chunk).responseId, (s.setChunkMetadata chunk).messageId,
    (s.setChunkMetadata chunk).createdAt, (s.setChunkMetadata chunk).model, ?_⟩
  obtain ⟨responseId, messageId, createdAt, model, _, _, _, _, _⟩ := s
  by_cases hcreated : createdAt = 0 <;> cases responseId <;> cases model <;>
    simp [setChunkMetadata, hcreated]

/-! ### Text -/

namespace ResponsesStream

/-- The events that open the message item, if it is not open yet. -/
def textOpenEvents (s : ResponsesStream) : List ResponsesEvent :=
  if s.textStarted then []
  else [.outputItemAdded 0 (.message s.getMessageId .inProgress []),
    .contentPartAdded s.getMessageId]

theorem startTextEvents_eq (s : ResponsesStream) :
    s.startTextEvents = ({ s with textStarted := true }, s.textOpenEvents) := by
  unfold startTextEvents textOpenEvents
  split_ifs with hstarted
  · rw [← hstarted]
  · rfl

theorem mem_textOpenEvents {s : ResponsesStream} {e : ResponsesEvent} (he : e ∈ s.textOpenEvents) :
    e.isDone = false ∧ e.isItem = true ∧ e.openCall = none ∧ e.textDelta = "" ∧
      ∀ i, e.argumentsDelta i = "" := by
  unfold textOpenEvents at he
  split_ifs at he
  · exact absurd he List.not_mem_nil
  · rcases List.mem_pair.mp he with rfl | rfl <;> exact ⟨rfl, rfl, rfl, rfl, fun _ => rfl⟩

/-- **What text does**: it opens the message item if need be, and adds a delta. -/
theorem processContent_some {s : ResponsesStream} {text : String} (h : text ≠ "") :
    s.processContent (some text) =
      ({ s with textStarted := true, outputText := s.outputText ++ text },
        s.textOpenEvents ++ [.outputTextDelta s.getMessageId text]) := by
  simp only [processContent, if_neg h, startTextEvents_eq]
  rfl

end ResponsesStream

/-! ### Tool call deltas -/

namespace ResponsesStream

/-- The `function` of a tool call delta. -/
def toolFunction (toolCall : Value) : List (String × Value) :=
  ((toolCall.get "function").bind Value.asObject).getD []

/-- The name in a tool call delta. -/
def toolName (toolCall : Value) : Option String :=
  (OrdMap.get "name" (toolFunction toolCall)).bind Value.asStr

/-- The fragment of arguments in a tool call delta. -/
def toolArguments (toolCall : Value) : String :=
  ((OrdMap.get "arguments" (toolFunction toolCall)).bind Value.asStr).getD ""

/-- The tool call that a tool call delta is about, as it was before it. -/
def toolBefore (s : ResponsesStream) (toolCall : Value) : StreamToolCall :=
  (OrdMap.get (s.toolIndex toolCall) s.toolCalls).getD {}

/-- The announcement of the tool call at `index`, if a step made it. -/
def announcement (index : ℕ) (old new : StreamToolCall) (name : String) : List ResponsesEvent :=
  if old.added = false ∧ new.added = true then
    [.outputItemAdded index (.functionCall .inProgress (finalCallId index new) name "")]
  else []

/-- The delta for a fragment of arguments of the tool call at `index`. -/
def argumentsEvent (index : ℕ) (new : StreamToolCall) (fragment : String) : List ResponsesEvent :=
  if fragment = "" then []
  else [.functionCallArgumentsDelta (finalCallId index new) index fragment]

/-- What a step makes of the tool call at `index`: it goes from `old` to `new`, announces it under
`name` if it was not yet announced, and adds the `fragment` to its arguments. -/
structure ToolStep (index : ℕ) (old new : StreamToolCall) (name fragment : String)
    (out : List ResponsesEvent) : Prop where
  arguments_eq : new.arguments = old.arguments ++ fragment
  callId_eq : ∀ id, old.callId = some id → new.callId = some id
  added_mono : old.added = true → new.added = true
  callId_of_out : out ≠ [] → new.callId.isSome = true
  out_eq : out = announcement index old new name ++ argumentsEvent index new fragment

theorem announce_spec (index : ℕ) (state : StreamToolCall) :
    ∃ name, ToolStep index state (announce index state).1 name "" (announce index state).2 := by
  obtain ⟨callId, name, arguments, added⟩ := state
  refine ⟨name.getD "", ?_⟩
  cases added <;> cases callId <;> cases name <;>
    constructor <;> simp [announce, announcement, argumentsEvent, finalCallId]

theorem appendArguments_spec (index : ℕ) (state : StreamToolCall) (arguments : Option String)
    (name : String) :
    ToolStep index state (appendArguments index state arguments).1 name (arguments.getD "")
      (appendArguments index state arguments).2 := by
  cases arguments with
  | none => constructor <;> simp [appendArguments, announcement, argumentsEvent]
  | some fragment =>
    by_cases hf : fragment = ""
    · constructor <;> simp [appendArguments, announcement, argumentsEvent, hf]
    · constructor <;>
        simp +contextual [appendArguments, announcement, argumentsEvent, hf, finalCallId]

theorem ToolStep.trans {index : ℕ} {old mid new : StreamToolCall} {name fragment : String}
    {out out' : List ResponsesEvent} (h : ToolStep index old mid name "" out)
    (h' : ToolStep index mid new name fragment out') (hadded : new.added = mid.added) :
    ToolStep index old new name fragment (out ++ out') := by
  have hcall : out ≠ [] → finalCallId index new = finalCallId index mid := by
    intro hout
    obtain ⟨id, hid⟩ := Option.isSome_iff_exists.mp (h.callId_of_out hout)
    rw [finalCallId, finalCallId, hid, h'.callId_eq id hid]
  have hmid : announcement index mid new name = [] := by
    rw [announcement, if_neg]
    rw [hadded]
    rintro ⟨h1, h2⟩
    rw [h1] at h2
    exact absurd h2 (by decide)
  have hout : out = announcement index old new name := by
    have := h.out_eq
    rw [argumentsEvent, if_pos rfl, List.append_nil] at this
    rw [this, announcement, announcement, hadded]
    split_ifs with hann
    · rw [hcall]
      rw [this, announcement, if_pos hann]
      exact List.cons_ne_nil _ _
    · rfl
  constructor
  · rw [h'.arguments_eq, h.arguments_eq, String.append_empty]
  · intro id hid
    exact h'.callId_eq id (h.callId_eq id hid)
  · intro hadd
    rw [hadded]
    exact h.added_mono hadd
  · intro hne
    by_cases ho : out = []
    · exact h'.callId_of_out (by rintro rfl; exact hne (by simp [ho]))
    · obtain ⟨id, hid⟩ := Option.isSome_iff_exists.mp (h.callId_of_out ho)
      rw [h'.callId_eq id hid]
      rfl
  · rw [h'.out_eq, hmid, List.nil_append, ← hout]

theorem ToolStep.of_eq {index : ℕ} {old old' new : StreamToolCall} {name fragment : String}
    {out : List ResponsesEvent} (h : ToolStep index old' new name fragment out)
    (harguments : old'.arguments = old.arguments) (hadded : old'.added = old.added)
    (hcallId : ∀ id, old.callId = some id → old'.callId = some id) :
    ToolStep index old new name fragment out := by
  refine ⟨by rw [h.arguments_eq, harguments], fun id hid => h.callId_eq id (hcallId id hid),
    by rw [← hadded]; exact h.added_mono, h.callId_of_out, ?_⟩
  rw [h.out_eq, announcement, announcement, hadded]

theorem appendArguments_added (index : ℕ) (state : StreamToolCall) (arguments : Option String) :
    (appendArguments index state arguments).1.added = state.added := by
  unfold appendArguments
  split
  · split_ifs <;> rfl
  · rfl

theorem nameCall_spec (index : ℕ) (state : StreamToolCall) (function : List (String × Value)) :
    (nameCall index state function).arguments = state.arguments ∧
      (nameCall index state function).added = state.added ∧
      ∀ id, state.callId = some id → (nameCall index state function).callId = some id := by
  unfold nameCall
  cases (OrdMap.get "name" function).bind Value.asStr <;> dsimp only <;> split_ifs with h <;>
    simp_all

theorem processFunction_spec (index : ℕ) (state : StreamToolCall)
    (function : List (String × Value)) :
    ∃ name, ToolStep index state (processFunction index state function).1 name
      (((OrdMap.get "arguments" function).bind Value.asStr).getD "")
      (processFunction index state function).2 := by
  obtain ⟨name, hann⟩ := announce_spec index (nameCall index state function)
  have happ := appendArguments_spec index (announce index (nameCall index state function)).1
    ((OrdMap.get "arguments" function).bind Value.asStr) name
  obtain ⟨h1, h2, h3⟩ := nameCall_spec index state function
  exact ⟨name, (hann.trans happ (appendArguments_added _ _ _)).of_eq h1 h2 h3⟩

theorem ToolStep.argumentsOf_out {index : ℕ} {old new : StreamToolCall} {name fragment : String}
    {out : List ResponsesEvent} (h : ToolStep index old new name fragment out) (i : ℕ) :
    argumentsOf i out = if index = i then fragment else "" := by
  have hann : argumentsOf i (announcement index old new name) = "" := by
    unfold announcement
    split_ifs <;> rfl
  rw [h.out_eq, argumentsOf_append, hann, String.empty_append]
  unfold argumentsEvent
  split_ifs with hf hi hi
  · simp [hf]
  · rfl
  · simp [argumentsOf, ResponsesEvent.argumentsDelta, hi]
  · simp [argumentsOf, ResponsesEvent.argumentsDelta, hi]

theorem ToolStep.mem_out {index : ℕ} {old new : StreamToolCall} {name fragment : String}
    {out : List ResponsesEvent} (h : ToolStep index old new name fragment out)
    {e : ResponsesEvent} (he : e ∈ out) :
    e.isDone = false ∧ e.textDelta = "" ∧
      ∃ id, new.callId = some id ∧ e.openCall = some (index, id) := by
  obtain ⟨id, hid⟩ := Option.isSome_iff_exists.mp (h.callId_of_out (List.ne_nil_of_mem he))
  have hfinal : finalCallId index new = id := by rw [finalCallId, hid]; rfl
  rw [h.out_eq, announcement, argumentsEvent, hfinal] at he
  rcases List.mem_append.mp he with he | he
  all_goals
    split_ifs at he
    all_goals first
      | exact absurd he List.not_mem_nil
      | obtain rfl := List.mem_singleton.mp he
        exact ⟨rfl, rfl, id, hid, rfl⟩

/-- **What a tool call delta does**: it moves the entry at its index, and nothing else. -/
theorem processToolCallDelta_spec (s : ResponsesStream) (toolCall : Value) :
    ∃ new name,
      ToolStep (s.toolIndex toolCall) (s.toolBefore toolCall) new name (toolArguments toolCall)
        (s.processToolCallDelta toolCall).2 ∧
      (s.processToolCallDelta toolCall).1 =
        { s with toolCalls := OrdMap.insert (s.toolIndex toolCall) new s.toolCalls } := by
  rw [processToolCallDelta, toolBefore, toolArguments, toolFunction]
  generalize s.toolIndex toolCall = index
  have hold : ∀ id', ToolStep index ((OrdMap.get index s.toolCalls).getD {})
      (s.toolState index id') "" "" [] := by
    intro id'
    constructor <;> simp +contextual [toolState, announcement, argumentsEvent]
  cases (toolCall.get "function").bind Value.asObject with
  | none => exact ⟨_, "", hold _, rfl⟩
  | some function =>
    obtain ⟨name, hstep⟩ := processFunction_spec index
      (s.toolState index ((toolCall.get "id").bind Value.asStr)) function
    refine ⟨_, name, hstep.of_eq ?_ ?_ ?_, rfl⟩
    · rfl
    · rfl
    · exact (hold _).callId_eq

/-! ### Names -/

/-- Every named tool call is announced. -/
def NamedAdded (s : ResponsesStream) : Prop :=
  ∀ i, ((OrdMap.get i s.toolCalls).getD {}).name.isSome = true →
    ((OrdMap.get i s.toolCalls).getD {}).added = true

theorem appendArguments_name (index : ℕ) (state : StreamToolCall) (arguments : Option String) :
    (appendArguments index state arguments).1.name = state.name := by
  unfold appendArguments
  split
  · split_ifs <;> rfl
  · rfl

/-- A tool call is announced as soon as its name is known. -/
theorem announce_nameCall (index : ℕ) (state : StreamToolCall)
    (h : state.name.isSome = true → state.added = true) (function : List (String × Value)) :
    let r := (announce index (nameCall index state function)).1
    r.added = (state.added || ((OrdMap.get "name" function).bind Value.asStr).isSome) ∧
      (r.name.isSome = true → r.added = true) := by
  obtain ⟨callId, name, arguments, added⟩ := state
  unfold nameCall
  generalize (OrdMap.get "name" function).bind Value.asStr = newName
  cases newName <;> cases callId <;> cases name <;> cases added <;> simp_all [announce]

/-- **When a tool call is announced**: in a state where every named call is, a delta announces its
call if and only if it names it. -/
theorem processToolCallDelta_named {s : ResponsesStream} (h : s.NamedAdded) (toolCall : Value) :
    (s.processToolCallDelta toolCall).1.NamedAdded ∧
      ∀ new, (s.processToolCallDelta toolCall).1 =
          { s with toolCalls := OrdMap.insert (s.toolIndex toolCall) new s.toolCalls } →
        new.added = ((s.toolBefore toolCall).added || (toolName toolCall).isSome) := by
  have hkey : ∃ new, (s.processToolCallDelta toolCall).1 =
        { s with toolCalls := OrdMap.insert (s.toolIndex toolCall) new s.toolCalls } ∧
      new.added = ((s.toolBefore toolCall).added || (toolName toolCall).isSome) ∧
      (new.name.isSome = true → new.added = true) := by
    have hold := h (s.toolIndex toolCall)
    rw [processToolCallDelta, toolBefore, toolName, toolFunction]
    cases (toolCall.get "function").bind Value.asObject with
    | none => exact ⟨_, rfl, by simp [toolState], hold⟩
    | some function =>
      obtain ⟨h1, h2⟩ := announce_nameCall (s.toolIndex toolCall)
        (s.toolState (s.toolIndex toolCall) ((toolCall.get "id").bind Value.asStr))
        hold function
      refine ⟨_, rfl, ?_, ?_⟩
      · simp only [processFunction, appendArguments_added, h1]
        rfl
      · simp only [processFunction, appendArguments_added, appendArguments_name]
        exact h2
  obtain ⟨new, heq, hadded, hname⟩ := hkey
  refine ⟨fun i => ?_, fun new' heq' => ?_⟩
  · rw [heq]
    dsimp only
    rw [OrdMap.get_insert]
    split_ifs with hi
    · exact hname
    · exact h i
  · have hget : OrdMap.get (s.toolIndex toolCall) (s.processToolCallDelta toolCall).1.toolCalls =
        some new' := by
      rw [heq']
      exact OrdMap.get_insert_self _ _ _
    rw [heq, OrdMap.get_insert_self] at hget
    rw [← Option.some.inj hget, hadded]

end ResponsesStream

/-! ### Completion, and what follows it -/

namespace ResponsesStream

theorem finishResponse_completed (u : UsageTotals) {s : ResponsesStream}
    (h : s.completed = true) : s.finishResponse u = (s, []) := by
  rw [finishResponse, if_pos h]

theorem namedAdded_step {s : ResponsesStream} (h : s.NamedAdded) (m : Move) :
    (s.step m).1.NamedAdded := by
  cases m with
  | metadata chunk =>
    obtain ⟨_, _, _, _, heq, -⟩ := s.setChunkMetadata_spec chunk
    rw [step, heq]
    exact h
  | start usage =>
    rw [step, startResponseEvents]
    split_ifs <;> exact h
  | text text =>
    by_cases htext : text = ""
    · rw [step, processContent, if_pos htext]
      exact h
    · rw [step, processContent_some htext]
      exact h
  | tool toolCall => exact (processToolCallDelta_named h toolCall).1
  | finish usage =>
    rw [step, finishResponse]
    split_ifs <;> exact h

theorem step_completed {s : ResponsesStream} (h : s.completed = true) (m : Move) :
    (s.step m).1.completed = true ∧ ∀ e ∈ (s.step m).2, e.isDone = false := by
  cases m with
  | metadata chunk =>
    obtain ⟨_, _, _, _, heq, -⟩ := s.setChunkMetadata_spec chunk
    rw [step, heq]
    exact ⟨h, by simp⟩
  | start usage =>
    rw [step, startResponseEvents]
    split_ifs
    · exact ⟨h, by simp⟩
    · exact ⟨h, by simp [ResponsesEvent.isDone]⟩
  | text text =>
    by_cases htext : text = ""
    · rw [step, processContent, if_pos htext]
      exact ⟨h, by simp⟩
    · rw [step, processContent_some htext]
      refine ⟨h, fun e he => ?_⟩
      rcases List.mem_append.mp he with he | he
      · exact (mem_textOpenEvents he).1
      · obtain rfl := List.mem_singleton.mp he
        rfl
  | tool toolCall =>
    obtain ⟨new, name, hstep, heq⟩ := s.processToolCallDelta_spec toolCall
    rw [step, heq]
    exact ⟨h, fun e he => (hstep.mem_out he).1⟩
  | finish usage =>
    rw [step, finishResponse_completed usage h]
    exact ⟨h, by simp⟩

/-- **Nothing is closed twice**: after completion no event closes anything. -/
theorem run_completed {s : ResponsesStream} (h : s.completed = true) (ms : List Move) :
    (Mealy.run step s ms).1.completed = true ∧
      ∀ e ∈ (Mealy.run step s ms).2, e.isDone = false :=
  Mealy.run_forall (fun t : ResponsesStream => t.completed = true) _
    (fun _ m _ hs => step_completed hs m) h

/-- The events that close the items of a response. -/
def itemDoneEvents (s : ResponsesStream) : List ResponsesEvent :=
  s.textDoneEvents ++ s.toolCalls.flatMap toolDoneEvents

theorem finishResponse_open (u : UsageTotals) {s : ResponsesStream} (h : s.completed = false) :
    s.finishResponse u = ({ s with completed := true },
      s.itemDoneEvents ++ [.completed (s.responseObject u .completed s.finalOutput)]) := by
  rw [finishResponse, if_neg (by rw [h]; decide)]
  rfl

end ResponsesStream

end Onair
