import Onair.Chat.Agreement
import Onair.Core.Hidden
import Onair.Proxy.Finished
import Onair.Stream.Named

/-!
# Answers that are not streams

A backend may answer a request for a stream with a whole JSON object. The answer then goes through
the normalizers for streams line by line, and none of its lines is a `data:` line.

* `Completion`, `readAnswer`, `bodyContent`: what a client reads of an answer, and what it should;
* `receivedContent`, `receivedValues`: what it does read of a stream;
* `frames_json`, `runAll_json`, `streamAll_json`: **what becomes of the lines of a JSON text**;
* **`json_answer_iff`**: when the client gets what the body says, and no name of the backend model.
-/

namespace Onair

open Json Lines Text

/-! ### Completions -/

/-- A completion as a client has it. -/
structure Completion where
  text : String := ""
  toolCalls : List AssembledCall := []
  deriving DecidableEq

/-- A chat message as a completion. -/
def ChatMessage.completion (message : ChatMessage) : Completion where
  text := message.content
  toolCalls := message.toolCalls

/-- A text and tool calls as a completion. -/
def completionOf (message : String × List ChatToolCall) : Completion where
  text := message.1
  toolCalls := message.2.map ChatToolCall.assembled

/-- The completion in a response of the Responses API. -/
def responseCompletion (response : Value) : Completion :=
  completionOf (responseOutputToChatMessage (response.get "output"))

/-- What a client reads of an answer, in the formats of the endpoint. -/
def readAnswer (c : Codec) (mode : RequestMode) (answer : Value) : List Completion :=
  match mode with
  | .native => [(readChatCompletion answer).completion, responseCompletion answer]
  | .anthropicMessagesNative =>
    [completionOf (anthropicContentToChatMessage c (answer.get "content"))]
  | .responsesViaChatCompletions => [responseCompletion answer]
  | .chatCompletionsViaResponses | .chatCompletionsViaMessages =>
    [(readChatCompletion answer).completion]

/-- A body converted for a mode. -/
def convertBody (c : Codec) (mode : RequestMode) (body : Value) : Value :=
  match mode with
  | .native | .anthropicMessagesNative => body
  | .responsesViaChatCompletions => chatCompletionToResponse c body
  | .chatCompletionsViaResponses => responseToChatCompletion body
  | .chatCompletionsViaMessages => anthropicMessageToChatCompletion c body

/-- The completion content of a body, converted for a mode. -/
def bodyContent (c : Codec) (mode : RequestMode) (body : Value) : List Completion :=
  readAnswer c mode (convertBody c mode body)

/-! ### Streams as a client reads them -/

namespace SseOut

/-- A line that was sent on as it came. -/
def asLine : SseOut → Option Bytes
  | .line bytes => some bytes
  | _ => none

/-- An event of the Responses API. -/
def asEvent : SseOut → Option ResponsesEvent
  | .event e => some e
  | _ => none

/-- A chat completion frame. -/
def asChat : SseOut → Option ChatFrame
  | .chat f => some f
  | _ => none

/-- The JSON of a frame. -/
def value : SseOut → Option Value
  | .line _ => none
  | .dataLine _ value _ => some value
  | .event e => some e.data
  | .chat f => f.data

end SseOut

/-- The response that a stream of the Responses API is completed with. -/
def ResponsesEvent.completedResponse : ResponsesEvent → Option ResponseObject
  | .completed response => some response
  | _ => none

/-- The lines that were sent on as they came. -/
def sentLines (out : List SseOut) : Bytes := (out.filterMap SseOut.asLine).flatten

/-- What a client reads: JSON in the native modes, the response that completes a stream of the
Responses API, the message put together from a chat stream. -/
def receivedContent (c : Codec) (mode : RequestMode) (out : List SseOut) : List Completion :=
  match mode with
  | .native | .anthropicMessagesNative =>
    (c.fromSlice (sentLines out)).toList.flatMap (readAnswer c mode)
  | .responsesViaChatCompletions =>
    ((out.filterMap SseOut.asEvent).filterMap ResponsesEvent.completedResponse).map fun response =>
      responseCompletion response.toValue
  | .chatCompletionsViaResponses | .chatCompletionsViaMessages =>
    [(assemble (out.filterMap SseOut.asChat)).message.completion]

/-- The JSON values in a stream: that of the lines that were sent on as they came, and those of the
frames. -/
def receivedValues (c : Codec) (out : List SseOut) : List Value :=
  (c.fromSlice (sentLines out)).toList ++ out.filterMap SseOut.value

/-- The value does not name the backend model where the mode rewrites it: in any field `model`, or
in the one at the top. -/
def hidesModel (mode : RequestMode) (backendModel : String) (v : Value) : Bool :=
  if mode.rewritesAll then !namesModel backendModel v
  else v.get "model" != some (.string backendModel)

/-- **The client gets what the body says**: its text and its tool calls, converted for the mode, and
no field `model` with the name of the backend model. -/
structure AnsweredInFull (c : Codec) (mode : RequestMode) (backendModel : String) (body : Value)
    (out : List SseOut) : Prop where
  content : receivedContent c mode out = bodyContent c mode body
  hidden : ∀ v ∈ receivedValues c out, hidesModel mode backendModel v = true

/-! ### The lines of a JSON text -/

theorem lineContent_prefix (line : Bytes) : lineContent line <+: line := by
  have hstrip (p l : Bytes) : (stripSuffix p l).getD l <+: l := by
    cases h : stripSuffix p l with
    | none => exact List.prefix_rfl
    | some r =>
      obtain ⟨s, hs, rfl⟩ := Option.map_eq_some_iff.mp h
      have hl := congrArg List.reverse (stripPrefix_eq_some.mp hs)
      rw [List.reverse_reverse, List.reverse_append, List.reverse_reverse] at hl
      exact ⟨p, hl.symm⟩
  exact (hstrip _ _).trans (hstrip _ _)

theorem sseFieldValue_none {line : Bytes} {b : UInt8} {field : Bytes}
    (h : line.head? ≠ some b) : sseFieldValue (lineContent line) (b :: field) = none := by
  rw [sseFieldValue, Option.map_eq_none_iff]
  by_contra hsome
  obtain ⟨r, hr⟩ := Option.ne_none_iff_exists'.mp hsome
  obtain ⟨t, ht⟩ := lineContent_prefix line
  rw [stripPrefix_eq_some.mp hr] at ht
  exact h (ht ▸ rfl)

/-- A line that begins neither with `d` nor with `e` is sent on or dropped as it came. -/
theorem parseSseLine_passThrough (c : Codec) {line : Bytes} (hd : line.head? ≠ some 100)
    (he : line.head? ≠ some 101) : parseSseLine c line = .passThrough line := by
  have hevent : utf8FieldValue (lineContent line) (asBytes "event:") = none := by
    have hfield : asBytes "event:" = 101 :: asBytes "vent:" := by decide
    rw [utf8FieldValue, hfield, sseFieldValue_none he]
    rfl
  have hdata : sseFieldValue (lineContent line) (asBytes "data:") = none := by
    have hfield : asBytes "data:" = 100 :: asBytes "ata:" := by decide
    rw [hfield, sseFieldValue_none hd]
  simp only [parseSseLine, hevent, hdata]

theorem heads_of_isChain {ls : List Bytes} {r : Bytes} (hls : ∀ l ∈ ls, IsLine l)
    (h : (10 :: (ls.flatten ++ r)).IsChain fun x y => x = 10 → y ≠ 100 ∧ y ≠ 101) :
    ∀ l ∈ ls ++ [r], l.head? ≠ some 100 ∧ l.head? ≠ some 101 := by
  have hhead {l t : Bytes} (h : (10 :: (l ++ t)).IsChain fun x y : UInt8 =>
      x = 10 → y ≠ 100 ∧ y ≠ 101) : l.head? ≠ some 100 ∧ l.head? ≠ some 101 := by
    have hne (y : UInt8) (hy : y = 100 ∨ y = 101) : l.head? ≠ some y := by
      intro hl
      have hrel := h.rel_head? (y := y) (by rw [List.head?_append, hl]; rfl) rfl
      obtain rfl | rfl := hy
      · exact hrel.1 rfl
      · exact hrel.2 rfl
    exact ⟨hne 100 (Or.inl rfl), hne 101 (Or.inr rfl)⟩
  induction ls with
  | nil =>
    rw [List.nil_append, List.forall_mem_singleton]
    exact hhead (t := []) (by simpa using h)
  | cons l ls ih =>
    rw [List.forall_mem_cons] at hls
    rw [List.cons_append, List.forall_mem_cons]
    rw [List.flatten_cons, List.append_assoc] at h
    refine ⟨hhead h, ih hls.2 (h.suffix ?_)⟩
    obtain ⟨a, -, rfl⟩ := hls.1
    exact ⟨10 :: a, by simp [nl]⟩

/-- The lines of a stream, with what follows the last newline, if anything does. -/
def streamLines (b : Bytes) : List Bytes :=
  (drainLines b).1 ++ if (drainLines b).2 = [] then [] else [(drainLines b).2]

theorem streamLines_flatten (b : Bytes) : (streamLines b).flatten = b := by
  rw [streamLines, List.flatten_append]
  conv_rhs => rw [← drainLines_flatten b]
  split_ifs with h
  · rw [h]
    rfl
  · rw [List.flatten_cons, List.flatten_nil, List.append_nil]

section Json

variable {c : Codec} (hc : c.LawfulText) {b : Bytes} {v : Value} (h : c.fromSlice b = some v)

include hc h

theorem parse_line_json {l : Bytes} (hl : l ∈ (drainLines b).1 ++ [(drainLines b).2]) :
    parseSseLine c l = .passThrough l := by
  have hchain := hc.no_field b v h
  rw [← drainLines_flatten b] at hchain
  obtain ⟨hd, he⟩ := heads_of_isChain (drainLines_ends b) hchain l hl
  exact parseSseLine_passThrough c hd he

theorem lineFrames_json : lineFrames c b = (drainLines b).1.map .passThrough :=
  List.map_congr_left fun _ hl => parse_line_json hc h (List.mem_append_left _ hl)

theorem tailFrames_json :
    tailFrames c b =
      (if (drainLines b).2 = [] then [] else [(drainLines b).2]).map .passThrough := by
  unfold tailFrames
  split_ifs
  · rfl
  · rw [parse_line_json hc h (List.mem_append_right _ (List.mem_singleton_self _))]
    rfl

/-- **The frames of a JSON text are its lines as they are.** -/
theorem frames_json : frames c b = (streamLines b).map .passThrough := by
  rw [frames, lineFrames_json hc h, tailFrames_json hc h, streamLines, List.map_append]

end Json

/-! ### The strategies -/

namespace SseStrategy

/-- What is sent for a line that no normalizer reads. -/
def raw (s : SseStrategy) (line : Bytes) : List SseOut := (s.handleFrame (.passThrough line)).2

theorem handleFrame_passThrough (s : SseStrategy) (line : Bytes) :
    s.handleFrame (.passThrough line) = (s, s.raw line) := by
  cases s <;> rfl

theorem run_passThrough (s : SseStrategy) (ls : List Bytes) :
    Mealy.run handleFrame s (ls.map .passThrough) = (s, ls.flatMap s.raw) := by
  induction ls with
  | nil => rfl
  | cons l ls ih =>
    rw [List.map_cons, Mealy.run_cons, handleFrame_passThrough]
    dsimp only
    rw [ih, List.flatMap_cons]

theorem handleAll_out (s : SseStrategy) (fs : List SseFrame) :
    (s.handleAll fs).2 =
      (Mealy.run handleFrame s fs).2 ++ (Mealy.run handleFrame s fs).1.finishTail.2 := by
  cases s with
  | native n =>
    rw [run_wrap SseNormalizer.handleFrame .native fun _ _ _ => rfl]
    rfl
  | responses n =>
    rw [run_wrap ResponsesSseNormalizer.handleFrame .responses fun _ _ _ => rfl]
    rfl
  | chatCompletions n =>
    rw [run_wrap ChatCompletionsSseNormalizer.handleFrame .chatCompletions fun _ _ _ => rfl]
    rfl
  | anthropicMessages n =>
    rw [run_wrap AnthropicSseNormalizer.handleFrame .anthropicMessages fun _ _ _ => rfl]
    rfl
  | anthropicMessagesToChat n =>
    rw [run_wrap AnthropicMessagesToChatSseNormalizer.handleFrame .anthropicMessagesToChat
      fun _ _ _ => rfl]
    rfl

theorem clear_new (mode : RequestMode) (backendModel publicModel : Option String) (emit : Bool) :
    (new mode backendModel publicModel emit).clear = new mode backendModel publicModel emit := by
  cases mode <;> rfl

end SseStrategy

theorem run_groupStep_passThrough (c : Codec) {s : SseStrategy} (hs : s.clear = s)
    (m : StreamMetrics) (gs : List (List Bytes)) :
    ∃ m', Mealy.run (groupStep c) (s, m) (gs.map fun ls => ls.map .passThrough) =
      ((s, m'), outBytes c (gs.flatten.flatMap s.raw)) := by
  induction gs generalizing m with
  | nil => exact ⟨m, rfl⟩
  | cons ls gs ih =>
    have hstep : ∃ m', groupStep c (s, m) (ls.map .passThrough) =
        ((s, m'), outBytes c (ls.flatMap s.raw)) := by
      rw [groupStep, SseStrategy.run_passThrough]
      dsimp only
      split_ifs with hempty
      · exact ⟨m, by rw [List.isEmpty_iff.mp hempty]⟩
      · exact ⟨m.collect s, by rw [hs]⟩
    obtain ⟨m', hstep⟩ := hstep
    obtain ⟨m'', hrest⟩ := ih m'
    refine ⟨m'', ?_⟩
    rw [List.map_cons, Mealy.run_cons, hstep]
    dsimp only
    rw [hrest, List.flatten_cons, List.flatMap_append, outBytes_append]

section Json

variable {c : Codec} (hc : c.LawfulText) {chunks : List Bytes} {v : Value}
  (h : c.fromSlice chunks.flatten = some v) (mode : RequestMode)
  (backendModel publicModel : Option String) (emit : Bool)

include hc h

/-- **What is sent for a JSON text**: its lines as they come, or nothing, and the end of an empty
stream. -/
theorem runAll_json :
    let s := SseStrategy.new mode backendModel publicModel emit
    (s.runAll c chunks).2 = (streamLines chunks.flatten).flatMap s.raw ++ s.finishTail.2 := by
  intro s
  rw [SseStrategy.runAll_eq, SseStrategy.handleAll_out, frames_json hc h,
    SseStrategy.run_passThrough]

/-- **The loop of `streaming_response` sends the same.** -/
theorem streamAll_json :
    let s := SseStrategy.new mode backendModel publicModel emit
    (streamAll c s chunks).2 = outBytes c (s.runAll c chunks).2 := by
  intro s
  have hs : s.clear = s := SseStrategy.clear_new _ _ _ _
  have hflatten : (chunkGroups c [] chunks).flatten =
      (drainLines chunks.flatten).1.map .passThrough := by
    rw [flatten_chunkGroups c List.not_mem_nil, List.nil_append, lineFrames_json hc h]
  obtain ⟨gs, hgs, hmap⟩ := exists_map_eq_of_flatten hflatten
  obtain ⟨m, hrun⟩ := run_groupStep_passThrough c hs {} gs
  have hend : (groupEnd c (s, m) (tailFrames c chunks.flatten)).2 =
      outBytes c ((if (drainLines chunks.flatten).2 = [] then []
        else [(drainLines chunks.flatten).2]).flatMap s.raw ++ s.finishTail.2) := by
    rw [groupEnd, tailFrames_json hc h]
    generalize (if (drainLines chunks.flatten).2 = [] then [] else _) = ls
    rw [SseStrategy.run_passThrough]
    dsimp only
    split_ifs with hempty
    · exact (List.isEmpty_iff.mp hempty).symm
    · rfl
  rw [streamAll_eq c (new_withParser mode backendModel publicModel emit), streamGroups, ← hmap]
  dsimp only
  rw [hrun, runAll_json hc h]
  dsimp only
  rw [hend, hgs, ← outBytes_append, ← List.append_assoc, ← List.flatMap_append]
  rfl

end Json

/-! ### What a client reads -/

theorem sentLines_lines (ls : List Bytes) (tail : List SseOut)
    (htail : tail.filterMap SseOut.asLine = []) :
    sentLines ((ls.flatMap fun l => [SseOut.line l]) ++ tail) = ls.flatten := by
  have hls : (ls.flatMap fun l => [SseOut.line l]).filterMap SseOut.asLine = ls := by
    induction ls with
    | nil => rfl
    | cons l ls ih =>
      rw [List.flatMap_cons, List.filterMap_append, ih]
      rfl
  rw [sentLines, List.filterMap_append, hls, htail, List.append_nil]

theorem filterMap_lines {α : Type} {f : SseOut → Option α} (hf : ∀ l, f (.line l) = none)
    (ls : List Bytes) : (ls.flatMap fun l => [SseOut.line l]).filterMap f = [] := by
  rw [List.filterMap_eq_nil_iff]
  intro o ho
  obtain ⟨l, -, ho⟩ := List.mem_flatMap.mp ho
  rw [List.mem_singleton.mp ho, hf]

theorem hidesModel_all {mode : RequestMode} (h : mode.rewritesAll = true) (name : String)
    (v : Value) : hidesModel mode name v = true ↔ namesModel name v = false := by
  rw [hidesModel, if_pos h, Bool.not_eq_true']

theorem hidesModel_top {mode : RequestMode} (h : mode.rewritesAll = false) (name : String)
    (v : Value) : hidesModel mode name v = true ↔ v.get "model" ≠ some (.string name) := by
  rw [hidesModel, if_neg (by rw [h]; exact Bool.false_ne_true), bne_iff_ne]

theorem hidesModel_leaf (mode : RequestMode) (name : String) {v : Value}
    (harray : v.asArray = none) (hobject : v.asObject = none) : hidesModel mode name v = true := by
  have hget : v.get "model" = none := by
    cases v with
    | object m => cases hobject
    | _ => rfl
  unfold hidesModel
  split_ifs
  · rw [namesModel_leaf harray hobject]
    rfl
  · rw [hget]
    rfl

theorem hidesModel_empty {c : Codec} (hc : c.LawfulText) (mode : RequestMode) (name : String) :
    ∀ v ∈ (c.fromSlice []).toList, hidesModel mode name v = true := by
  intro v hv
  rw [Option.mem_toList] at hv
  refine hidesModel_leaf mode name ?_ ?_
  · cases v with
    | array vs => cases hc.array_head _ _ hv
    | _ => rfl
  · cases v with
    | object m => cases hc.object_head _ _ hv
    | _ => rfl

/-! ### Bodies without content -/

/-- A choice without text and tool calls. -/
def EmptyChoice (c : Codec) (choice : Value) : Prop :=
  ∀ message, (choice.get "message").bind Value.asObject = some message →
    choiceText c message = none ∧
      ((OrdMap.get "tool_calls" message).bind Value.asArray).getD [] = []

theorem foldl_speakText_eq_empty {items : List Value} {content : String} :
    items.foldl speakText content = "" → content = "" ∧ ∀ item ∈ items,
      isMessage item = true → isAssistant item = true → (readItem item).text = "" := by
  induction items generalizing content with
  | nil => exact fun h => ⟨h, by simp⟩
  | cons item items ih =>
    intro h
    obtain ⟨hcontent, hitems⟩ := ih h
    rw [List.forall_mem_cons]
    unfold speakText at hcontent
    split_ifs at hcontent with hsaid
    · obtain ⟨hempty, htext⟩ := String.append_eq_empty_iff.mp hcontent
      exact ⟨hempty, fun _ _ => htext, hitems⟩
    · exact ⟨hcontent, fun hmessage hassistant => absurd ⟨hmessage, hassistant⟩ hsaid, hitems⟩

theorem choiceText_ne {c : Codec} {message : List (String × Value)} {text : String}
    (h : choiceText c message = some text) : text ≠ "" := by
  unfold choiceText at h
  split at h
  · dsimp only at h
    split_ifs at h with hnull hempty
    obtain rfl := Option.some.inj h
    exact hempty
  · cases h

theorem choiceToOutput_eq_nil (c : Codec) (responseId : String) (choice : Value × ℕ) :
    (choiceToOutput c responseId choice).1 = [] ↔ EmptyChoice c choice.1 := by
  unfold choiceToOutput EmptyChoice
  cases (choice.1.get "message").bind Value.asObject with
  | none => simp
  | some message => simp [List.zipIdx_eq_nil_iff]

theorem completionOf_eq_nothing {message : String × List ChatToolCall} :
    completionOf message = {} ↔ message = ("", []) := by
  obtain ⟨text, calls⟩ := message
  simp [completionOf, Completion.mk.injEq]

theorem messageItem_spoken (messageId text : String) :
    isMessage (messageItem messageId text) = true ∧
      isAssistant (messageItem messageId text) = true ∧
      (readItem (messageItem messageId text)).text = text := by
  have hcontent : responsesMessageContentToChatText (.array [.obj [("type", .string "output_text"),
      ("text", .string text), ("annotations", .array [])]]) = text := by
    simp [responsesMessageContentToChatText, Value.get_obj]
  refine ⟨?_, ?_, ?_⟩
  · simp [isMessage, readItem, messageItem, Value.get_obj]
  · simp [isAssistant, messageItem, Value.get_obj]
  · simpa [readItem, messageItem, Value.get_obj] using hcontent

theorem functionCallItem_isCall (index : ℕ) (toolCall : Value × ℕ) :
    isCall (functionCallItem index toolCall) = true := by
  simp [isCall, readItem, functionCallItem, Value.get_obj]

theorem choiceToOutput_shows {c : Codec} {responseId : String} {choice : Value × ℕ} {item : Value}
    (h : item ∈ (choiceToOutput c responseId choice).1) :
    isCall item = true ∨
      isMessage item = true ∧ isAssistant item = true ∧ (readItem item).text ≠ "" := by
  unfold choiceToOutput at h
  split at h
  · obtain h | h := List.mem_append.mp h
    · obtain ⟨text, htext, rfl⟩ := Option.map_eq_some_iff.mp (Option.mem_toList.mp h)
      obtain ⟨hmessage, hassistant, hread⟩ := messageItem_spoken
        (messageIdFromResponse responseId choice.2) text
      exact Or.inr ⟨hmessage, hassistant,
        fun hempty => choiceText_ne htext (hread.symm.trans hempty)⟩
    · obtain ⟨toolCall, -, rfl⟩ := List.mem_map.mp h
      exact Or.inl (functionCallItem_isCall _ _)
  · cases h

/-- **A chat completion as a response has no content if none of its choices has some.** -/
theorem responseCompletion_eq_nothing (c : Codec) (object : List (String × Value)) :
    responseCompletion (chatCompletionToResponse c (.object object)) = {} ↔
      ∀ choice ∈ ((OrdMap.get "choices" object).bind Value.asArray).getD [],
        EmptyChoice c choice := by
  set choices := ((OrdMap.get "choices" object).bind Value.asArray).getD [] with hchoices
  set responseId := responseIdFromChat
    (((OrdMap.get "id" object).bind Value.asStr).getD "chatcmpl_unknown") with hid
  set items := (choices.zipIdx.map (choiceToOutput c responseId)).flatMap Prod.fst with hitems
  have houtput : (chatCompletionToResponse c (.object object)).get "output" =
      some (.array items) := by
    simp [chatCompletionToResponse, Value.get_obj, hitems, hchoices, hid]
  have hempty : items = [] ↔ ∀ choice ∈ choices, EmptyChoice c choice := by
    rw [hitems, List.flatMap_eq_nil_iff]
    simp only [List.forall_mem_map, choiceToOutput_eq_nil]
    refine ⟨fun h choice hmem => ?_, fun h choice hmem => h _ (List.fst_mem_of_mem_zipIdx hmem)⟩
    obtain ⟨index, hindex⟩ := List.mem_iff_getElem?.mp hmem
    exact h (choice, index) (List.mem_zipIdx_iff_getElem?.mpr hindex)
  rw [← hempty, responseCompletion, houtput, completionOf_eq_nothing,
    responseOutputToChatMessage_eq rfl]
  constructor
  · intro h
    obtain ⟨htext, hcalls⟩ := Prod.mk.inj h
    have hnoCall : items.any isCall = false := by
      have hcalls := List.isEmpty_iff.mpr hcalls
      rwa [isEmpty_wholeCalls, Bool.not_eq_true'] at hcalls
    rw [List.any_eq_false] at hnoCall
    have hsilent := (foldl_speakText_eq_empty htext).2
    rw [List.eq_nil_iff_forall_not_mem]
    intro item hitem
    obtain ⟨output, houtput, hmem⟩ := List.mem_flatMap.mp hitem
    obtain ⟨choice, -, rfl⟩ := List.mem_map.mp houtput
    obtain hcall | ⟨hmessage, hassistant, hspoken⟩ := choiceToOutput_shows hmem
    · exact hnoCall item hitem hcall
    · exact hspoken (hsilent item hitem hmessage hassistant)
  · intro h
    rw [h]
    rfl

theorem completion_eq_nothing (id : String) (created : UInt64) (model content usage : Value)
    (calls : List ChatToolCall) (reason : FinishReason) :
    (readChatCompletion (chatCompletion id created model
      (.obj ([("role", .string "assistant"), ("content", content)] ++
        if calls.isEmpty then [] else
          [("tool_calls", .array (calls.map ChatToolCall.toValue))])) reason usage)).completion =
        {} ↔ content.asStr.getD "" = "" ∧ calls = [] := by
  rw [readChatCompletion_chatCompletion]
  simp [ChatMessage.completion, Completion.mk.injEq]

theorem responseToChatCompletion_eq_nothing (object : List (String × Value)) :
    (readChatCompletion (responseToChatCompletion (.object object))).completion = {} ↔
      responseOutputToChatMessage (OrdMap.get "output" object) = ("", []) := by
  have hcompletion := completion_eq_nothing
    (chatIdFromResponse (((OrdMap.get "id" object).bind Value.asStr).getD "resp_unknown"))
    ((((OrdMap.get "created_at" object).or (OrdMap.get "created" object)).bind Value.asU64).getD 0)
    ((OrdMap.get "model" object).getD (.string "unknown"))
    (.string (responseOutputToChatMessage (OrdMap.get "output" object)).1)
    (ChatUsage.detailed
      (usageFieldsFromObject ((OrdMap.get "usage" object).bind Value.asObject))).toValue
    (responseOutputToChatMessage (OrdMap.get "output" object)).2
    (responseFinishReason object
      !(responseOutputToChatMessage (OrdMap.get "output" object)).2.isEmpty)
  rw [Prod.ext_iff]
  refine Iff.trans ?_ hcompletion
  cases h : (responseOutputToChatMessage (OrdMap.get "output" object)).2.isEmpty with
  | true => simp only [responseToChatCompletion, h]; rfl
  | false => simp only [responseToChatCompletion, h]; rfl

theorem anthropicMessage_eq_nothing (c : Codec) (object : List (String × Value)) :
    (readChatCompletion (anthropicMessageToChatCompletion c (.object object))).completion = {} ↔
      anthropicContentToChatMessage c (OrdMap.get "content" object) = ("", []) := by
  set message := anthropicContentToChatMessage c (OrdMap.get "content" object) with hmessage
  have hcompletion := completion_eq_nothing
    (chatIdFromAnthropic (((OrdMap.get "id" object).bind Value.asStr).getD "msg_unknown")) 0
    ((OrdMap.get "model" object).getD (.string "unknown"))
    (if message.1 = "" then .null else .string message.1)
    (anthropicUsageToChatUsage (OrdMap.get "usage" object)).toValue message.2
    (anthropicFinishReason object)
  have htext : (if message.1 = "" then Value.null else .string message.1).asStr.getD "" = "" ↔
      message.1 = "" := by
    split_ifs with h
    · simp [h, Value.asStr]
    · simp [h, Value.asStr]
  rw [Prod.ext_iff, ← htext]
  exact hcompletion

/-! ### When the client gets what the body says -/

/-- What the body must be: with no name of the backend model in the native modes; in the converting
modes with no text and no tool calls, and in the mode that sends its lines on with no name of the
backend model; this is not `unknown` where the end of the stream says so. -/
def AnswersWhole (c : Codec) (mode : RequestMode) (backendModel : String) (body : Value) : Prop :=
  match mode with
  | .native => namesModel backendModel body = false
  | .anthropicMessagesNative => body.get "model" ≠ some (.string backendModel)
  | .responsesViaChatCompletions =>
    (∀ choice ∈ ((body.get "choices").bind Value.asArray).getD [], EmptyChoice c choice) ∧
      namesModel backendModel body = false ∧ backendModel ≠ "unknown"
  | .chatCompletionsViaResponses =>
    responseOutputToChatMessage (body.get "output") = ("", []) ∧ backendModel ≠ "unknown"
  | .chatCompletionsViaMessages =>
    anthropicContentToChatMessage c (body.get "content") = ("", [])

/-- The response that ends an empty stream of the Responses API. -/
def emptyResponse : ResponseObject where
  id := "resp_unknown"
  createdAt := 0
  status := .completed
  model := "unknown"
  output := []
  outputText := ""
  usage := {}

/-- The head of the chunk that ends an empty chat stream. -/
def emptyHead : ChunkHead where
  id := chatIdFromResponse "resp_unknown"
  created := 0
  model := "unknown"

section Whole

variable {c : Codec} (hc : c.LawfulText) {b : Bytes} {object : List (String × Value)}
  (h : c.fromSlice b = some (.object object)) (backendModel : String)

include h

theorem answeredInFull_lines (mode : RequestMode) {t : List SseOut}
    (ht : t.filterMap SseOut.asLine = []) :
    (∀ v ∈ receivedValues c (((streamLines b).flatMap fun l => [SseOut.line l]) ++ t),
        hidesModel mode backendModel v = true) ↔
      hidesModel mode backendModel (.object object) = true ∧
        ∀ v ∈ t.filterMap SseOut.value, hidesModel mode backendModel v = true := by
  rw [receivedValues, sentLines_lines _ _ ht, streamLines_flatten, h, List.filterMap_append,
    filterMap_lines (f := SseOut.value) fun _ => rfl]
  exact List.forall_mem_cons

/-- The native modes send the lines of the body. -/
theorem answeredInFull_native {mode : RequestMode}
    (hmode : mode = .native ∨ mode = .anthropicMessagesNative) :
    AnsweredInFull c mode backendModel (.object object)
        (((streamLines b).flatMap fun l => [SseOut.line l]) ++ []) ↔
      AnswersWhole c mode backendModel (.object object) := by
  have hhidden := answeredInFull_lines h backendModel mode (t := []) rfl
  have hlines := sentLines_lines (streamLines b) [] rfl
  obtain ⟨hcontent, hbody⟩ : receivedContent c mode
      (((streamLines b).flatMap fun l => [SseOut.line l]) ++ []) =
        bodyContent c mode (.object object) ∧
      (hidesModel mode backendModel (.object object) = true ↔
        AnswersWhole c mode backendModel (.object object)) := by
    obtain rfl | rfl := hmode
    · refine ⟨?_, hidesModel_all rfl backendModel (.object object)⟩
      rw [receivedContent, hlines, streamLines_flatten, h]
      exact List.append_nil _
    · refine ⟨?_, hidesModel_top rfl backendModel (.object object)⟩
      rw [receivedContent, hlines, streamLines_flatten, h]
      exact List.append_nil _
  exact ⟨fun hfull => hbody.mp (hhidden.mp hfull.hidden).1,
    fun hwhole => ⟨hcontent, hhidden.mpr ⟨hbody.mpr hwhole, by simp⟩⟩⟩

theorem answeredInFull_responses :
    AnsweredInFull c .responsesViaChatCompletions backendModel (.object object)
        (((streamLines b).flatMap fun l => [SseOut.line l]) ++
          [.event (.completed emptyResponse)]) ↔
      AnswersWhole c .responsesViaChatCompletions backendModel (.object object) := by
  have hreceived : receivedContent c .responsesViaChatCompletions
      (((streamLines b).flatMap fun l => [SseOut.line l]) ++
        [.event (.completed emptyResponse)]) = [{}] := by
    rw [receivedContent, List.filterMap_append, filterMap_lines (f := SseOut.asEvent) fun _ => rfl]
    have houtput : emptyResponse.toValue.get "output" = some (.array []) := by
      simp [ResponseObject.toValue, emptyResponse, Value.get_obj]
    change [responseCompletion emptyResponse.toValue] = [{}]
    rw [responseCompletion, houtput]
    rfl
  have hcontent : receivedContent c .responsesViaChatCompletions
      (((streamLines b).flatMap fun l => [SseOut.line l]) ++
        [.event (.completed emptyResponse)]) =
          bodyContent c .responsesViaChatCompletions (.object object) ↔
      ∀ choice ∈ ((OrdMap.get "choices" object).bind Value.asArray).getD [],
        EmptyChoice c choice := by
    rw [hreceived, ← responseCompletion_eq_nothing]
    change [_] = [_] ↔ _
    rw [List.singleton_inj, eq_comm]
    rfl
  have hhidden := answeredInFull_lines h backendModel .responsesViaChatCompletions
    (t := [.event (.completed emptyResponse)]) rfl
  have hevent : (∀ v ∈ [SseOut.event (.completed emptyResponse)].filterMap SseOut.value,
      hidesModel .responsesViaChatCompletions backendModel v = true) ↔
        backendModel ≠ "unknown" := by
    change (∀ v ∈ [(ResponsesEvent.completed emptyResponse).data], _) ↔ _
    rw [List.forall_mem_singleton, hidesModel_all rfl, ResponsesEvent.namesModel_data]
    simp [ResponsesEvent.modelName, emptyResponse, eq_comm]
  have hbody := hidesModel_all
    (show RequestMode.responsesViaChatCompletions.rewritesAll = true from rfl) backendModel
    (.object object)
  rw [hevent, hbody] at hhidden
  exact ⟨fun hfull => ⟨hcontent.mp hfull.content, hhidden.mp hfull.hidden⟩,
    fun hwhole => ⟨hcontent.mpr hwhole.1, hhidden.mpr hwhole.2⟩⟩

end Whole

section Chat

variable {c : Codec} (hc : c.LawfulText) (backendModel : String) (object : List (String × Value))

include hc

theorem answeredInFull_chat (usageNull : Bool) :
    AnsweredInFull c .chatCompletionsViaResponses backendModel (.object object)
        [.chat (.chunk emptyHead .empty (some .stop) usageNull), .chat .done] ↔
      AnswersWhole c .chatCompletionsViaResponses backendModel (.object object) := by
  have hcontent : receivedContent c .chatCompletionsViaResponses
      [.chat (.chunk emptyHead .empty (some .stop) usageNull), .chat .done] =
        bodyContent c .chatCompletionsViaResponses (.object object) ↔
      responseOutputToChatMessage (OrdMap.get "output" object) = ("", []) := by
    rw [← responseToChatCompletion_eq_nothing]
    change [({} : Completion)] = [_] ↔ _
    rw [List.singleton_inj, eq_comm]
    rfl
  have hhidden : (∀ v ∈ receivedValues c
      [.chat (.chunk emptyHead .empty (some .stop) usageNull), .chat .done],
        hidesModel .chatCompletionsViaResponses backendModel v = true) ↔
          backendModel ≠ "unknown" := by
    obtain ⟨v, hv⟩ : ∃ v, (ChatFrame.chunk emptyHead .empty (some .stop) usageNull).data =
        some v := ⟨_, rfl⟩
    have hvalues : receivedValues c
        [.chat (.chunk emptyHead .empty (some .stop) usageNull), .chat .done] =
          (c.fromSlice []).toList ++ [v] := by
      have hout : [SseOut.chat (.chunk emptyHead .empty (some .stop) usageNull),
          SseOut.chat .done].filterMap SseOut.value = [v] :=
        List.filterMap_cons_some (f := SseOut.value) hv
      rw [receivedValues, hout]
      rfl
    have hempty := hidesModel_empty hc .chatCompletionsViaResponses backendModel
    rw [hvalues, List.forall_mem_append, List.forall_mem_singleton, hidesModel_all rfl,
      ChatFrame.namesModel_data backendModel hv, and_iff_right hempty]
    simp [ChatFrame.modelName, emptyHead, eq_comm]
  exact ⟨fun hfull => ⟨hcontent.mp hfull.content, hhidden.mp hfull.hidden⟩,
    fun hwhole => ⟨hcontent.mpr hwhole.1, hhidden.mpr hwhole.2⟩⟩

theorem answeredInFull_messages :
    AnsweredInFull c .chatCompletionsViaMessages backendModel (.object object) [.chat .done] ↔
      AnswersWhole c .chatCompletionsViaMessages backendModel (.object object) := by
  have hcontent : receivedContent c .chatCompletionsViaMessages [.chat .done] =
        bodyContent c .chatCompletionsViaMessages (.object object) ↔
      anthropicContentToChatMessage c (OrdMap.get "content" object) = ("", []) := by
    rw [← anthropicMessage_eq_nothing]
    change [({} : Completion)] = [_] ↔ _
    rw [List.singleton_inj, eq_comm]
    rfl
  have hvalues : receivedValues c [.chat .done] = (c.fromSlice []).toList := List.append_nil _
  refine ⟨fun hfull => hcontent.mp hfull.content, fun hwhole => ⟨hcontent.mpr hwhole, ?_⟩⟩
  rw [hvalues]
  exact hidesModel_empty hc .chatCompletionsViaMessages backendModel

end Chat

/-! ### The whole answer -/

/-- What the frames of a stream become. -/
def streamOut (S : Services) (ctx : ProxyContext) (response : UpstreamResponse) : List SseOut :=
  ((SseStrategy.new ctx.route.requestMode ctx.route.backendModel ctx.route.publicModel
    (ctx.labels.route != "chat_completions" || ctx.clientStreamUsageRequested)).runAll S.codec
      (streamChunks response.body)).2

/-- A request for a stream was sent to a model of a backend, which answers with a JSON object. -/
structure JsonAnswer (S : Services) (ctx : ProxyContext) (response : UpstreamResponse)
    (backendModel publicModel : String) (object : List (String × Value)) : Prop where
  stream : ctx.labels.stream = true
  backend : ctx.route.backendModel = some backendModel
  model : ctx.route.publicModel = some publicModel
  success : isSuccess response.status = true
  contentType : isJsonContentType (headerStr response.headers "content-type") = true
  ended : streamEnding response.body = .ended
  body : S.codec.fromSlice (streamChunks response.body).flatten = some (.object object)

theorem flatMap_raw_eq_nil {s : SseStrategy} (h : ∀ l, s.raw l = []) (ls : List Bytes) :
    ls.flatMap s.raw = [] :=
  List.flatMap_eq_nil_iff.mpr fun l _ => h l

section Answer

variable {S : Services} {ctx : ProxyContext} {response : UpstreamResponse}
  {backendModel publicModel : String} {object : List (String × Value)}

theorem json_answer_yielded (hc : S.codec.LawfulText)
    (h : JsonAnswer S ctx response backendModel publicModel object) :
    yieldedBytes (streamEffects S ctx response) =
      outBytes S.codec (streamOut S ctx response) := by
  have hbytes := streamAll_json hc h.body ctx.route.requestMode ctx.route.backendModel
    ctx.route.publicModel (ctx.labels.route != "chat_completions" || ctx.clientStreamUsageRequested)
  rw [streamEffects_yielded, h.ended, streamOutput, h.stream, streamOut, ← hbytes]
  rfl

theorem json_answer_full_iff (hc : S.codec.LawfulText)
    (h : JsonAnswer S ctx response backendModel publicModel object) :
    AnsweredInFull S.codec ctx.route.requestMode backendModel (.object object)
        (streamOut S ctx response) ↔
      AnswersWhole S.codec ctx.route.requestMode backendModel (.object object) := by
  unfold streamOut
  rw [runAll_json hc h.body, h.backend, h.model]
  generalize (ctx.labels.route != "chat_completions" || ctx.clientStreamUsageRequested) = emit
  cases ctx.route.requestMode with
  | native => exact answeredInFull_native h.body backendModel (.inl rfl)
  | anthropicMessagesNative => exact answeredInFull_native h.body backendModel (.inr rfl)
  | responsesViaChatCompletions => exact answeredInFull_responses h.body backendModel
  | chatCompletionsViaResponses =>
    have hnone := flatMap_raw_eq_nil (s := SseStrategy.new .chatCompletionsViaResponses
      (some backendModel) (some publicModel) emit) (fun _ => rfl)
    rw [hnone]
    cases emit
    · exact answeredInFull_chat hc backendModel object false
    · exact answeredInFull_chat hc backendModel object true
  | chatCompletionsViaMessages =>
    have hnone := flatMap_raw_eq_nil (s := SseStrategy.new .chatCompletionsViaMessages
      (some backendModel) (some publicModel) emit) (fun _ => rfl)
    rw [hnone]
    exact answeredInFull_messages hc backendModel object

/-- **A JSON answer to a request for a stream reaches the client as the body says, if and only if**
the mode sends the lines of the body on and the body does not name the backend model, or there is
nothing in the body to lose. -/
theorem json_answer_iff (hc : S.codec.LawfulText)
    (h : JsonAnswer S ctx response backendModel publicModel object) :
    handleResponse S ctx.labels.stream ctx response = streamResponse S ctx response ∧
      yieldedBytes (streamEffects S ctx response) = outBytes S.codec (streamOut S ctx response) ∧
      (AnsweredInFull S.codec ctx.route.requestMode backendModel (.object object)
          (streamOut S ctx response) ↔
        AnswersWhole S.codec ctx.route.requestMode backendModel (.object object)) := by
  refine ⟨?_, json_answer_yielded hc h, json_answer_full_iff hc h⟩
  rw [handleResponse, h.success, h.stream]
  rfl

end Answer

/-- A route to the model `b` of a backend, in a mode. -/
def modelRoute (mode : RequestMode) : SelectedRoute :=
  { plainRoute "a" with publicModel := some "p", backendModel := some "b", requestMode := mode }

/-- A request for a stream from such a route. -/
def streamContext (mode : RequestMode) : ProxyContext :=
  routedContext plainServices
    { modelsRequest with shape := { model := some "p", stream := true } } (modelRoute mode) 1

/-- A backend that answers with a JSON text. -/
def jsonResponse (text : String) : UpstreamResponse where
  status := 200
  headers := [("content-type", asBytes "application/json")]
  remoteAddr := none
  body := [{ next := some (.ok (asBytes text)) }, { next := none }]

/-- A text, and the name of the model of the backend. -/
def greeting : List (String × Value) :=
  [("model", .string "b"), ("output", .array [.obj [("type", .string "message"),
    ("role", .string "assistant"), ("content", .string "hi")]])]

/-- The same as the backend sends it. -/
def greetingText : String :=
  "\x7b\"model\":\"b\",\"output\":[\x7b\"type\":\"message\",\"role\":\"assistant\"," ++
    "\"content\":\"hi\"\x7d]\x7d"

theorem jsonAnswer_greeting (mode : RequestMode) :
    JsonAnswer plainServices (streamContext mode) (jsonResponse greetingText) "b" "p" greeting where
  stream := rfl
  backend := rfl
  model := rfl
  success := by decide
  contentType := by decide +kernel
  ended := rfl
  body := by decide +kernel

/-- The text is lost in a chat stream. -/
theorem json_answer_iff_greeting :
    handleResponse plainServices true (streamContext .chatCompletionsViaResponses)
        (jsonResponse greetingText) = streamResponse plainServices
          (streamContext .chatCompletionsViaResponses) (jsonResponse greetingText) ∧
      ¬AnswersWhole plainServices.codec .chatCompletionsViaResponses "b" (.object greeting) := by
  obtain ⟨hstream, -, -⟩ := json_answer_iff Json.reference_lawfulText
    (jsonAnswer_greeting .chatCompletionsViaResponses)
  refine ⟨hstream, fun hwhole => ?_⟩
  exact absurd hwhole.1 (by decide +kernel)

/-- The backend answers with the greeting, and the stream that the client gets is not the answer. -/
def GreetingSpoilt (mode : RequestMode) : Prop :=
  JsonAnswer plainServices (streamContext mode) (jsonResponse greetingText) "b" "p" greeting ∧
    ¬AnsweredInFull plainServices.codec mode "b" (.object greeting)
      (streamOut plainServices (streamContext mode) (jsonResponse greetingText))

theorem greetingSpoilt {mode : RequestMode}
    (h : ¬AnswersWhole plainServices.codec mode "b" (.object greeting)) : GreetingSpoilt mode := by
  refine ⟨jsonAnswer_greeting mode, fun hfull => h ?_⟩
  exact (json_answer_full_iff Json.reference_lawfulText (jsonAnswer_greeting mode)).mp hfull

/-- In a chat stream the text is lost, and in a native one the name of the model shows. -/
theorem not_answeredInFull_greeting :
    GreetingSpoilt .chatCompletionsViaResponses ∧ GreetingSpoilt .native := by
  constructor
  · refine greetingSpoilt fun hwhole => ?_
    exact absurd hwhole.1 (by decide +kernel)
  · refine greetingSpoilt fun hwhole => ?_
    change namesModel "b" (.object greeting) = false at hwhole
    exact absurd hwhole (by decide +kernel)

end Onair
