import Onair.Request.History

/-!
# The tool calls of a converted request

Every tool call of an input must have its output, or the request is refused. The check trims the
ids, the conversion does not.

* `ToolCallsAnswered`: every tool call of a chat has a message of a tool with its id;
* `itemCallIds`, `itemAnswerIds`: the ids that an item of an input gives to a tool call, and to a
  message of a tool;
* `appendResponsesInputItem_ids`: the ids of a chat are those of the items;
* **`toolCallsAnswered_iff_callsAnswered`**: the tool calls of the chat are answered if and only if
  the items say so.
-/

namespace Onair

open Json Text Fallible

/-! ### Chats -/

/-- **Every tool call is answered**: a message of a tool has the same string for an id. -/
def ToolCallsAnswered (messages : List Value) : Prop :=
  ∀ message ∈ messages, ∀ toolCall ∈ arrayField message "tool_calls",
    ∃ id, toolCall.get "id" = some (.string id) ∧
      ∃ answer ∈ messages, textField answer "role" = "tool" ∧
        answer.get "tool_call_id" = some (.string id)

/-- The ids of the tool calls of a message. -/
def messageCallIds (message : Value) : List (Option Value) :=
  (arrayField message "tool_calls").map (Value.get · "id")

/-- The id of the tool call that a message answers. -/
def messageAnswerIds (message : Value) : List (Option Value) :=
  if textField message "role" = "tool" then [message.get "tool_call_id"] else []

theorem toolCallsAnswered_iff {messages : List Value} : ToolCallsAnswered messages ↔
    ∀ id ∈ messages.flatMap messageCallIds, ∃ text, id = some (.string text) ∧
      id ∈ messages.flatMap messageAnswerIds := by
  have hanswer : ∀ text : String, (∃ answer ∈ messages, textField answer "role" = "tool" ∧
      answer.get "tool_call_id" = some (.string text)) ↔
        some (.string text) ∈ messages.flatMap messageAnswerIds := by
    intro text
    rw [List.mem_flatMap]
    refine exists_congr fun answer => and_congr_right fun _ => ?_
    unfold messageAnswerIds
    split_ifs with hrole
    · rw [List.mem_singleton, and_iff_right hrole, eq_comm]
    · simp [hrole]
  constructor
  · intro h id hid
    obtain ⟨message, hmessage, hid⟩ := List.mem_flatMap.mp hid
    obtain ⟨toolCall, htoolCall, rfl⟩ := List.mem_map.mp hid
    obtain ⟨text, htext, hanswered⟩ := h message hmessage toolCall htoolCall
    exact ⟨text, htext, htext ▸ (hanswer text).mp hanswered⟩
  · intro h message hmessage toolCall htoolCall
    obtain ⟨text, htext, hid⟩ := h (toolCall.get "id")
      (List.mem_flatMap.mpr ⟨message, hmessage, List.mem_map_of_mem htoolCall⟩)
    exact ⟨text, htext, (hanswer text).mpr (htext ▸ hid)⟩

/-! ### Items -/

/-- The type of an item. -/
def itemType (item : Value) : Option String := (item.get "type").bind Value.asStr

/-- The id of a tool call, as it is. -/
def itemCallIds (item : Value) : List (Option Value) :=
  if itemType item = some "function_call" then [item.get "call_id"] else []

/-- The id of the tool call that an item answers, as it is: the item is the output of a tool, or a
message of a tool. -/
def itemAnswerIds (item : Value) : List (Option Value) :=
  if itemType item = some "function_call_output" then [item.get "call_id"]
  else if itemType item = some "function_call" ∨ itemType item = some "reasoning" then []
  else if textField item "role" = "tool" then
    [(item.get "tool_call_id").or (item.get "call_id")]
  else []

/-- **Every tool call of an input is answered** under its own id, as it is. -/
def CallsAnswered (input : List Value) : Prop :=
  ∀ id ∈ input.flatMap itemCallIds, id ∈ input.flatMap itemAnswerIds

section

variable {c : Codec} {messages messages' : List Value} {item : Value}

theorem messageCallIds_insert_ne {object : List (String × Value)} {k : String}
    (h : k ≠ "tool_calls") (v : Value) : messageCallIds (.object (OrdMap.insert k v object)) =
      messageCallIds (.object object) := by
  unfold messageCallIds arrayField
  rw [Value.get_object, Value.get_object, OrdMap.get_insert_ne h.symm]

theorem messageCallIds_pushToolCall {toolCall : ChatToolCall} {message pushed : Value}
    (h : pushToolCall toolCall message = some pushed) :
    messageCallIds pushed = messageCallIds message ++ [some (.string toolCall.id)] ∧
      messageAnswerIds message = [] ∧ messageAnswerIds pushed = [] := by
  unfold pushToolCall at h
  split at h
  · rename_i object
    split_ifs at h with hassistant
    split at h
    · rename_i toolCalls htoolCalls
      have hrole : textField (.object object) "role" = "assistant" :=
        textField_of_stringField hassistant
      have hids : messageCallIds (.object (OrdMap.insert "tool_calls"
          (.array (toolCalls ++ [toolCall.toValue])) object)) =
            messageCallIds (.object object) ++ [some (.string toolCall.id)] := by
        unfold messageCallIds arrayField
        rw [Value.get_object, Value.get_object, OrdMap.get_insert_self, htoolCalls]
        simp [Value.asArray, ChatToolCall.toValue, Value.get_obj]
      have hanswer : messageAnswerIds (.object object) = [] := by
        rw [messageAnswerIds, hrole, if_neg (by decide)]
      dsimp only at h
      split_ifs at h
      · obtain rfl := Option.some.inj h
        refine ⟨?_, hanswer, ?_⟩
        · rw [messageCallIds_insert_ne (by decide), hids]
        · rw [messageAnswerIds, textField_insert_ne (by decide), textField_insert_ne (by decide),
            hrole, if_neg (by decide)]
      · obtain rfl := Option.some.inj h
        refine ⟨hids, hanswer, ?_⟩
        rw [messageAnswerIds, textField_insert_ne (by decide), hrole, if_neg (by decide)]
    · cases h
  · cases h

theorem responsesMessageToChat_ids {object : List (String × Value)} {message : Value}
    (h : responsesMessageToChat c object = .ok message) :
    messageCallIds message = [] ∧ messageAnswerIds message =
      if textField (.object object) "role" = "tool" then
        [(OrdMap.get "tool_call_id" object).or (OrdMap.get "call_id" object)]
      else [] := by
  unfold responsesMessageToChat at h
  simp only [bind_eq_ok, okOr_eq_ok, pure_eq_ok] at h
  obtain ⟨role, hrole, content, -, converted, -, rfl⟩ := h
  have hget : ∀ k, k ≠ "name" → k ≠ "content" → OrdMap.get k (copyFields ["name"] object
      (OrdMap.insert "content" converted [("role", .string role)])) =
        OrdMap.get k [("role", .string role)] := by
    intro k hname hcontent
    rw [get_copyFields_ne (by simpa using hname), OrdMap.get_insert_ne hcontent]
  -- a message has the role of a tool if and only if the item does
  have htool : role = "tool" ↔ textField (.object object) "role" = "tool" := by
    have hfield : textField (.object object) "role" = (stringField object "role").getD "" := rfl
    rw [hfield]
    cases hstring : stringField object "role" with
    | none =>
      rw [hstring] at hrole
      obtain rfl := Except.ok.inj hrole
      exact iff_of_false (by decide) (by decide)
    | some itemRole =>
      rw [hstring, Option.getD_some] at hrole
      unfold responsesRoleToChat at hrole
      split_ifs at hrole with hdeveloper
      · obtain rfl := Except.ok.inj hrole
        subst hdeveloper
        exact iff_of_false (by decide) (by decide)
      · obtain rfl := Except.ok.inj hrole
        rfl
  -- and the id of a tool call, if there is one
  have hmessage : ∀ message : List (String × Value),
      (∀ k, k ≠ "tool_call_id" → k ≠ "name" → k ≠ "content" →
        OrdMap.get k message = OrdMap.get k [("role", .string role)]) →
      messageCallIds (.object message) = [] ∧
        textField (.object message) "role" = role := by
    intro message hframe
    unfold messageCallIds arrayField textField
    rw [Value.get_object, Value.get_object, hframe _ (by decide) (by decide) (by decide),
      hframe _ (by decide) (by decide) (by decide)]
    exact ⟨rfl, rfl⟩
  split
  · rename_i toolCallId hid
    obtain ⟨hcalls, hroleField⟩ := hmessage (OrdMap.insert "tool_call_id" toolCallId
      (copyFields ["name"] object (OrdMap.insert "content" converted [("role", .string role)])))
      fun k htoolCallId hname hcontent => by
        rw [OrdMap.get_insert_ne htoolCallId, hget k hname hcontent]
    refine ⟨hcalls, ?_⟩
    rw [messageAnswerIds, hroleField, Value.get_object, OrdMap.get_insert_self, hid]
    simp only [htool]
  · rename_i hid
    obtain ⟨hcalls, hroleField⟩ := hmessage
      (copyFields ["name"] object (OrdMap.insert "content" converted [("role", .string role)]))
      fun k _ hname hcontent => hget k hname hcontent
    refine ⟨hcalls, ?_⟩
    rw [messageAnswerIds, hroleField, Value.get_object, hget _ (by decide) (by decide), hid]
    simp only [htool]
    rfl

/-- **The ids of a message are those of the item.** -/
theorem responsesInputItemToChatMessage_ids {message : Value}
    (hitem : itemType item ≠ some "function_call")
    (h : responsesInputItemToChatMessage c item = .ok message) :
    messageCallIds message = itemCallIds item ∧ messageAnswerIds message = itemAnswerIds item := by
  unfold itemCallIds itemAnswerIds
  rw [if_neg hitem]
  cases item with
  | string text =>
    obtain rfl := Except.ok.inj h
    have hitemType : itemType (.string text) = none := rfl
    have hrole : textField (.string text) "role" = "" := rfl
    rw [hitemType, hrole]
    simp [messageCallIds, messageAnswerIds, arrayField, textField, Value.get_obj]
  | object object =>
    unfold responsesInputItemToChatMessage at h
    have htype : itemType (.object object) = stringField object "type" := rfl
    rw [htype] at hitem ⊢
    dsimp only at h
    split at h
    · rename_i hcall
      exact absurd hcall hitem
    · rename_i houtput
      unfold responsesFunctionOutputToChatMessage at h
      simp only [bind_eq_ok, okOr_eq_ok, pure_eq_ok] at h
      obtain ⟨callId, hcallId, output, -, rfl⟩ := h
      rw [if_pos houtput, Value.get_object, stringField_eq_some.mp hcallId]
      simp [messageCallIds, messageAnswerIds, toolMessage, arrayField, textField, Value.get_obj]
    · rename_i hreasoning
      obtain rfl := Except.ok.inj h
      rw [if_neg (by rw [hreasoning]; decide), if_pos (Or.inr hreasoning)]
      simp [messageCallIds, messageAnswerIds, responsesReasoningToChatMessage, arrayField,
        textField, Value.get_obj]
    · rename_i houtput hreasoning
      rw [if_neg houtput, if_neg (not_or_intro hitem hreasoning)]
      exact responsesMessageToChat_ids h
  | _ => cases h

/-- A tool call has the id of its item, as it is. -/
theorem responsesFunctionCallToChatToolCall_id {object : List (String × Value)}
    {toolCall : ChatToolCall} (h : responsesFunctionCallToChatToolCall object = .ok toolCall) :
    OrdMap.get "call_id" object = some (.string toolCall.id) := by
  unfold responsesFunctionCallToChatToolCall at h
  simp only [bind_eq_ok, okOr_eq_ok, pure_eq_ok] at h
  obtain ⟨callId, hcallId, name, -, rfl⟩ := h
  exact stringField_eq_some.mp hcallId

theorem functionCallEntries_eq_some {object : List (String × Value)} :
    functionCallEntries item = some object ↔
      item = .object object ∧ itemType item = some "function_call" := by
  unfold functionCallEntries itemType
  rw [Option.filter_eq_some_iff, Value.asObject_eq_some]
  refine and_congr_right fun hobject => ?_
  rw [hobject, decide_eq_true_iff]
  rfl

/-- **An item adds its ids**, and that of a tool call is a string. -/
theorem appendResponsesInputItem_ids
    (h : appendResponsesInputItem c messages item = .ok messages') :
    messages'.flatMap messageCallIds = messages.flatMap messageCallIds ++ itemCallIds item ∧
      messages'.flatMap messageAnswerIds =
        messages.flatMap messageAnswerIds ++ itemAnswerIds item ∧
      ∀ id ∈ itemCallIds item, ∃ text, id = some (.string text) := by
  unfold appendResponsesInputItem at h
  cases hentries : functionCallEntries item with
  | none =>
    rw [hentries] at h
    obtain ⟨message, hmessage, h⟩ := bind_eq_ok.mp h
    obtain rfl := pure_eq_ok.mp h
    have hitem : itemType item ≠ some "function_call" := by
      intro htype
      obtain ⟨object, rfl⟩ : ∃ object, item = .object object := by
        cases item with
        | object object => exact ⟨object, rfl⟩
        | _ => exact nomatch htype
      exact nomatch hentries.symm.trans (functionCallEntries_eq_some.mpr ⟨rfl, htype⟩)
    obtain ⟨hcalls, hanswers⟩ := responsesInputItemToChatMessage_ids hitem hmessage
    rw [List.flatMap_append, List.flatMap_append, List.flatMap_singleton, List.flatMap_singleton,
      hcalls, hanswers]
    refine ⟨rfl, rfl, ?_⟩
    rw [itemCallIds, if_neg hitem]
    simp
  | some object =>
    rw [hentries] at h
    obtain ⟨rfl, htype⟩ := functionCallEntries_eq_some.mp hentries
    obtain ⟨toolCall, htoolCall, h⟩ := bind_eq_ok.mp h
    have hcalls : itemCallIds (.object object) = [some (.string toolCall.id)] := by
      rw [itemCallIds, if_pos htype, Value.get_object,
        responsesFunctionCallToChatToolCall_id htoolCall]
    have hanswers : itemAnswerIds (.object object) = [] := by
      rw [itemAnswerIds, if_neg (by rw [htype]; decide), if_pos (Or.inl htype)]
    rw [hcalls, hanswers]
    refine and_assoc.mp ⟨?_, by simp⟩
    cases hpush : messages.getLast?.bind (pushToolCall toolCall) with
    | none =>
      rw [hpush] at h
      obtain rfl := pure_eq_ok.mp h
      simp [toolCallMessage, messageCallIds, messageAnswerIds, arrayField, textField,
        Value.get_obj, Value.asArray, ChatToolCall.toValue]
    | some pushed =>
      rw [hpush] at h
      obtain rfl := pure_eq_ok.mp h
      obtain ⟨last, hlast, hpushed⟩ := Option.bind_eq_some_iff.mp hpush
      obtain ⟨init, rfl⟩ := List.getLast?_eq_some_iff.mp hlast
      obtain ⟨hids, hbefore, hafter⟩ := messageCallIds_pushToolCall hpushed
      rw [List.dropLast_concat]
      simp only [List.flatMap_append, List.flatMap_singleton, hids, hbefore, hafter,
        List.append_assoc, List.append_nil]
      exact ⟨trivial, trivial⟩

/-- **The ids of a chat are those of the input**, and those of the tool calls are strings. -/
theorem responsesInputToChatMessages_ids {input : Value}
    (h : responsesInputToChatMessages c input = .ok messages) :
    messages.flatMap messageCallIds = (input.asArray.getD []).flatMap itemCallIds ∧
      messages.flatMap messageAnswerIds = (input.asArray.getD []).flatMap itemAnswerIds ∧
      ∀ id ∈ messages.flatMap messageCallIds, ∃ text, id = some (.string text) := by
  unfold responsesInputToChatMessages at h
  split at h
  · obtain rfl := Except.ok.inj h
    simp [messageCallIds, messageAnswerIds, arrayField, textField, Value.get_obj, Value.asArray]
  · rename_i items
    refine ⟨?_, ?_, ?_⟩
    · refine foldlM_flatMap (List.flatMap messageCallIds) (fun s item _ s' hs => ?_) h
      exact (appendResponsesInputItem_ids hs).1
    · refine foldlM_flatMap (List.flatMap messageAnswerIds) (fun s item _ s' hs => ?_) h
      exact (appendResponsesInputItem_ids hs).2.1
    refine foldlM_inv (I := fun messages => ∀ id ∈ messages.flatMap messageCallIds,
      ∃ text, id = some (.string text)) (fun s item _ s' hs hstep id hid => ?_) (by simp) h
    obtain ⟨hids, -, hstring⟩ := appendResponsesInputItem_ids hstep
    rw [hids] at hid
    exact (List.mem_append.mp hid).elim (hs id) (hstring id)
  · cases h

end

/-! ### The request -/

theorem responsesRequestToChat_eq_ok {c : Codec} {object chat : List (String × Value)}
    {backendModel : Option String} {toolSchemaMode : ToolSchemaMode}
    {chatStreamUsage : ChatStreamUsagePolicy}
    (h : responsesRequestToChat c object backendModel toolSchemaMode chatStreamUsage = .ok chat) :
    ∃ input messages, OrdMap.get "input" object = some input ∧
      responsesInputToChatMessages c input = .ok messages ∧
      OrdMap.get "messages" chat = some (.array (instructionsMessage object ++ messages)) := by
  unfold responsesRequestToChat at h
  simp only [bind_eq_ok, okOr_eq_ok, pure_eq_ok] at h
  obtain ⟨-, -, input, hinput, messages, hmessages, model, -, tooled, htools, rfl⟩ := h
  refine ⟨input, messages, hinput, hmessages, ?_⟩
  have hpolicy : ∀ fields, OrdMap.get "messages" (applyChatStreamUsagePolicy fields
      chatStreamUsage) = OrdMap.get "messages" fields := by
    intro fields
    obtain he | ⟨_, he, -⟩ := applyChatStreamUsagePolicy_cases fields chatStreamUsage
    · rw [he]
    · rw [he, OrdMap.get_insert_ne (by decide)]
  have htooled : OrdMap.get "messages" tooled =
      some (.array (instructionsMessage object ++ messages)) := by
    rw [get_withTools_ne htools (by decide)]
    split
    · rw [OrdMap.get_insert_ne (by decide)]
      split
      · rw [OrdMap.get_insert_ne (by decide), get_copyFields_ne (by decide), OrdMap.get_ofList]
        simp
      · rw [get_copyFields_ne (by decide), OrdMap.get_ofList]
        simp
    · split
      · rw [OrdMap.get_insert_ne (by decide), get_copyFields_ne (by decide), OrdMap.get_ofList]
        simp
      · rw [get_copyFields_ne (by decide), OrdMap.get_ofList]
        simp
  rw [hpolicy]
  split
  · rw [OrdMap.get_insert_ne (by decide), htooled]
  · exact htooled

theorem instructionsMessage_ids (object : List (String × Value)) :
    (instructionsMessage object).flatMap messageCallIds = [] ∧
      (instructionsMessage object).flatMap messageAnswerIds = [] := by
  unfold instructionsMessage
  cases (stringField object "instructions").filter nonBlank with
  | none => exact ⟨rfl, rfl⟩
  | some instructions =>
    simp [messageCallIds, messageAnswerIds, arrayField, textField, Value.get_obj]

/-- The items of the input of a request. -/
def inputItems (object : List (String × Value)) : List Value :=
  arrayField (.object object) "input"

/-- **The history that is sent is well formed**: all of its tool calls are answered. -/
def HistoryWellFormed (c : Codec) (f : Form) (args : RewriteArgs) : Prop :=
  ∃ sent messages, forwardedBody c f args = .ok (.object sent) ∧
    OrdMap.get "messages" sent = some (.array messages) ∧ ToolCallsAnswered messages

section

variable {c : Codec} {f : Form} {args : RewriteArgs} {object : List (String × Value)}

theorem forwardedBody_viaChat (hmode : args.requestMode = .responsesViaChatCompletions)
    (hsorted : OrdMap.Sorted args.extraBody) (hbody : c.fromSlice args.body = some (.object object))
    {out : ForwardedBody} (h : forwardedBody c f args = .ok out) :
    ∃ sent messages, out = .object sent ∧ OrdMap.get "messages" sent = some (.array messages) ∧
      (ToolCallsAnswered messages ↔ CallsAnswered (inputItems object)) := by
  obtain ⟨-, h⟩ := forwardedBody_eq_ok.mp h
  rw [hmode] at h
  obtain ⟨_, hread, chat, hchat, rfl⟩ := h
  obtain rfl := Value.object.inj
    (Option.some.inj (hbody.symm.trans (readRequestObject_eq_ok hread)))
  obtain ⟨input, messages, hinput, hmessages, hget⟩ := responsesRequestToChat_eq_ok hchat
  obtain ⟨hcalls, hanswers, hstring⟩ := responsesInputToChatMessages_ids hmessages
  obtain ⟨hnoCalls, hnoAnswers⟩ := instructionsMessage_ids object
  refine ⟨_, instructionsMessage object ++ messages, rfl, ?_, ?_⟩
  · rw [overlaid_applyExtraBody hsorted, hget]
    rfl
  · have hitems : inputItems object = input.asArray.getD [] := by
      rw [inputItems, arrayField, Value.get_object, hinput, Option.bind_some]
    rw [toolCallsAnswered_iff, List.flatMap_append, List.flatMap_append, hnoCalls, hnoAnswers,
      List.nil_append, List.nil_append, hitems, CallsAnswered, ← hcalls, ← hanswers]
    constructor
    · intro h id hid
      exact (h id hid).choose_spec.2
    · intro h id hid
      obtain ⟨text, htext⟩ := hstring id hid
      exact ⟨text, htext, h id hid⟩

/-- **The history that is sent is well formed if and only if** every tool call of the input is
answered under its own id, as it is. -/
theorem toolCallsAnswered_iff_callsAnswered
    (hmode : args.requestMode = .responsesViaChatCompletions)
    (hsorted : OrdMap.Sorted args.extraBody) (hbody : c.fromSlice args.body = some (.object object))
    {bytes : Bytes} (h : rewriteRequestBodyForModeWithPolicies c f args = .ok bytes) :
    HistoryWellFormed c f args ↔ CallsAnswered (inputItems object) := by
  obtain ⟨out, hout, -⟩ := forwardedBody_of_accepted h
  obtain ⟨sent, messages, rfl, hget, hiff⟩ := forwardedBody_viaChat hmode hsorted hbody hout
  rw [← hiff]
  constructor
  · rintro ⟨_, _, hsent, hmessages, hanswered⟩
    obtain rfl := ForwardedBody.object.inj (Except.ok.inj (hout.symm.trans hsent))
    obtain rfl := Value.array.inj (Option.some.inj (hget.symm.trans hmessages))
    exact hanswered
  · exact fun hanswered => ⟨sent, messages, hout, hget, hanswered⟩

end

instance (input : List Value) : Decidable (CallsAnswered input) :=
  inferInstanceAs (Decidable (∀ id ∈ input.flatMap itemCallIds,
    id ∈ input.flatMap itemAnswerIds))

/-- A request with a tool call and the output for a tool call. -/
def sampleCall (answered : String) : RewriteArgs where
  body := asBytes ("\x7b\"input\":[" ++
    "\x7b\"call_id\":\"a\",\"name\":\"f\",\"type\":\"function_call\"\x7d," ++
    "\x7b\"call_id\":\"" ++ answered ++ "\",\"output\":\"\"," ++
    "\"type\":\"function_call_output\"\x7d" ++ "]\x7d")
  contentType := none
  backendModel := some "backend"
  upstreamPath := "/v1/responses"
  requestMode := .responsesViaChatCompletions
  policies := {}
  anthropicMaxTokens := none
  extraBody := []
  routeLabel := "public"

/-- The fields of the sample. -/
def sampleCallFields (answered : String) : List (String × Value) :=
  [("input", .array [
    .object [("call_id", .string "a"), ("name", .string "f"), ("type", .string "function_call")],
    .object [("call_id", .string answered), ("output", .string ""),
      ("type", .string "function_call_output")]])]

theorem sorted_sampleCall (answered : String) : OrdMap.Sorted (sampleCall answered).extraBody :=
  List.Pairwise.nil

/-- A tool call is answered under its own id. -/
theorem toolCallsAnswered_iff_callsAnswered_sample :
    HistoryWellFormed reference Form.reference (sampleCall "a") := by
  obtain ⟨bytes, haccepted⟩ := exists_ok_of_isOk
    (show (rewriteRequestBodyForModeWithPolicies reference Form.reference
      (sampleCall "a")).isOk = true by
        rw [reference_eq_direct, sampleCall, asBytes_eq_data]
        decide +kernel)
  have hbody : reference.fromSlice (sampleCall "a").body =
      some (.object (sampleCallFields "a")) := by
    rw [reference_eq_direct, sampleCall, asBytes_eq_data]
    decide +kernel
  exact (toolCallsAnswered_iff_callsAnswered rfl (sorted_sampleCall _) hbody haccepted).mpr
    (by decide +kernel)

/-- A tool call is answered under its own id with a blank, which is accepted. -/
theorem not_historyWellFormed_sample :
    endpointKind (sampleCall "a ").upstreamPath = .responses ∧
      (∃ bytes, rewriteRequestBodyForModeWithPolicies reference Form.reference
        (sampleCall "a ") = .ok bytes) ∧
      ¬HistoryWellFormed reference Form.reference (sampleCall "a ") := by
  obtain ⟨bytes, haccepted⟩ := exists_ok_of_isOk
    (show (rewriteRequestBodyForModeWithPolicies reference Form.reference
      (sampleCall "a ")).isOk = true by
        rw [reference_eq_direct, sampleCall, asBytes_eq_data]
        decide +kernel)
  refine ⟨by decide +kernel, ⟨bytes, haccepted⟩, ?_⟩
  rintro ⟨sent, messages, hsent, hmessages, hanswered⟩
  have hbody : reference.fromSlice (sampleCall "a ").body =
      some (.object (sampleCallFields "a ")) := by
    rw [reference_eq_direct, sampleCall, asBytes_eq_data]
    decide +kernel
  obtain ⟨_, _, heq, hget, hiff⟩ := forwardedBody_viaChat rfl (sorted_sampleCall _) hbody hsent
  obtain rfl := ForwardedBody.object.inj heq
  obtain rfl := Value.array.inj (Option.some.inj (hget.symm.trans hmessages))
  exact absurd (hiff.mp hanswered) (by decide +kernel)

end Onair
