import Onair.Request.History

/-!
# The history of a chat as the messages of an Anthropic request

The messages of a chat become messages of blocks, or parts of the system prompt; its tools become
tools with a schema.

* `chatMessageParts`, `chatParts`: what a chat says, part by part;
* `blockHistory`, `anthropicHistory`: what messages of blocks say;
* `ToolKept`: what is kept of a tool;
* `appendChatMessageToAnthropic_history`: a message becomes one that says the same;
* **`messages_history_survives`**: a conversion keeps the history and the tools.
-/

namespace Onair

open Json Text Fallible

/-! ### Histories -/

/-- The text of a part that is a text. -/
def textPart (part : Value) : Option String :=
  if textField part "type" = "text" then some (textField part "text") else none

/-- The texts of a content. -/
def contentTexts (content : Value) : List String :=
  match content with
  | .string text => [text]
  | .array parts => parts.filterMap textPart
  | _ => []

/-- Texts of one role, without the empty ones. -/
def textItems {α : Type} (role : String) (texts : List String) : List (HistoryItem α) :=
  texts.flatMap (textItem role)

/-- A tool call of a chat message, with its arguments as JSON. -/
def parsedToolCall (c : Codec) (toolCall : Value) : HistoryItem (Option Value) :=
  let function := (toolCall.get "function").getD .null
  .toolCall (textField toolCall "id") (textField function "name")
    (c.fromSlice (asBytes (textField function "arguments")))

/-- The content of a field, if there is any. -/
def contentField (message : Value) : Value := (message.get "content").getD .null

/-- The output of a tool: a text, the texts of its parts, or the text of another JSON value. -/
def toolOutputText (c : Codec) (content : Value) : String :=
  match content with
  | .null | .string _ | .array _ => String.join (contentTexts content)
  | content => printString c content

/-- What a message of a chat says. -/
def chatMessageParts (c : Codec) (message : Value) : List (HistoryItem (Option Value)) :=
  match textField message "role" with
  | "user" => textItems "user" (contentTexts (contentField message))
  | "assistant" => textItems "assistant" (contentTexts (contentField message)) ++
      (arrayField message "tool_calls").map (parsedToolCall c)
  | "tool" => [.toolOutput (textField message "tool_call_id")
      (toolOutputText c (contentField message))]
  | _ => []

/-- **What a chat says**, part by part, without the messages of the system. -/
def chatParts (c : Codec) (messages : List Value) : List (HistoryItem (Option Value)) :=
  messages.flatMap (chatMessageParts c)

/-- What a block of a message says. -/
def blockHistory (role : String) (block : Value) : List (HistoryItem (Option Value)) :=
  match textField block "type" with
  | "text" => textItem role (textField block "text")
  | "tool_use" => [.toolCall (textField block "id") (textField block "name") (block.get "input")]
  | "tool_result" => [.toolOutput (textField block "tool_use_id") (textField block "content")]
  | _ => []

/-- What a message of blocks says. -/
def anthropicMessageHistory (message : Value) : List (HistoryItem (Option Value)) :=
  (arrayField message "content").flatMap (blockHistory (textField message "role"))

/-- **What messages of blocks say.** -/
def anthropicHistory (messages : List Value) : List (HistoryItem (Option Value)) :=
  messages.flatMap anthropicMessageHistory

/-- What a message of the system says. -/
def systemPart (message : Value) : List String :=
  if ["system", "developer"].elem (textField message "role") then
    [String.join (contentTexts (contentField message))].filter nonBlank
  else []

/-- **What the system says.** -/
def systemParts (messages : List Value) : List String := messages.flatMap systemPart

/-- The system prompt that a chat gives. -/
def systemOf (messages : List Value) : Option Value :=
  if (systemParts messages).isEmpty then none
  else some (.string ("\n\n".intercalate (systemParts messages)))

/-- **What is kept of a tool**: its name, its description and, if they are given, its parameters. -/
structure ToolKept (tool kept : Value) : Prop where
  name : kept.get "name" = (tool.get "function").bind (Value.get · "name")
  description : kept.get "description" = (tool.get "function").bind (Value.get · "description")
  parameters : ∀ parameters, (tool.get "function").bind (Value.get · "parameters") =
    some parameters → kept.get "input_schema" = some parameters

/-! ### Blocks -/

section

variable (role id name text callId content : String) (input : Value)

@[simp] theorem blockHistory_textBlock :
    blockHistory role (textBlock text) = textItem role text := by
  simp [blockHistory, textBlock, textField, Value.get_obj]

@[simp] theorem blockHistory_toolUseBlock : blockHistory role (toolUseBlock id name input) =
    [.toolCall id name (some input)] := by
  simp [blockHistory, toolUseBlock, textField, Value.get_obj]

theorem anthropicMessageHistory_toolResult :
    anthropicMessageHistory (anthropicMessage role [.obj [("type", .string "tool_result"),
      ("tool_use_id", .string callId), ("content", .string content)]]) =
      [.toolOutput callId content] := by
  simp [anthropicMessageHistory, anthropicMessage, arrayField, blockHistory, textField,
    Value.get_obj, Value.asArray]

theorem anthropicMessageHistory_anthropicMessage (blocks : List Value) :
    anthropicMessageHistory (anthropicMessage role blocks) =
      blocks.flatMap (blockHistory role) := by
  simp [anthropicMessageHistory, anthropicMessage, arrayField, textField, Value.get_obj,
    Value.asArray]

end

theorem textsOfParts {notObject noText notTextual : String} {parts : List Value}
    {texts : List String} (h : parts.mapM (textOfPart notObject noText notTextual) = .ok texts) :
    parts.filterMap textPart = texts := by
  rw [mapM_eq_ok] at h
  induction h with
  | nil => rfl
  | @cons part text parts texts hpart _ ih =>
    unfold textOfPart at hpart
    simp only [bind_eq_ok, okOr_eq_ok, Value.asObject_eq_some] at hpart
    obtain ⟨object, rfl, hpart⟩ := hpart
    split_ifs at hpart with htype
    rw [okOr_eq_ok] at hpart
    have hsome : textPart (.object object) = some text := by
      rw [textPart, textField_of_stringField htype, if_pos rfl, textField_of_stringField hpart]
    rw [List.filterMap_cons_some hsome, ih]

theorem chatMessageContentToAnthropicBlocks_history {content : Value} {allowEmptyNull : Bool}
    {blocks : List Value} (h : chatMessageContentToAnthropicBlocks content allowEmptyNull =
      .ok blocks) (role : String) :
    blocks.flatMap (blockHistory role) = textItems role (contentTexts content) := by
  unfold chatMessageContentToAnthropicBlocks at h
  unfold contentTexts textItems
  split at h
  · obtain rfl := Except.ok.inj h
    simp
  · simp only [bind_eq_ok, pure_eq_ok] at h
    obtain ⟨texts, htexts, rfl⟩ := h
    rw [List.flatMap_map]
    simp only [blockHistory_textBlock, textsOfParts htexts]
  · obtain rfl := Except.ok.inj h
    cases allowEmptyNull with
    | true => rfl
    | false => simp [textItem]
  · cases h

theorem chatInstructionText_eq_ok {content : Value} {text : String}
    (h : chatInstructionText content = .ok text) : text = String.join (contentTexts content) := by
  unfold chatInstructionText at h
  unfold contentTexts
  split at h
  · obtain rfl := Except.ok.inj h
    simp [String.join]
  · simp only [bind_eq_ok, pure_eq_ok] at h
    obtain ⟨texts, htexts, rfl⟩ := h
    exact congrArg String.join (textsOfParts htexts).symm
  · obtain rfl := Except.ok.inj h
    rfl
  · exact nomatch h

theorem toolMessageContentToAnthropic_eq_ok {c : Codec} {content : Option Value} {text : String}
    (h : toolMessageContentToAnthropic c content = .ok text) :
    text = toolOutputText c (content.getD .null) := by
  cases content with
  | none =>
    obtain rfl := Except.ok.inj h
    rfl
  | some content =>
    cases content with
    | null =>
      obtain rfl := Except.ok.inj h
      rfl
    | string text =>
      obtain rfl := Except.ok.inj h
      simp [toolOutputText, contentTexts, String.join]
    | array parts =>
      obtain ⟨texts, htexts, h⟩ := bind_eq_ok.mp h
      obtain rfl := pure_eq_ok.mp h
      exact congrArg String.join (textsOfParts htexts).symm
    | _ =>
      obtain rfl := Except.ok.inj h
      rfl

/-! ### Messages -/

theorem chatToolCallToAnthropic_history {c : Codec} {toolCall block : Value} {index : ℕ}
    (hplain : PlainToolCall toolCall) (h : chatToolCallToAnthropic c (toolCall, index) = .ok block)
    (role : String) : blockHistory role block = [parsedToolCall c toolCall] := by
  unfold chatToolCallToAnthropic at h
  simp only [bind_eq_ok, okOr_eq_ok, pure_eq_ok, Option.filter_eq_some_iff] at h
  obtain ⟨⟨object, function⟩, hfields, name, ⟨hname, -⟩, input, hinput, rfl⟩ := h
  obtain ⟨rfl, hfunction⟩ := chatFunctionFields_eq_ok hfields
  obtain ⟨arguments, harguments⟩ := hplain.arguments
  rw [Value.get_object, hfunction, Option.bind_some, Value.get_object,
    ← stringField_eq_some] at harguments
  rw [harguments, Option.getD_some] at hinput
  rw [blockHistory_toolUseBlock, chatToolCallId_of_nonBlank hplain.id, parsedToolCall,
    Value.get_object, hfunction, Option.getD_some, textField_of_stringField hname,
    textField_of_stringField harguments, hinput]

/-- What is missing or null has no elements. -/
theorem asArray_of_filter {value : Option Value}
    (h : (value.filter fun value => !value.isNull) = none) : value.bind Value.asArray = none := by
  cases value with
  | none => rfl
  | some value =>
    cases value with
    | null => rfl
    | _ => exact nomatch h

theorem chatToolCallsToAnthropic_history {c : Codec} {object : List (String × Value)}
    {blocks : List Value}
    (hplain : ∀ toolCall ∈ arrayField (.object object) "tool_calls", PlainToolCall toolCall)
    (h : chatToolCallsToAnthropic c object = .ok blocks) (role : String) :
    blocks.flatMap (blockHistory role) =
      (arrayField (.object object) "tool_calls").map (parsedToolCall c) := by
  unfold chatToolCallsToAnthropic at h
  unfold arrayField at hplain ⊢
  rw [Value.get_object] at hplain ⊢
  cases hget : (OrdMap.get "tool_calls" object).filter fun toolCalls => !toolCalls.isNull with
  | none =>
    rw [hget] at h
    obtain rfl := Except.ok.inj h
    rw [asArray_of_filter hget]
    rfl
  | some toolCalls =>
    rw [hget] at h
    simp only [bind_eq_ok, okOr_eq_ok, Value.asArray_eq_some] at h
    obtain ⟨toolCalls, rfl, h⟩ := h
    rw [(Option.filter_eq_some_iff.mp hget).1, Option.bind_some] at hplain ⊢
    simp only [Value.asArray, Option.getD_some] at hplain ⊢
    generalize hindex : toolCalls.zipIdx = indexed at h
    have hfst : toolCalls = indexed.map Prod.fst := by
      rw [← hindex, List.zipIdx_map_fst]
    clear hindex hget
    subst hfst
    rw [mapM_eq_ok] at h
    induction h with
    | nil => rfl
    | cons hblock _ ih =>
      rw [List.map_cons, List.forall_mem_cons] at hplain
      rw [List.flatMap_cons, chatToolCallToAnthropic_history hplain.1 hblock, ih hplain.2]
      rfl

/-- **A message becomes one that says the same**, or a part of the system prompt. -/
theorem appendChatMessageToAnthropic_history {c : Codec} {out out' : List String × List Value}
    {message : Value} (hplain : textField message "role" = "assistant" →
      ∀ toolCall ∈ arrayField message "tool_calls", PlainToolCall toolCall)
    (h : appendChatMessageToAnthropic c out message = .ok out') :
    ∃ messages, out' = (out.1 ++ systemPart message, out.2 ++ messages) ∧
      anthropicHistory messages = chatMessageParts c message := by
  unfold appendChatMessageToAnthropic chatRole at h
  simp only [bind_eq_ok, okOr_eq_ok, Value.asObject_eq_some] at h
  obtain ⟨object, rfl, role, hrole, h⟩ := h
  have hroleField : textField (.object object) "role" = role := textField_of_stringField hrole
  have hcontent : contentField (.object object) = (OrdMap.get "content" object).getD .null := rfl
  rw [hroleField] at hplain
  unfold systemPart chatMessageParts
  rw [hroleField, hcontent]
  split_ifs at h with hsystem huser hassistant htool
  · simp only [bind_eq_ok, okOr_eq_ok, pure_eq_ok] at h
    obtain ⟨content, hget, text, htext, rfl⟩ := h
    refine ⟨[], ?_, ?_⟩
    · rw [if_pos hsystem, hget, Option.getD_some, ← chatInstructionText_eq_ok htext,
        List.append_nil, List.filter_singleton, cond_eq_ite]
    · obtain rfl | rfl : role = "system" ∨ role = "developer" := by simpa using hsystem
      · rfl
      · rfl
  · simp only [bind_eq_ok, pure_eq_ok] at h
    obtain ⟨blocks, hblocks, rfl⟩ := h
    subst huser
    refine ⟨[anthropicMessage "user" blocks], by simp, ?_⟩
    rw [anthropicHistory, List.flatMap_singleton, anthropicMessageHistory_anthropicMessage,
      chatMessageContentToAnthropicBlocks_history hblocks]
    rfl
  · simp only [bind_eq_ok, pure_eq_ok] at h
    obtain ⟨blocks, hblocks, calls, hcalls, rfl⟩ := h
    subst hassistant
    refine ⟨[anthropicMessage "assistant" (blocks ++ calls)], by simp, ?_⟩
    rw [anthropicHistory, List.flatMap_singleton, anthropicMessageHistory_anthropicMessage,
      List.flatMap_append, chatMessageContentToAnthropicBlocks_history hblocks,
      chatToolCallsToAnthropic_history (hplain rfl) hcalls]
    rfl
  · unfold chatToolMessageId at h
    simp only [bind_eq_ok, okOr_eq_ok, pure_eq_ok, Option.filter_eq_some_iff] at h
    obtain ⟨callId, ⟨hcallId, -⟩, content, houtput, rfl⟩ := h
    subst htool
    refine ⟨[anthropicMessage "user" [.obj [("type", .string "tool_result"),
      ("tool_use_id", .string callId), ("content", .string content)]]], by simp, ?_⟩
    rw [anthropicHistory, List.flatMap_singleton, anthropicMessageHistory_toolResult,
      textField_of_stringField hcallId, toolMessageContentToAnthropic_eq_ok houtput]
    rfl

/-- **The messages become messages that say the same**, and the parts of the system prompt. -/
theorem toMessages_history {c : Codec} {messages : List Value} {out : List String × List Value}
    (hplain : ∀ message ∈ messages, textField message "role" = "assistant" →
      ∀ toolCall ∈ arrayField message "tool_calls", PlainToolCall toolCall)
    (h : messages.foldlM (appendChatMessageToAnthropic c) ([], []) = .ok out) :
    out.1 = systemParts messages ∧ anthropicHistory out.2 = chatParts c messages := by
  refine ⟨?_, ?_⟩
  · refine foldlM_flatMap Prod.fst (fun s a ha s' hstep => ?_) h
    obtain ⟨messages, rfl, -⟩ := appendChatMessageToAnthropic_history (hplain a ha) hstep
    rfl
  · refine foldlM_flatMap (fun s => anthropicHistory s.2) (fun s a ha s' hstep => ?_) h
    obtain ⟨messages, rfl, hsays⟩ := appendChatMessageToAnthropic_history (hplain a ha) hstep
    rw [anthropicHistory, List.flatMap_append, ← anthropicHistory, ← anthropicHistory, hsays]

/-! ### Tools -/

theorem chatToolToAnthropic_kept {tool kept : Value} (h : chatToolToAnthropic tool = .ok kept) :
    ToolKept tool kept := by
  unfold chatToolToAnthropic chatFunctionOfTool at h
  simp only [bind_eq_ok, okOr_eq_ok, pure_eq_ok, Option.filter_eq_some_iff, Value.asObject_eq_some,
    Option.bind_eq_some_iff] at h
  obtain ⟨function, ⟨object, rfl, -, -, _, hfunction, rfl⟩, name, ⟨hname, -⟩, rfl⟩ := h
  have hget : (Value.object object).get "function" = some (.object function) := hfunction
  rw [stringField_eq_some] at hname
  constructor
  · rw [hget, Option.bind_some, Value.get_object, Value.get_object, hname,
      OrdMap.get_insert_ne (by decide), get_copyFields_ne (by decide)]
    rfl
  · rw [hget, Option.bind_some, Value.get_object, Value.get_object,
      OrdMap.get_insert_ne (by decide), copyFields, List.foldl_cons, List.foldl_nil]
    cases OrdMap.get "description" function with
    | none => rfl
    | some description => exact OrdMap.get_insert_self _ _ _
  · intro parameters hparameters
    rw [hget, Option.bind_some, Value.get_object] at hparameters
    rw [Value.get_object, OrdMap.get_insert_self, hparameters, Option.getD_some]

theorem withTools_kept {source target result : List (String × Value)}
    (htarget : OrdMap.get "tools" target = none)
    (h : withTools chatToolsToAnthropicTools source target = .ok result) :
    List.Forall₂ ToolKept (arrayField (.object source) "tools")
      (arrayField (.object result) "tools") := by
  unfold withTools at h
  unfold arrayField
  rw [Value.get_object, Value.get_object]
  cases hget : (OrdMap.get "tools" source).filter fun tools => !tools.isNull with
  | none =>
    rw [hget] at h
    obtain rfl := Except.ok.inj h
    rw [asArray_of_filter hget, htarget]
    exact .nil
  | some tools =>
    rw [hget] at h
    unfold chatToolsToAnthropicTools at h
    simp only [bind_eq_ok, okOr_eq_ok, Value.asArray_eq_some, pure_eq_ok] at h
    obtain ⟨kept, ⟨tools, rfl, hkept⟩, rfl⟩ := h
    rw [(Option.filter_eq_some_iff.mp hget).1]
    have hall := (mapM_eq_ok.mp hkept).imp fun _ _ => chatToolToAnthropic_kept
    split_ifs with hempty
    · rw [List.isEmpty_iff.mp hempty] at hall
      rw [htarget]
      exact hall
    · rw [OrdMap.get_insert_self]
      exact hall

/-! ### The request -/

theorem get_withStopSequences_ne {source target result : List (String × Value)}
    (h : withStopSequences source target = .ok result) {k : String} (hk : k ≠ "stop_sequences") :
    OrdMap.get k result = OrdMap.get k target := by
  unfold withStopSequences at h
  split at h
  · obtain rfl := Except.ok.inj h
    rfl
  · obtain ⟨stop, -, h⟩ := bind_eq_ok.mp h
    obtain rfl := pure_eq_ok.mp h
    exact OrdMap.get_insert_ne hk _ _

theorem chatRequestToAnthropic_eq_ok {c : Codec} {object anthropic : List (String × Value)}
    {backendModel : Option String} {anthropicMaxTokens : Option ℕ}
    (h : chatRequestToAnthropic c object backendModel anthropicMaxTokens = .ok anthropic) :
    ∃ messages out, OrdMap.get "messages" object = some (.array messages) ∧
      messages.foldlM (appendChatMessageToAnthropic c) ([], []) = .ok out ∧
      OrdMap.get "messages" anthropic = some (.array out.2) ∧
      OrdMap.get "system" anthropic =
        (if out.1.isEmpty then none else some (.string ("\n\n".intercalate out.1))) ∧
      List.Forall₂ ToolKept (arrayField (.object object) "tools")
        (arrayField (.object anthropic) "tools") := by
  unfold chatRequestToAnthropic chatMessages at h
  simp only [bind_eq_ok, okOr_eq_ok, Option.bind_eq_some_iff, Value.asArray_eq_some] at h
  obtain ⟨-, -, messages, ⟨_, hmessages, rfl⟩, model, -, maxTokens, -, out, hrun, stopped, hstop,
    tooled, htools, hchoice⟩ := h
  have hframe : ∀ k, k ∉ ["tool_choice", "temperature", "top_p", "stream", "stop_sequences"] →
      OrdMap.get k (copyFields ["temperature", "top_p", "stream"] object stopped) =
        OrdMap.get k (OrdMap.ofList ([("model", .string model), ("messages", .array out.2),
          ("max_tokens", .u64 (UInt64.ofNat maxTokens))] ++ joinedTexts "system" out.1)) := by
    intro k hk
    rw [List.mem_cons, List.mem_cons, List.mem_cons, List.mem_cons, List.mem_singleton] at hk
    rw [get_copyFields_ne (by simp; tauto), get_withStopSequences_ne hstop (by tauto)]
  have hchosen : ∀ k, k ≠ "tool_choice" → OrdMap.get k anthropic = OrdMap.get k tooled :=
    fun k hk => get_withToolChoice_ne hchoice hk
  have htools' : OrdMap.get "tools" (copyFields ["temperature", "top_p", "stream"] object stopped) =
      none := by
    rw [hframe _ (by decide), OrdMap.get_ofList]
    unfold joinedTexts
    split_ifs
    · simp
    · simp
  refine ⟨messages, out, hmessages, hrun, ?_, ?_, ?_⟩
  · rw [hchosen _ (by decide), get_withTools_ne htools (by decide), hframe _ (by decide),
      OrdMap.get_ofList]
    unfold joinedTexts
    split_ifs
    · simp
    · simp
  · rw [hchosen _ (by decide), get_withTools_ne htools (by decide), hframe _ (by decide),
      OrdMap.get_ofList]
    unfold joinedTexts
    split_ifs
    · simp
    · simp
  · have hkept := withTools_kept htools' htools
    unfold arrayField at hkept ⊢
    rw [Value.get_object, Value.get_object] at hkept ⊢
    rw [hchosen "tools" (by decide)]
    exact hkept

/-- The object that is sent in place of a chat. -/
def chatAsAnthropic (c : Codec) (body : Bytes) (contentType backendModel : Option String)
    (anthropicMaxTokens : Option ℕ) (extraBody : List (String × Toml)) :
    Except RequestRewriteError (List (String × Value)) := do
  let object ← readRequestObject c body contentType "messages" "Chat-to-messages" "Chat"
  let anthropic ← chatRequestToAnthropic c object backendModel anthropicMaxTokens
  return applyExtraBody anthropic extraBody

/-- **What a chat says is kept**, with its system prompt and its tools. -/
structure PartsKept (c : Codec) (object : List (String × Value)) (messages : List Value)
    (system : Option Value) (sent : List (String × Value)) : Prop where
  messages : ∃ blocks, OrdMap.get "messages" sent = some (.array blocks) ∧
    anthropicHistory blocks = chatParts c messages
  system : OrdMap.get "system" sent = system
  tools : List.Forall₂ ToolKept (arrayField (.object object) "tools")
    (arrayField (.object sent) "tools")

section

variable {c : Codec} {body : Bytes} {contentType backendModel : Option String}
  {anthropicMaxTokens : Option ℕ} {extraBody : List (String × Toml)}

theorem rewriteChatRequestAsAnthropic_eq_ok {bytes : Bytes} :
    rewriteChatRequestAsAnthropic c body contentType backendModel anthropicMaxTokens extraBody =
        .ok bytes ↔
      ∃ sent, chatAsAnthropic c body contentType backendModel anthropicMaxTokens extraBody =
        .ok sent ∧ c.toVec (.object sent) = bytes := by
  unfold rewriteChatRequestAsAnthropic chatAsAnthropic
  simp only [bind_eq_ok, pure_eq_ok]
  constructor
  · rintro ⟨object, hobject, anthropic, hanthropic, rfl⟩
    exact ⟨_, ⟨object, hobject, anthropic, hanthropic, rfl⟩, rfl⟩
  · rintro ⟨_, ⟨object, hobject, anthropic, hanthropic, rfl⟩, rfl⟩
    exact ⟨object, hobject, anthropic, hanthropic, rfl⟩

/-- **What a chat says is kept in a request for a message**, unless the route sets the system
prompt. -/
theorem messages_history_survives (hsorted : OrdMap.Sorted extraBody)
    {object : List (String × Value)} (hbody : c.fromSlice body = some (.object object))
    {messages : List Value} (hmessages : OrdMap.get "messages" object = some (.array messages))
    (hplain : ∀ message ∈ messages, textField message "role" = "assistant" →
      ∀ toolCall ∈ arrayField message "tool_calls", PlainToolCall toolCall) {bytes : Bytes}
    (h : rewriteChatRequestAsAnthropic c body contentType backendModel anthropicMaxTokens
      extraBody = .ok bytes) :
    ∃ sent, chatAsAnthropic c body contentType backendModel anthropicMaxTokens extraBody =
        .ok sent ∧ c.toVec (.object sent) = bytes ∧
      PartsKept c object messages ((extraValue extraBody "system").or (systemOf messages))
        sent := by
  obtain ⟨sent, hsent, hbytes⟩ := rewriteChatRequestAsAnthropic_eq_ok.mp h
  refine ⟨sent, hsent, hbytes, ?_⟩
  unfold chatAsAnthropic at hsent
  simp only [bind_eq_ok, pure_eq_ok] at hsent
  obtain ⟨_, hread, anthropic, hanthropic, rfl⟩ := hsent
  obtain rfl := Value.object.inj
    (Option.some.inj (hbody.symm.trans (readRequestObject_eq_ok hread)))
  obtain ⟨_, out, hget, hrun, hblocks, hsystem, htools⟩ := chatRequestToAnthropic_eq_ok hanthropic
  obtain rfl := Value.array.inj (Option.some.inj (hmessages.symm.trans hget))
  obtain ⟨hparts, hsays⟩ := toMessages_history hplain hrun
  constructor
  · refine ⟨out.2, ?_, hsays⟩
    rw [overlaid_applyExtraBody hsorted, hblocks]
    rfl
  · rw [overlaid_applyExtraBody hsorted, hsystem, hparts]
    rfl
  · unfold arrayField at htools ⊢
    rw [Value.get_object, Value.get_object] at htools ⊢
    rw [overlaid_applyExtraBody hsorted]
    exact htools

end

theorem plainCalls_sampleMessages : ∀ message ∈ sampleMessages,
    textField message "role" = "assistant" →
      ∀ toolCall ∈ arrayField message "tool_calls", PlainToolCall toolCall :=
  fun message hmessage => (plain_sampleMessages message hmessage).toolCalls

theorem accepted_sampleChat_messages : ∃ anthropic, ∀ extraBody, chatAsAnthropic reference
    sampleChat none none (some 9) extraBody = .ok (applyExtraBody anthropic extraBody) := by
  have hok : (chatRequestToAnthropic reference [("messages", .array sampleMessages),
      ("model", .string "m")] none (some 9)).isOk = true := by decide +kernel
  obtain ⟨anthropic, hanthropic⟩ := exists_ok_of_isOk hok
  refine ⟨anthropic, fun extraBody => ?_⟩
  unfold chatAsAnthropic
  rw [readRequestObject_sampleChat]
  simp only [bind_eq_ok, pure_eq_ok]
  exact ⟨_, rfl, anthropic, hanthropic, rfl⟩

/-- What the sample says is kept. -/
theorem messages_history_survives_sample : ∃ sent,
    chatAsAnthropic reference sampleChat none none (some 9) [] = .ok sent ∧
      PartsKept reference [("messages", .array sampleMessages), ("model", .string "m")]
        sampleMessages (some (.string "be brief")) sent := by
  obtain ⟨anthropic, hanthropic⟩ := accepted_sampleChat_messages
  have hsorted : OrdMap.Sorted ([] : List (String × Toml)) := List.Pairwise.nil
  obtain ⟨sent, hsent, -, hkept⟩ := messages_history_survives hsorted fromSlice_sampleChat rfl
    plainCalls_sampleMessages (rewriteChatRequestAsAnthropic_eq_ok.mpr ⟨_, hanthropic [], rfl⟩)
  have hsystem : (extraValue [] "system").or (systemOf sampleMessages) =
      some (.string "be brief") := by decide +kernel
  rw [hsystem] at hkept
  exact ⟨sent, hsent, hkept⟩

/-- The system prompt of the sample is not kept by a route that sets another. -/
theorem not_messages_history_survives : ¬∀ sent, chatAsAnthropic reference sampleChat none none
    (some 9) [("system", .string "be loud")] = .ok sent →
      PartsKept reference [("messages", .array sampleMessages), ("model", .string "m")]
        sampleMessages (systemOf sampleMessages) sent := by
  intro h
  obtain ⟨anthropic, hanthropic⟩ := accepted_sampleChat_messages
  have hkept := (h _ (hanthropic _)).system
  rw [overlaid_applyExtraBody (by unfold OrdMap.Sorted; decide)] at hkept
  have hloud : extraValue [("system", .string "be loud")] "system" =
      some (.string "be loud") := by decide +kernel
  have hbrief : systemOf sampleMessages = some (.string "be brief") := by decide +kernel
  rw [hloud, hbrief, Option.some_or] at hkept
  exact absurd hkept (by decide)

end Onair
