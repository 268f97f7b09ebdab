import Onair.Core.Buffered
import Onair.Core.Config
import Onair.Lib.Fallible

/-!
# Responses requests in, chat completion requests out

`rewriteResponsesRequestAsChat` turns the body of a Responses request into that of a chat completion
request. Only some fields are kept.

* `responsesInputItemToChatMessage`: an item of the input as a message;
* `responsesInputToChatMessages`: the input, with the tool calls that follow one another in one
  message;
* `responsesToolsToChatTools`, `sanitizeLlamacppToolSchema`: the tools and their schemas;
* `responsesRequestToChat`, `rewriteResponsesRequestAsChat`: the request.
-/

namespace Onair

open Json Text Fallible

/-! ### Fields -/

/-- What is there, or an error. -/
def okOr {α : Type} (value : Option α) (error : RequestRewriteError) :
    Except RequestRewriteError α :=
  match value with
  | some value => .ok value
  | none => .error error

@[simp] theorem okOr_eq_ok {α : Type} {value : Option α} {error : RequestRewriteError} {a : α} :
    okOr value error = .ok a ↔ value = some a := by
  cases value <;> simp [okOr]

/-- An error in a case that is refused. -/
def refuseIf (refused : Bool) (error : RequestRewriteError) : Except RequestRewriteError Unit :=
  if refused then .error error else .ok ()

@[simp] theorem refuseIf_eq_ok {refused : Bool} {error : RequestRewriteError} {u : Unit} :
    refuseIf refused error = .ok u ↔ refused = false := by
  cases refused <;> simp [refuseIf]

/-- An error about the parameter. -/
def paramError (param message : String) : RequestRewriteError := ⟨message, some param⟩

/-- The text of a field. -/
def stringField (object : List (String × Value)) (field : String) : Option String :=
  (OrdMap.get field object).bind Value.asStr

/-- Take over the fields that are there. -/
def copyFields (fields : List String) (source target : List (String × Value)) :
    List (String × Value) :=
  fields.foldl (fun target field =>
    match OrdMap.get field source with
    | some value => OrdMap.insert field value target
    | none => target) target

theorem get_copyFields_ne {fields : List String} {k : String} (hk : k ∉ fields)
    (source target : List (String × Value)) :
    OrdMap.get k (copyFields fields source target) = OrdMap.get k target := by
  unfold copyFields
  induction fields generalizing target with
  | nil => rfl
  | cons field fields ih =>
    obtain ⟨hne, hk⟩ := not_or.mp (List.mem_cons.not.mp hk)
    rw [List.foldl_cons, ih hk]
    cases OrdMap.get field source with
    | none => rfl
    | some value => exact OrdMap.get_insert_ne hne _ _

/-- The model of the backend, or else the one that is asked for. -/
def requestModel (backendModel : Option String) (object : List (String × Value)) :
    Except RequestRewriteError String :=
  okOr (backendModel.or (stringField object "model"))
    (paramError "model" "Missing required parameter: model.")

/-! ### Content -/

/-- An image of a Responses content as one of a chat message. -/
def responsesImagePartToChat (object : List (String × Value)) :
    Except RequestRewriteError Value := do
  let imageUrl ← okOr ((OrdMap.get "image_url" object).or (OrdMap.get "url" object))
    (paramError "input" "Responses image content parts require image_url or url.")
  let imageUrl ← match imageUrl with
    | .string url => .ok [("url", .string url)]
    | .object imageUrl => .ok imageUrl
    | _ =>
      .error (paramError "input" "Responses image content image_url must be a string or object.")
  let imageUrl := match stringField object "url" with
    | some url => insertAbsent "url" (.string url) imageUrl
    | none => imageUrl
  let imageUrl := match OrdMap.get "detail" object with
    | some detail => insertAbsent "detail" detail imageUrl
    | none => imageUrl
  if (OrdMap.get "url" imageUrl).isNone then
    .error (paramError "input" "Responses image content parts require an image URL.")
  else .ok (.obj [("type", .string "image_url"), ("image_url", .object imageUrl)])

/-- A text of a chat message. -/
def chatTextPart (text : String) : Value :=
  .obj [("type", .string "text"), ("text", .string text)]

/-- A part of a Responses content as one of a chat message, and whether it is a text. -/
def responsesContentPartToChat (part : Value) : Except RequestRewriteError (Value × Bool) := do
  let object ← okOr part.asObject (paramError "input" "Responses content parts must be objects.")
  let partType := (stringField object "type").getD "input_text"
  if ["input_text", "output_text", "text"].elem partType then
    let text ← okOr ((stringField object "text").or (stringField object "content"))
      (paramError "input" "Responses text content parts require text.")
    return (chatTextPart text, true)
  else if ["image_url", "input_image"].elem partType then
    return (← responsesImagePartToChat object, false)
  else if partType = "refusal" then
    return (chatTextPart ((stringField object "refusal").getD ""), true)
  else
    .error (paramError "input"
      "Responses content part type is unsupported by the compatibility path.")

/-- The texts of the parts, one after the other. -/
def joinTexts (parts : List Value) : String :=
  String.join (parts.filterMap fun part => (part.get "text").bind Value.asStr)

/-- The parts, as one text if all of them are. -/
def contentOfParts (parts : List (Value × Bool)) : Value :=
  if parts.all Prod.snd then .string (joinTexts (parts.map Prod.fst))
  else .array (parts.map Prod.fst)

/-- A Responses content as that of a chat message. -/
def responsesContentToChat (c : Codec) (content : Value) : Except RequestRewriteError Value :=
  match content with
  | .string text => .ok (.string text)
  | .array parts => do return contentOfParts (← parts.mapM responsesContentPartToChat)
  | content => .ok (.string (printString c content))

/-! ### Tool calls -/

/-- A tool call of a chat message. -/
def responsesFunctionCallToChatToolCall (object : List (String × Value)) :
    Except RequestRewriteError ChatToolCall := do
  let callId ← okOr (stringField object "call_id")
    (paramError "input" "function_call input items require call_id.")
  let name ← okOr (stringField object "name")
    (paramError "input" "function_call input items require name.")
  return { id := callId, name, arguments := (stringField object "arguments").getD "\x7b\x7d" }

/-- A message of the assistant with a tool call. -/
def toolCallMessage (toolCall : ChatToolCall) : Value :=
  .obj [("role", .string "assistant"), ("content", .string ""),
    ("tool_calls", .array [toolCall.toValue])]

/-- A tool call as a message of its own. -/
def responsesFunctionCallToChatMessage (object : List (String × Value)) :
    Except RequestRewriteError Value :=
  toolCallMessage <$> responsesFunctionCallToChatToolCall object

/-- The message with one more tool call, if it is one of the assistant with tool calls. -/
def pushToolCall (toolCall : ChatToolCall) (message : Value) : Option Value :=
  match message with
  | .object object =>
    if stringField object "role" = some "assistant" then
      match OrdMap.get "tool_calls" object with
      | some (.array toolCalls) =>
        let object := OrdMap.insert "tool_calls" (.array (toolCalls ++ [toolCall.toValue])) object
        if ((OrdMap.get "content" object).getD .null).isNull then
          some (.object (OrdMap.insert "content" (.string "") object))
        else some (.object object)
      | _ => none
    else none
  | _ => none

/-- Add a tool call to the last message, or as a new one. -/
def appendResponsesFunctionCallToChatMessages (object : List (String × Value))
    (messages : List Value) : Except RequestRewriteError (List Value) := do
  let toolCall ← responsesFunctionCallToChatToolCall object
  match messages.getLast?.bind (pushToolCall toolCall) with
  | some lastMessage => return messages.dropLast ++ [lastMessage]
  | none => return messages ++ [toolCallMessage toolCall]

/-- The output of a tool as a text. -/
def responsesToolOutputToString (c : Codec) (output : Value) : String :=
  match output with
  | .string text => text
  | .array items =>
    let text := "\n".intercalate (items.filterMap fun item => (item.get "text").bind Value.asStr)
    if text = "" then printString c output else text
  | output => printString c output

/-- A message of a tool. -/
def toolMessage (callId output : String) : Value :=
  .obj [("role", .string "tool"), ("tool_call_id", .string callId), ("content", .string output)]

/-- The output of a tool as a message. -/
def responsesFunctionOutputToChatMessage (c : Codec) (object : List (String × Value)) :
    Except RequestRewriteError Value := do
  let callId ← okOr (stringField object "call_id")
    (paramError "input" "function_call_output input items require call_id.")
  let output ← okOr (OrdMap.get "output" object)
    (paramError "input" "function_call_output input items require output.")
  return toolMessage callId (responsesToolOutputToString c output)

/-- The summary of a reasoning as a message. -/
def responsesReasoningToChatMessage (object : List (String × Value)) : Value :=
  let text := match OrdMap.get "summary" object with
    | some (.array summary) =>
      "\n".intercalate (summary.filterMap fun item => (item.get "text").bind Value.asStr)
    | _ => ""
  .obj [("role", .string "assistant"), ("content", .string text)]

/-! ### The input -/

/-- The role of an item in a chat. -/
def responsesRoleToChat (role : String) : Except RequestRewriteError String :=
  if role = "developer" then .ok "system"
  else if ["system", "user", "assistant", "tool"].elem role then .ok role
  else .error
    (paramError "input" "Responses input item role is unsupported by the compatibility path.")

/-- A message of the input as a message of a chat. -/
def responsesMessageToChat (c : Codec) (object : List (String × Value)) :
    Except RequestRewriteError Value := do
  let role ← responsesRoleToChat ((stringField object "role").getD "user")
  let content ← okOr (OrdMap.get "content" object)
    (paramError "input" "Responses input messages require content.")
  let content ← responsesContentToChat c content
  let message := OrdMap.insert "content" content [("role", .string role)]
  let message := copyFields ["name"] object message
  return .object
    (match (OrdMap.get "tool_call_id" object).or (OrdMap.get "call_id" object) with
    | some toolCallId => OrdMap.insert "tool_call_id" toolCallId message
    | none => message)

/-- An item of the input as a message. -/
def responsesInputItemToChatMessage (c : Codec) (item : Value) :
    Except RequestRewriteError Value :=
  match item with
  | .string text => .ok (.obj [("role", .string "user"), ("content", .string text)])
  | .object object =>
    match stringField object "type" with
    | some "function_call" => responsesFunctionCallToChatMessage object
    | some "function_call_output" => responsesFunctionOutputToChatMessage c object
    | some "reasoning" => .ok (responsesReasoningToChatMessage object)
    | _ => responsesMessageToChat c object
  | _ => .error (paramError "input" "Responses input items must be objects or strings.")

/-- The entries of a tool call. -/
def functionCallEntries (item : Value) : Option (List (String × Value)) :=
  item.asObject.filter fun object => stringField object "type" = some "function_call"

/-- Add an item of the input to the messages. -/
def appendResponsesInputItem (c : Codec) (messages : List Value) (item : Value) :
    Except RequestRewriteError (List Value) :=
  match functionCallEntries item with
  | some object => appendResponsesFunctionCallToChatMessages object messages
  | none => do return messages ++ [← responsesInputItemToChatMessage c item]

/-- **The input as the messages of a chat.** -/
def responsesInputToChatMessages (c : Codec) (input : Value) :
    Except RequestRewriteError (List Value) :=
  match input with
  | .string text => .ok [.obj [("role", .string "user"), ("content", .string text)]]
  | .array items => items.foldlM (appendResponsesInputItem c) []
  | _ => .error (paramError "input" "input must be a string or an array.")

/-! ### Tools -/

/-- A type that may be null, without the null. -/
def collapseNullableTypeArray (object : List (String × Value)) : List (String × Value) :=
  match ((OrdMap.get "type" object).bind Value.asArray).bind (·.mapM Value.asStr) with
  | some types =>
    match types.filter (· ≠ "null") with
    | [nonNull] =>
      if types.elem "null" then OrdMap.insert "type" (.string nonNull) object else object
    | _ => object
  | none => object

/-- The schema of nothing but null. -/
def isNullSchema (value : Value) : Bool :=
  match value.get "type" with
  | some (.string typeName) => typeName == "null"
  | some (.array types) => types.all fun typeName => typeName.asStr == some "null"
  | _ => false

/-- A choice between null and an object, replaced by the fields of the object. -/
def collapseNullableSchemaArray (key : String) (object : List (String × Value)) :
    List (String × Value) :=
  match OrdMap.get key object with
  | some (.array items) =>
    match items.filter fun item => !isNullSchema item with
    | [.object replacement] =>
      if items.any isNullSchema then
        replacement.foldl (fun object e => insertAbsent e.1 e.2 object) (OrdMap.erase key object)
      else object
    | _ => object
  | _ => object

/-- The fields of a schema, without what is not understood. -/
def sanitizeFields (object : List (String × Value)) : List (String × Value) :=
  collapseNullableSchemaArray "oneOf" (collapseNullableSchemaArray "anyOf"
    (collapseNullableTypeArray (OrdMap.erase "default" object)))

/-- Sanitize the schemas down to a depth. -/
def sanitizeToDepth : ℕ → Value → Value
  | 0, schema => schema
  | depth + 1, schema =>
    match schema with
    | .object object =>
      .object ((sanitizeFields object).map fun e => (e.1, sanitizeToDepth depth e.2))
    | .array items => .array (items.map (sanitizeToDepth depth))
    | schema => schema

/-- **A schema without what is not understood.** -/
def sanitizeLlamacppToolSchema (schema : Value) : Value := sanitizeToDepth schema.depth schema

/-- No field is deeper than `d`. -/
def Shallow (d : ℕ) (m : List (String × Value)) : Prop := ∀ e ∈ m, e.2.depth ≤ d

section

variable {d : ℕ} {m : List (String × Value)}

theorem Shallow.insert (h : Shallow d m) (k : String) {v : Value} (hv : v.depth ≤ d) :
    Shallow d (OrdMap.insert k v m) := fun e he => by
  obtain rfl | he := OrdMap.mem_insert he
  · exact hv
  · exact h e he

theorem Shallow.erase (h : Shallow d m) (k : String) : Shallow d (OrdMap.erase k m) :=
  fun e he => h e (List.mem_of_mem_filter he)

theorem Shallow.foldl_insertAbsent (h : Shallow d m) {l : List (String × Value)}
    (hl : Shallow d l) : Shallow d (l.foldl (fun object e => insertAbsent e.1 e.2 object) m) := by
  induction l generalizing m with
  | nil => exact h
  | cons e l ih =>
    rw [List.foldl_cons]
    refine ih ?_ fun e he => hl e (List.mem_cons_of_mem _ he)
    unfold insertAbsent
    cases OrdMap.get e.1 m with
    | some _ => exact h
    | none => exact h.insert e.1 (hl e List.mem_cons_self)

theorem Shallow.collapseNullableTypeArray (h : Shallow d m) :
    Shallow d (collapseNullableTypeArray m) := by
  unfold Onair.collapseNullableTypeArray
  split
  · split
    · split_ifs
      · exact h.insert _ (by simp)
      · exact h
    · exact h
  · exact h

theorem Shallow.collapseNullableSchemaArray (h : Shallow d m) (key : String) :
    Shallow d (collapseNullableSchemaArray key m) := by
  unfold Onair.collapseNullableSchemaArray
  split
  · rename_i items hitems
    split
    · rename_i replacement hreplacement
      split_ifs
      · have hmem : Value.object replacement ∈ items :=
          List.mem_of_mem_filter (hreplacement ▸ List.mem_singleton_self _)
        -- the fields are two levels further down
        have harray : (Value.array items).depth ≤ d := h _ (OrdMap.mem_of_get hitems)
        have hobject : (Value.object replacement).depth ≤ d :=
          Value.depth_array_le.mp (harray.trans (Nat.le_succ d)) _ hmem
        exact (h.erase key).foldl_insertAbsent
          (Value.depth_object_le.mp (hobject.trans (Nat.le_succ d)))
      · exact h
    · exact h
  · exact h

/-- No field of a sanitized schema is deeper than the deepest one before. -/
theorem Shallow.sanitizeFields (h : Shallow d m) : Shallow d (sanitizeFields m) :=
  (((h.erase "default").collapseNullableTypeArray).collapseNullableSchemaArray
    "anyOf").collapseNullableSchemaArray "oneOf"

end

theorem sanitizeToDepth_congr {a b : ℕ} {schema : Value} (ha : schema.depth ≤ a)
    (hb : schema.depth ≤ b) : sanitizeToDepth a schema = sanitizeToDepth b schema := by
  induction a generalizing b schema with
  | zero => cases schema <;> cases b <;> simp_all [sanitizeToDepth, Value.depth]
  | succ a ih =>
    cases b with
    | zero => cases schema <;> simp_all [sanitizeToDepth, Value.depth]
    | succ b =>
      cases schema with
      | object object =>
        have hfields (d : ℕ) (h : (Value.object object).depth ≤ d + 1) :
            Shallow d (sanitizeFields object) :=
          Shallow.sanitizeFields (Value.depth_object_le.mp h)
        simp only [sanitizeToDepth, Value.object.injEq]
        exact List.map_congr_left fun e he => by rw [ih (hfields a ha e he) (hfields b hb e he)]
      | array items =>
        simp only [sanitizeToDepth, Value.array.injEq]
        exact List.map_congr_left fun item hitem =>
          ih (Value.depth_array_le.mp ha item hitem) (Value.depth_array_le.mp hb item hitem)
      | _ => rfl

/-- Every schema is sanitized all the way down. -/
theorem sanitizeToDepth_eq {depth : ℕ} {schema : Value} (h : schema.depth ≤ depth) :
    sanitizeToDepth depth schema = sanitizeLlamacppToolSchema schema :=
  sanitizeToDepth_congr h le_rfl

/-- A tool of a Responses request as one of a chat: only functions are kept. -/
def responsesToolToChat (toolSchemaMode : ToolSchemaMode) (tool : Value) :
    Except RequestRewriteError (Option Value) := do
  let object ← okOr tool.asObject (paramError "tools" "tool definitions must be objects.")
  if stringField object "type" ≠ some "function" then return none
  let function := OrdMap.erase "type" object
  let function :=
    match toolSchemaMode, OrdMap.get "parameters" function with
    | .llamacppCompat, some parameters =>
      OrdMap.insert "parameters" (sanitizeLlamacppToolSchema parameters) function
    | _, _ => function
  return some (.obj [("type", .string "function"), ("function", .object function)])

/-- The tools of a Responses request as those of a chat. -/
def responsesToolsToChatTools (tools : Value) (toolSchemaMode : ToolSchemaMode) :
    Except RequestRewriteError (List Value) := do
  let tools ← okOr tools.asArray
    (paramError "tools" "tools must be an array for responses-to-chat conversion.")
  return (← tools.mapM (responsesToolToChat toolSchemaMode)).filterMap id

/-- The choice of a tool. -/
def responsesToolChoiceToChat (toolChoice : Value) : Value :=
  match (toolChoice.get "type").bind Value.asStr, toolChoice.get "name" with
  | some "function", some name =>
    .obj [("type", .string "function"), ("function", .obj [("name", name)])]
  | _, _ => toolChoice

/-! ### The request -/

/-- The fields that mean the same in both requests. -/
def sharedResponsesFields : List String :=
  ["temperature", "top_p", "stream", "stop", "presence_penalty", "frequency_penalty", "logit_bias",
    "user", "seed", "n", "logprobs", "top_logprobs", "parallel_tool_calls", "stream_options",
    "response_format", "max_tokens", "prompt_cache_key", "prompt_cache_retention"]

/-- The instructions as a message, unless they are blank. -/
def instructionsMessage (object : List (String × Value)) : List Value :=
  (((stringField object "instructions").filter nonBlank).map fun instructions =>
    Value.obj [("role", .string "system"), ("content", .string instructions)]).toList

/-- The tools that are there, converted; no tools are no field. -/
def withTools (convert : Value → Except RequestRewriteError (List Value))
    (source target : List (String × Value)) :
    Except RequestRewriteError (List (String × Value)) :=
  match (OrdMap.get "tools" source).filter fun tools => !tools.isNull with
  | none => .ok target
  | some tools => do
    let tools ← convert tools
    return if tools.isEmpty then target else OrdMap.insert "tools" (.array tools) target

theorem get_withTools_ne {convert : Value → Except RequestRewriteError (List Value)}
    {source target result : List (String × Value)}
    (h : withTools convert source target = .ok result) {k : String} (hk : k ≠ "tools") :
    OrdMap.get k result = OrdMap.get k target := by
  unfold withTools at h
  split at h
  · obtain rfl := Except.ok.inj h
    rfl
  · obtain ⟨tools, -, h⟩ := bind_eq_ok.mp h
    obtain rfl := pure_eq_ok.mp h
    split_ifs
    · rfl
    · exact OrdMap.get_insert_ne hk _ _

/-- **A Responses request as a chat completion request**, without the extra fields of the route. -/
def responsesRequestToChat (c : Codec) (object : List (String × Value))
    (backendModel : Option String) (toolSchemaMode : ToolSchemaMode)
    (chatStreamUsage : ChatStreamUsagePolicy) :
    Except RequestRewriteError (List (String × Value)) := do
  refuseIf (OrdMap.get "previous_response_id" object).isSome (paramError "previous_response_id"
    "previous_response_id is not supported by the responses-to-chat compatibility path.")
  let input ← okOr (OrdMap.get "input" object)
    (paramError "input" "Missing required parameter: input.")
  let messages ← responsesInputToChatMessages c input
  let model ← requestModel backendModel object
  let chat := OrdMap.ofList [("model", .string model),
    ("messages", .array (instructionsMessage object ++ messages))]
  let chat := copyFields sharedResponsesFields object chat
  let chat := match OrdMap.get "max_output_tokens" object with
    | some value => OrdMap.insert "max_tokens" value chat
    | none => chat
  let chat := match (OrdMap.get "text" object).bind (Value.get · "format") with
    | some format => OrdMap.insert "response_format" format chat
    | none => chat
  let chat ← withTools (responsesToolsToChatTools · toolSchemaMode) object chat
  let chat := match OrdMap.get "tool_choice" object with
    | some toolChoice => OrdMap.insert "tool_choice" (responsesToolChoiceToChat toolChoice) chat
    | none => chat
  return applyChatStreamUsagePolicy chat chatStreamUsage

/-- The object that a body is read as, for a conversion of that name. -/
def readRequestObject (c : Codec) (body : Bytes) (contentType : Option String)
    (missing conversion request : String) :
    Except RequestRewriteError (List (String × Value)) := do
  refuseIf body.isEmpty (paramError missing s!"Missing required parameter: {missing}.")
  refuseIf (!shouldParseJson contentType body)
    ⟨s!"{conversion} conversion requires a JSON request body.", none⟩
  let value ← okOr (c.fromSlice body) ⟨s!"{conversion} conversion requires valid JSON.", none⟩
  okOr value.asObject ⟨s!"{request} request body must be a JSON object.", none⟩

theorem readRequestObject_eq_ok {c : Codec} {body : Bytes} {contentType : Option String}
    {missing conversion request : String} {object : List (String × Value)}
    (h : readRequestObject c body contentType missing conversion request = .ok object) :
    c.fromSlice body = some (.object object) := by
  unfold readRequestObject at h
  simp only [bind_eq_ok, okOr_eq_ok, Value.asObject_eq_some] at h
  obtain ⟨-, -, -, -, value, hvalue, rfl⟩ := h
  exact hvalue

/-- **The body of a Responses request as that of a chat completion request.** -/
def rewriteResponsesRequestAsChat (c : Codec) (body : Bytes) (contentType : Option String)
    (backendModel : Option String) (toolSchemaMode : ToolSchemaMode)
    (chatStreamUsage : ChatStreamUsagePolicy) (extraBody : List (String × Toml)) :
    Except RequestRewriteError Bytes := do
  let object ← readRequestObject c body contentType "input" "Responses-to-chat" "Responses"
  let chat ← responsesRequestToChat c object backendModel toolSchemaMode chatStreamUsage
  return c.toVec (.object (applyExtraBody chat extraBody))

end Onair
