import Onair.Core.Names

/-!
# Backend models in whole responses

The name of the backend model does not show in a response that is not a stream.

* `namesModel_chatCompletionToResponse`, `namesModel_responseToChatCompletion`: the conversions add
  no name but `unknown`;
* `readable_convertResponse`: what is sent is read as it was printed;
* **`buffered_models_hidden`**: no field `model` of the answer names the backend model, and the
  answer does not depend on its name.
-/

namespace Onair

open Json

/-! ### The conversions -/

theorem fieldNames_string {name k : String} (hk : k ≠ "model") (s : String) :
    fieldNames name (k, .string s) = false := by
  rw [fieldNames_of_ne hk, namesModel_string]

theorem fieldNames_model {name : String} (hunknown : name ≠ "unknown")
    {object : List (String × Value)} (h : namesModel name (.object object) = false) :
    fieldNames name ("model", (OrdMap.get "model" object).getD (.string "unknown")) = false := by
  cases hmodel : OrdMap.get "model" object with
  | none => simp [fieldNames, hunknown.symm]
  | some model =>
    by_contra hnames
    exact Bool.false_ne_true (h.symm.trans
      (fieldNames_of_get hmodel (Bool.not_eq_false _ ▸ hnames)))

theorem namesModel_messageItem (name messageId text : String) :
    namesModel name (messageItem messageId text) = false := by
  have hpart : namesModel name (.obj [("type", .string "output_text"), ("text", .string text),
      ("annotations", .array [])]) = false := namesModel_obj (by simp [fieldNames])
  exact namesModel_obj (by simp [fieldNames, hpart])

theorem namesModel_functionCallItem (name : String) (index : ℕ) (toolCall : Value × ℕ) :
    namesModel name (functionCallItem index toolCall) = false :=
  namesModel_obj (by simp [fieldNames])

theorem namesModel_choiceToOutput (c : Codec) (name responseId : String) (choice : Value × ℕ) :
    ∀ item ∈ (choiceToOutput c responseId choice).1, namesModel name item = false := by
  unfold choiceToOutput
  split
  · intro item hitem
    obtain hitem | hitem := List.mem_append.mp hitem
    · obtain ⟨text, -, rfl⟩ := Option.map_eq_some_iff.mp (Option.mem_toList.mp hitem)
      exact namesModel_messageItem _ _ _
    · obtain ⟨toolCall, -, rfl⟩ := List.mem_map.mp hitem
      exact namesModel_functionCallItem _ _ _
  · simp

theorem namesModel_chatUsageToResponsesUsage (name : String) (usage : Option Value) :
    namesModel name (chatUsageToResponsesUsage usage) = false := by
  refine namesModel_obj ?_
  simp [fieldNames, namesModel_count name (k := "cached_tokens") (by decide),
    namesModel_count name (k := "reasoning_tokens") (by decide)]

/-- **A chat completion as a response shows no new name but `unknown`.** -/
theorem namesModel_chatCompletionToResponse (c : Codec) {name : String}
    (hunknown : name ≠ "unknown") {v : Value} (h : namesModel name v = false) :
    namesModel name (chatCompletionToResponse c v) = false := by
  cases v with
  | object object =>
    have houtput (responseId : String) (choices : List (Value × ℕ)) :
        namesModel name (.array ((choices.map (choiceToOutput c responseId)).flatMap Prod.fst)) =
          false := by
      rw [namesModel_array, List.any_eq_false]
      intro item hitem
      obtain ⟨output, houtput, hitem⟩ := List.mem_flatMap.mp hitem
      obtain ⟨choice, -, rfl⟩ := List.mem_map.mp houtput
      simp [namesModel_choiceToOutput c name responseId choice item hitem]
    refine namesModel_obj ?_
    simp only [List.forall_mem_cons, List.not_mem_nil, false_imp_iff, implies_true, and_true]
    refine ⟨fieldNames_string (by decide) _, fieldNames_string (by decide) _, ?_,
      fieldNames_string (by decide) _, fieldNames_model hunknown h, ?_,
      fieldNames_string (by decide) _, ?_⟩
    · rw [fieldNames_of_ne (by decide), namesModel_u64]
    · rw [fieldNames_of_ne (by decide), houtput]
    · rw [fieldNames_of_ne (by decide), namesModel_chatUsageToResponsesUsage]
  | _ => exact h

theorem namesModel_toolCall (name : String) (toolCall : ChatToolCall) :
    namesModel name toolCall.toValue = false := by
  have hfunction : namesModel name (.obj [("name", .string toolCall.name),
      ("arguments", .string toolCall.arguments)]) = false := namesModel_obj (by simp [fieldNames])
  exact namesModel_obj (by simp [fieldNames, hfunction])

theorem namesModel_message (name : String) {content : Value}
    (hcontent : namesModel name content = false) (hasToolCalls : Bool)
    (toolCalls : List ChatToolCall) :
    namesModel name (.obj ([("role", .string "assistant"), ("content", content)] ++
      (if hasToolCalls then [("tool_calls", .array (toolCalls.map ChatToolCall.toValue))]
        else []))) = false := by
  have hcalls : namesModel name (.array (toolCalls.map ChatToolCall.toValue)) = false := by
    rw [namesModel_array, List.any_map, List.any_eq_false]
    simp [namesModel_toolCall]
  refine namesModel_obj ?_
  cases hasToolCalls <;> simp [fieldNames, hcontent, hcalls]

theorem namesModel_chatCompletion {name : String} {model message usage : Value} (id : String)
    (created : UInt64) (finishReason : FinishReason)
    (hmodel : fieldNames name ("model", model) = false)
    (hmessage : namesModel name message = false) (husage : namesModel name usage = false) :
    namesModel name (chatCompletion id created model message finishReason usage) = false := by
  have hchoice : namesModel name (.obj [("index", indexValue 0), ("message", message),
      ("finish_reason", .string finishReason.text)]) = false :=
    namesModel_obj (by simp [fieldNames, hmessage, indexValue])
  refine namesModel_obj ?_
  simp only [List.forall_mem_cons, List.not_mem_nil, false_imp_iff, implies_true, and_true]
  refine ⟨fieldNames_string (by decide) _, fieldNames_string (by decide) _, ?_, hmodel, ?_, ?_⟩
  · rw [fieldNames_of_ne (by decide), namesModel_u64]
  · rw [fieldNames_of_ne (by decide)]
    simp [hchoice]
  · rw [fieldNames_of_ne (by decide), husage]

/-- **A response as a chat completion shows no new name but `unknown`.** -/
theorem namesModel_responseToChatCompletion {name : String} (hunknown : name ≠ "unknown")
    {v : Value} (h : namesModel name v = false) :
    namesModel name (responseToChatCompletion v) = false := by
  cases v with
  | object object =>
    exact namesModel_chatCompletion _ _ _ (fieldNames_model hunknown h)
      (namesModel_message name (namesModel_string name _) _ _) (namesModel_chatUsage name _)
  | _ => exact h

/-! ### Depth -/

theorem fits_model {d : ℕ} {object : List (String × Value)}
    (h : (Value.object object).Fits (d + 1)) :
    ((OrdMap.get "model" object).getD (.string "unknown")).Fits d := by
  cases hmodel : OrdMap.get "model" object with
  | none => exact Value.fits_string d _
  | some model => exact h.get hmodel

theorem fits_chatCompletionToResponse (c : Codec) {d : ℕ} {v : Value} (h : v.Fits (d + 6)) :
    (chatCompletionToResponse c v).Fits (d + 6) := by
  cases v with
  | object object =>
    have hitem (messageId text : String) : (messageItem messageId text).Fits (d + 4) := by
      refine Value.fits_obj ?_
      simp only [List.forall_mem_cons, List.not_mem_nil, false_imp_iff, implies_true, and_true,
        Value.fits_string, true_and, Value.fits_array]
      exact Value.fits_obj (by simp)
    have hcall (index : ℕ) (toolCall : Value × ℕ) :
        (functionCallItem index toolCall).Fits (d + 4) := Value.fits_obj (by simp)
    have hchoice (responseId : String) (choice : Value × ℕ) :
        ∀ item ∈ (choiceToOutput c responseId choice).1, item.Fits (d + 4) := by
      unfold choiceToOutput
      split
      · intro item hmem
        obtain hmem | hmem := List.mem_append.mp hmem
        · obtain ⟨text, -, rfl⟩ := Option.map_eq_some_iff.mp (Option.mem_toList.mp hmem)
          exact hitem _ _
        · obtain ⟨toolCall, -, rfl⟩ := List.mem_map.mp hmem
          exact hcall _ _
      · simp
    have hcount (k : String) (n : UInt64) : (Value.obj [(k, .u64 n)]).Fits (d + 4) :=
      Value.fits_obj (by simp)
    have husage : (chatUsageToResponsesUsage (OrdMap.get "usage" object)).Fits (d + 5) :=
      Value.fits_obj (by simp [hcount])
    refine Value.fits_obj ?_
    simp only [List.forall_mem_cons, List.not_mem_nil, false_imp_iff, implies_true, and_true,
      Value.fits_string, Value.fits_u64, true_and, Value.fits_array]
    refine ⟨fits_model h, fun item hmem => ?_, husage⟩
    obtain ⟨output, houtput, hmem⟩ := List.mem_flatMap.mp hmem
    obtain ⟨choice, -, rfl⟩ := List.mem_map.mp houtput
    exact hchoice _ choice item hmem
  | _ => exact h

theorem fits_chatCompletion {d : ℕ} {model message usage : Value} (id : String)
    (created : UInt64) (finishReason : FinishReason) (hmodel : model.Fits (d + 2))
    (hmessage : message.Fits d) (husage : usage.Fits (d + 2)) :
    (chatCompletion id created model message finishReason usage).Fits (d + 3) := by
  have hchoice : (Value.obj [("index", indexValue 0), ("message", message),
      ("finish_reason", .string finishReason.text)]).Fits (d + 1) :=
    Value.fits_obj (by simp [hmessage, indexValue])
  refine Value.fits_obj ?_
  simp [hmodel, husage, hchoice]

theorem fits_message {d : ℕ} {content : Value} (hcontent : content.Fits (d + 3))
    (hasToolCalls : Bool) (toolCalls : List ChatToolCall) :
    (Value.obj ([("role", .string "assistant"), ("content", content)] ++
      (if hasToolCalls then [("tool_calls", .array (toolCalls.map ChatToolCall.toValue))]
        else []))).Fits (d + 4) := by
  have hfunction (name arguments : String) :
      (Value.obj [("name", .string name), ("arguments", .string arguments)]).Fits (d + 1) :=
    Value.fits_obj (by simp)
  have hcall (toolCall : ChatToolCall) : toolCall.toValue.Fits (d + 2) :=
    Value.fits_obj (by simp [hfunction])
  refine Value.fits_obj ?_
  cases hasToolCalls <;> simp [hcontent, hcall]

theorem fits_chatUsage (d : ℕ) (usage : ChatUsage) : usage.toValue.Fits (d + 2) := by
  have hcount (k : String) (n : UInt64) : (Value.obj [(k, .u64 n)]).Fits (d + 1) :=
    Value.fits_obj (by simp)
  cases usage with
  | detailed fields => exact Value.fits_obj (by simp [hcount])
  | plain prompt completion total => exact Value.fits_obj (by simp)

theorem fits_responseToChatCompletion {d : ℕ} {v : Value} (h : v.Fits (d + 7)) :
    (responseToChatCompletion v).Fits (d + 7) := by
  cases v with
  | object object =>
    exact fits_chatCompletion _ _ _ (fits_model h) (fits_message (Value.fits_string _ _) _ _)
      (fits_chatUsage (d + 4) _)
  | _ => exact h

theorem fits_anthropicMessage {d : ℕ} {content : Value} (hcontent : content.Fits (d + 3))
    (toolCalls : List ChatToolCall) :
    (Value.obj ([("role", .string "assistant"), ("content", content)] ++
      (if toolCalls.isEmpty then []
        else [("tool_calls", .array (toolCalls.map ChatToolCall.toValue))]))).Fits (d + 4) := by
  cases toolCalls.isEmpty with
  | true => exact fits_message hcontent false toolCalls
  | false => exact fits_message hcontent true toolCalls

theorem fits_anthropicMessageToChatCompletion (c : Codec) {d : ℕ} {v : Value}
    (h : v.Fits (d + 7)) : (anthropicMessageToChatCompletion c v).Fits (d + 7) := by
  cases v with
  | object object =>
    have hcontent (text : String) :
        (if text = "" then Value.null else .string text).Fits (d + 3) := by
      split_ifs
      · exact Value.fits_null _
      · exact Value.fits_string _ _
    exact fits_chatCompletion _ _ _ (fits_model h) (fits_anthropicMessage (hcontent _) _)
      (fits_chatUsage (d + 4) _)
  | _ => exact h

/-! ### The answer -/

/-- The modes in which every field `model` of a response is rewritten, not only the one at the
top. -/
def RequestMode.rewritesAll : RequestMode → Bool
  | .native | .responsesViaChatCompletions | .chatCompletionsViaResponses => true
  | .anthropicMessagesNative | .chatCompletionsViaMessages => false

/-- What is sent in these modes depends on the rewritten response. -/
theorem convertResponse_congr (c : Codec) {b b' p p' : String} {mode : RequestMode}
    (hmode : mode.rewritesAll = true) {json json' : Value}
    (h : rewriteResponseModels b p json = rewriteResponseModels b' p' json') :
    convertResponse c (some b) (some p) mode json =
      convertResponse c (some b') (some p') mode json' := by
  cases mode with
  | native => simp only [convertResponse, withModels, h]
  | responsesViaChatCompletions => simp only [convertResponse, withModels, h]
  | chatCompletionsViaResponses => simp only [convertResponse, withModels, h]
  | anthropicMessagesNative => cases hmode
  | chatCompletionsViaMessages => cases hmode

section Names

variable {backendModel publicModel : String}

/-- **What is sent in these modes does not name the backend model.** -/
theorem namesModel_convertResponse (c : Codec) (hne : backendModel ≠ publicModel)
    (hunknown : backendModel ≠ "unknown") {mode : RequestMode} (hmode : mode.rewritesAll = true)
    (json : Value) :
    namesModel backendModel
      (convertResponse c (some backendModel) (some publicModel) mode json) = false := by
  have hrewrite := namesModel_rewrite hne json
  cases mode with
  | native => exact namesModel_ensure hrewrite
  | responsesViaChatCompletions =>
    exact namesModel_ensure (namesModel_chatCompletionToResponse c hunknown hrewrite)
  | chatCompletionsViaResponses =>
    exact namesModel_ensure (namesModel_responseToChatCompletion hunknown hrewrite)
  | anthropicMessagesNative => cases hmode
  | chatCompletionsViaMessages => cases hmode

theorem get_ensure_string {v : Value} {k s : String} (h : v.get k = some (.string s)) :
    (ensureUsageTotalTokens v).get k = some (.string s) := by
  cases v with
  | object m =>
    have hget := OrdMap.get_map k (fun k v => (ensureEntry (k, v)).2) m
    rw [Value.get_object] at h
    rw [ensureUsageTotalTokens, ensureUsageTotalTokensEntries_eq, Value.get_object]
    refine hget.trans ?_
    rw [h, Option.map_some, ensureEntry, ensureUsageTotalTokens]
    · split
      · rename_i hobject
        cases hobject
      · rfl
    · intro m hm
      cases hm
    · intro vs hvs
      cases hvs
  | _ => cases h

theorem get_rewriteTopModel (hne : backendModel ≠ publicModel) {object : List (String × Value)}
    {model : String} (h : OrdMap.get "model" object = some (.string model)) :
    ∃ name, OrdMap.get "model" (rewriteTopModel backendModel publicModel object) =
      some (.string name) ∧ name ≠ backendModel := by
  have hstr : (OrdMap.get "model" object).bind Value.asStr = some model := by
    rw [h]
    rfl
  unfold rewriteTopModel
  split_ifs with hmodel
  · exact ⟨publicModel, OrdMap.get_insert_self _ _ _, hne.symm⟩
  · exact ⟨model, h, fun heq => hmodel (hstr.trans (congrArg some heq))⟩

/-- **What is sent in the other modes does not name it at the top.** -/
theorem get_model_convertResponse (c : Codec) (hne : backendModel ≠ publicModel)
    {mode : RequestMode} (hmode : mode.rewritesAll = false) {object : List (String × Value)}
    {model : String} (h : OrdMap.get "model" object = some (.string model)) :
    ∃ name, (convertResponse c (some backendModel) (some publicModel) mode (.object object)).get
      "model" = some (.string name) ∧ name ≠ backendModel := by
  obtain ⟨name, hname, hother⟩ := get_rewriteTopModel hne h
  refine ⟨name, get_ensure_string ?_, hother⟩
  cases mode with
  | anthropicMessagesNative => exact hname
  | chatCompletionsViaMessages =>
    simp only [withModels, rewriteAnthropicMessagesResponseBodyValue,
      anthropicMessageToChatCompletion, chatCompletion, Value.get_obj, hname]
    rfl
  | native => cases hmode
  | responsesViaChatCompletions => cases hmode
  | chatCompletionsViaResponses => cases hmode

end Names

theorem fits_rewriteTop (backendModel publicModel : String) {d : ℕ} {v : Value} (h : v.Fits d) :
    (rewriteAnthropicMessagesResponseBodyValue backendModel publicModel v).Fits d := by
  cases v with
  | object m =>
    unfold rewriteAnthropicMessagesResponseBodyValue rewriteTopModel
    dsimp only
    split_ifs
    · cases d with
      | zero => exact absurd h.2 (by simp [Value.depth])
      | succ d => exact h.insert _ (Value.fits_string d _)
    · exact h
  | _ => exact h

/-- **What is sent is shallow enough to be read.** -/
theorem fits_convertResponse (c : Codec) (backendModel publicModel : String) (mode : RequestMode)
    {json : Value} (h : json.Fits maxDepth) :
    (convertResponse c (some backendModel) (some publicModel) mode json).Fits maxDepth := by
  have hall := fits_rewrite backendModel publicModel h
  have htop := fits_rewriteTop backendModel publicModel h
  refine fits_ensure ?_
  cases mode with
  | native => exact hall
  | anthropicMessagesNative => exact htop
  | responsesViaChatCompletions => exact fits_chatCompletionToResponse c hall
  | chatCompletionsViaResponses => exact fits_responseToChatCompletion hall
  | chatCompletionsViaMessages => exact fits_anthropicMessageToChatCompletion c htop

/-! ### The body of the answer -/

section Body

variable {c : Codec} (hc : c.LawfulText)

include hc

theorem looksLikeJson_of_read {body : Bytes} {json : Value} (h : c.fromSlice body = some json)
    (hjson : json.asArray.isSome = true ∨ json.asObject.isSome = true) :
    looksLikeJson body = true := by
  cases json with
  | array vs => exact looksLikeJson_of_find (Or.inr rfl) (hc.array_head _ _ h)
  | object m => exact looksLikeJson_of_find (Or.inl rfl) (hc.object_head _ _ h)
  | _ => obtain hjson | hjson := hjson <;> cases hjson

/-- The answer is the printed conversion, or the body as it came, where it is neither an array nor
an object. -/
theorem rewriteResponseBody_cases {body : Bytes} {json : Value} (h : c.fromSlice body = some json)
    (contentType : Option String) (backendModel publicModel : Option String) (mode : RequestMode) :
    (rewriteResponseBody c body contentType backendModel publicModel mode).1 =
        c.toVec (convertResponse c backendModel publicModel mode json) ∨
      (rewriteResponseBody c body contentType backendModel publicModel mode).1 = body ∧
        json.asArray = none ∧ json.asObject = none := by
  unfold rewriteResponseBody
  split_ifs with hgate
  · have hlooks : looksLikeJson body = false := by
      simp only [Bool.and_eq_true, Bool.not_eq_true'] at hgate
      exact hgate.2
    have hneither := mt (looksLikeJson_of_read hc h) (Bool.eq_false_iff.mp hlooks)
    rw [not_or, Bool.not_eq_true, Bool.not_eq_true, Option.isSome_eq_false_iff,
      Option.isSome_eq_false_iff, Option.isNone_iff_eq_none, Option.isNone_iff_eq_none] at hneither
    exact Or.inr ⟨rfl, hneither⟩
  · rw [h]
    exact Or.inl rfl

/-- What is printed is read, but for the last digits of floating point numbers. -/
theorem read_convertResponse {body : Bytes} {json : Value} (h : c.fromSlice body = some json)
    (backendModel publicModel : String) (mode : RequestMode) :
    ∃ answer, c.fromSlice (c.toVec (convertResponse c (some backendModel) (some publicModel) mode
        json)) = some answer ∧
      answer.blur =
        (convertResponse c (some backendModel) (some publicModel) mode json).blur := by
  have hfits := fits_convertResponse c backendModel publicModel mode (hc.wf_of_read _ _ h)
  obtain ⟨answer, hanswer⟩ := Option.isSome_iff_exists.mp (hc.read_print _ hfits.1 hfits.2)
  exact ⟨answer, hanswer, hc.blur_read_print _ _ hfits.1 hanswer⟩

/-- The answer is read, and it does not name the backend model. -/
theorem answer_not_names {backendModel publicModel : String} (hne : backendModel ≠ publicModel)
    (hunknown : backendModel ≠ "unknown") {mode : RequestMode} (hmode : mode.rewritesAll = true)
    {body : Bytes} {json : Value} (h : c.fromSlice body = some json) (contentType : Option String) :
    ∃ answer, c.fromSlice (rewriteResponseBody c body contentType (some backendModel)
        (some publicModel) mode).1 = some answer ∧ namesModel backendModel answer = false := by
  obtain hbody | ⟨hbody, harray, hobject⟩ := rewriteResponseBody_cases hc h contentType
    (some backendModel) (some publicModel) mode
  · obtain ⟨answer, hanswer, hblur⟩ := read_convertResponse hc h backendModel publicModel mode
    refine ⟨answer, hbody ▸ hanswer, ?_⟩
    rw [← namesModel_blur, hblur, namesModel_blur]
    exact namesModel_convertResponse c hne hunknown hmode json
  · exact ⟨json, (congrArg c.fromSlice hbody).trans h, namesModel_leaf harray hobject⟩

theorem answer_top_model {backendModel publicModel : String} (hne : backendModel ≠ publicModel)
    {mode : RequestMode} (hmode : mode.rewritesAll = false) {body : Bytes}
    {object : List (String × Value)} {model : String}
    (h : c.fromSlice body = some (.object object))
    (hmodel : OrdMap.get "model" object = some (.string model)) (contentType : Option String) :
    ∃ answer, c.fromSlice (rewriteResponseBody c body contentType (some backendModel)
        (some publicModel) mode).1 = some answer ∧
      answer.get "model" ≠ some (.string backendModel) := by
  obtain hbody | ⟨-, -, hobject⟩ := rewriteResponseBody_cases hc h contentType
    (some backendModel) (some publicModel) mode
  · obtain ⟨answer, hanswer, hblur⟩ := read_convertResponse hc h backendModel publicModel mode
    obtain ⟨name, hname, hother⟩ := get_model_convertResponse c hne hmode hmodel
    refine ⟨answer, hbody ▸ hanswer, fun hleak => hother ?_⟩
    have hget := congrArg (fun v : Value => v.get "model") hblur
    simp only [Value.get_blur, hleak, hname, Option.map_some, Value.blur_string, Option.some_inj,
      Value.string.injEq] at hget
    exact hget.symm
  · cases hobject

/-- The answer does not depend on the name in a template. -/
theorem answer_template {mode : RequestMode} (hmode : mode.rewritesAll = true)
    {template : Template} {name₁ name₂ publicModel : String} {body₁ body₂ : Bytes}
    (h₁ : template.namesElsewhere name₁ = false) (h₂ : template.namesElsewhere name₂ = false)
    (hread₁ : c.fromSlice body₁ = some (template.fill name₁))
    (hread₂ : c.fromSlice body₂ = some (template.fill name₂))
    (hscalar : template.isScalar = true → body₁ = body₂) (contentType : Option String) :
    (rewriteResponseBody c body₁ contentType (some name₁) (some publicModel) mode).1 =
      (rewriteResponseBody c body₂ contentType (some name₂) (some publicModel) mode).1 := by
  have hconvert : convertResponse c (some name₁) (some publicModel) mode (template.fill name₁) =
      convertResponse c (some name₂) (some publicModel) mode (template.fill name₂) :=
    convertResponse_congr c hmode ((Template.rewrite_fill h₁).trans (Template.rewrite_fill h₂).symm)
  unfold rewriteResponseBody
  rw [hread₁, hread₂]
  dsimp only
  rw [← hconvert]
  cases hs : template.isScalar with
  | true =>
    rw [hscalar hs]
    split_ifs
    · rfl
    · rfl
  | false =>
    rw [looksLikeJson_of_read hc hread₁ (Template.fill_of_not_scalar hs _),
      looksLikeJson_of_read hc hread₂ (Template.fill_of_not_scalar hs _)]
    split_ifs with hgate
    · rw [Bool.not_true, Bool.and_false] at hgate
      cases hgate
    · rfl

end Body

/-- **The name of the backend model does not show in a response that is not a stream**: in the modes
that rewrite all fields `model`, no object in the answer has a field `model` with that name, and
filling a template with one name or with another gives the same answer; in the other modes, where
the response is an object with a text `model`, the answer has another one. -/
theorem buffered_models_hidden {c : Codec} (hc : c.LawfulText) (publicModel : String)
    (contentType : Option String) :
    (∀ backendModel mode body json, backendModel ≠ publicModel → backendModel ≠ "unknown" →
      RequestMode.rewritesAll mode = true → c.fromSlice body = some json →
      ∃ answer, c.fromSlice (rewriteResponseBody c body contentType (some backendModel)
        (some publicModel) mode).1 = some answer ∧ namesModel backendModel answer = false) ∧
    (∀ backendModel mode body object model, backendModel ≠ publicModel →
      RequestMode.rewritesAll mode = false → c.fromSlice body = some (.object object) →
      OrdMap.get "model" object = some (.string model) →
      ∃ answer, c.fromSlice (rewriteResponseBody c body contentType (some backendModel)
        (some publicModel) mode).1 = some answer ∧
          answer.get "model" ≠ some (.string backendModel)) ∧
    (∀ mode (template : Template) name₁ name₂ body₁ body₂, RequestMode.rewritesAll mode = true →
      template.namesElsewhere name₁ = false → template.namesElsewhere name₂ = false →
      c.fromSlice body₁ = some (template.fill name₁) →
      c.fromSlice body₂ = some (template.fill name₂) →
      (template.isScalar = true → body₁ = body₂) →
      (rewriteResponseBody c body₁ contentType (some name₁) (some publicModel) mode).1 =
        (rewriteResponseBody c body₂ contentType (some name₂) (some publicModel) mode).1) :=
  ⟨fun _ _ _ _ hne hunknown hmode h => answer_not_names hc hne hunknown hmode h contentType,
    fun _ _ _ _ _ hne hmode h hmodel => answer_top_model hc hne hmode h hmodel contentType,
    fun _ _ _ _ _ _ hmode h₁ h₂ hread₁ hread₂ hscalar =>
      answer_template hc hmode h₁ h₂ hread₁ hread₂ hscalar contentType⟩

/-- A chat completion of a backend, in which one field `model` is left open. -/
def sampleTemplate : Template :=
  .object true [("id", .value (.string "x")), ("usage", .object true [])]

/-- Two backends answer with their own names; the client sees the same answer. -/
theorem buffered_models_hidden_sample :
    ∃ answer, Json.reference.fromSlice (rewriteResponseBody Json.reference
        (Json.reference.toVec (sampleTemplate.fill "a")) (some "application/json") (some "a")
        (some "p") .responsesViaChatCompletions).1 = some answer ∧
      namesModel "a" answer = false ∧
      (rewriteResponseBody Json.reference (Json.reference.toVec (sampleTemplate.fill "a"))
        (some "application/json") (some "a") (some "p") .responsesViaChatCompletions).1 =
      (rewriteResponseBody Json.reference (Json.reference.toVec (sampleTemplate.fill "b"))
        (some "application/json") (some "b") (some "p") .responsesViaChatCompletions).1 := by
  have hidden := buffered_models_hidden Json.reference_lawfulText "p" (some "application/json")
  obtain ⟨hnames, -, htemplate⟩ := hidden
  have hread (name : String) (h : name ∈ ["a", "b"]) :
      Json.reference.fromSlice (Json.reference.toVec (sampleTemplate.fill name)) =
        some (sampleTemplate.fill name) := by
    revert name
    decide +kernel
  obtain ⟨answer, hanswer, hname⟩ := hnames "a" .responsesViaChatCompletions _ _ (by decide)
    (by decide) rfl (hread "a" (by simp))
  exact ⟨answer, hanswer, hname, htemplate _ sampleTemplate _ _ _ _ rfl (by decide +kernel)
    (by decide +kernel) (hread "a" (by simp)) (hread "b" (by simp)) (by nofun)⟩

end Onair
