import Onair.Core.Names

/-!
# Names of models in what is sent

The events and frames that are made name a model in one place: the response of an event, the head of
a chunk.

* `ResponsesEvent.namesModel_data`, `ChatFrame.namesModel_data`: **a frame names the model that it
  was made with, and no other**.
-/

namespace Onair

open Json

theorem namesModel_obj_model {name model : String} {l : List (String × Value)}
    (hmodel : (Value.obj l).get "model" = some (.string model))
    (hother : ∀ e ∈ l, e = ("model", .string model) ∨ fieldNames name e = false) :
    namesModel name (.obj l) = decide (model = name) := by
  by_cases h : model = name
  · rw [decide_eq_true h]
    exact fieldNames_of_get (k := "model") hmodel (by simp [fieldNames, h])
  · rw [decide_eq_false h]
    refine namesModel_obj fun e he => ?_
    obtain rfl | he := hother e he
    · simp [fieldNames, h]
    · exact he

/-! ### Events of the Responses API -/

theorem namesModel_outputTextPart (name text : String) :
    namesModel name (outputTextPart text) = false :=
  namesModel_obj (by simp [fieldNames])

theorem OutputItem.namesModel_toValue (name : String) (item : OutputItem) :
    namesModel name item.toValue = false := by
  cases item with
  | message id status content =>
    refine namesModel_obj ?_
    simp [fieldNames, namesModel_outputTextPart]
  | functionCall status callId itemName arguments => exact namesModel_obj (by simp [fieldNames])

theorem ResponseObject.namesModel_toValue (name : String) (r : ResponseObject) :
    namesModel name r.toValue = decide (r.model = name) := by
  have husage : namesModel name (.obj [("input_tokens", .u64 r.usage.input),
      ("input_tokens_details", .obj [("cached_tokens", .u64 r.usage.cachedInput)]),
      ("output_tokens", .u64 r.usage.output),
      ("output_tokens_details", .obj [("reasoning_tokens", .u64 r.usage.reasoningOutput)]),
      ("total_tokens", .u64 r.usage.reportedTotal)]) = false := by
    refine namesModel_obj ?_
    simp [fieldNames, namesModel_count name (k := "cached_tokens") (by decide),
      namesModel_count name (k := "reasoning_tokens") (by decide)]
  refine namesModel_obj_model (by simp [Value.get_obj]) ?_
  simp [fieldNames, husage, OutputItem.namesModel_toValue]

namespace ResponsesEvent

/-- The model that an event names. -/
def modelName : ResponsesEvent → Option String
  | .created r | .inProgress r | .completed r => some r.model
  | _ => none

/-- **An event names the model of its response.** -/
theorem namesModel_data (name : String) (e : ResponsesEvent) :
    namesModel name e.data = decide (e.modelName = some name) := by
  have hresponse (r : ResponseObject) (type : String) :
      namesModel name (.obj [("type", .string type), ("response", r.toValue)]) =
        decide (some r.model = some name) := by
    rw [decide_eq_decide.mpr Option.some_inj, ← r.namesModel_toValue]
    cases h : namesModel name r.toValue with
    | true =>
      refine fieldNames_of_get (k := "response") (v := r.toValue) ?_ ?_
      · exact (Value.get_obj _ "response").trans (by simp)
      · rw [fieldNames_of_ne (by decide), h]
    | false => exact namesModel_obj (by simp [fieldNames, h])
  have hempty : namesModel name (.obj [("type", .string "output_text"), ("text", .string ""),
      ("annotations", .array [])]) = false := namesModel_obj (by simp [fieldNames])
  cases e with
  | created r => exact hresponse r _
  | inProgress r => exact hresponse r _
  | completed r => exact hresponse r _
  | _ =>
    refine namesModel_obj ?_
    simp [fields, fieldNames, indexValue, OutputItem.namesModel_toValue,
      namesModel_outputTextPart, hempty]

end ResponsesEvent

/-! ### Chat completion frames -/

theorem ChatDelta.namesModel_toValue (name : String) (delta : ChatDelta) :
    namesModel name delta.toValue = false := by
  have hrole (role : Bool) : ∀ e ∈ roleEntry role, fieldNames name e = false := by
    cases role <;> simp [roleEntry, fieldNames]
  cases delta with
  | empty => exact namesModel_obj (by simp)
  | content role text =>
    refine namesModel_obj (List.forall_mem_append.mpr ⟨hrole role, ?_⟩)
    simp [fieldNames]
  | announce role index callId callName =>
    have hfunction : namesModel name (.obj [("name", .string callName),
        ("arguments", .string "")]) = false := namesModel_obj (by simp [fieldNames])
    have hcall : namesModel name (.obj [("index", indexValue index), ("id", .string callId),
        ("type", .string "function"), ("function", .obj [("name", .string callName),
          ("arguments", .string "")])]) = false :=
      namesModel_obj (by simp [fieldNames, indexValue, hfunction])
    refine namesModel_obj (List.forall_mem_append.mpr ⟨hrole role, ?_⟩)
    simp [fieldNames, hcall]
  | arguments index fragment =>
    have hfunction : namesModel name (.obj [("arguments", .string fragment)]) = false :=
      namesModel_obj (by simp [fieldNames])
    have hcall : namesModel name (.obj [("index", indexValue index),
        ("function", .obj [("arguments", .string fragment)])]) = false :=
      namesModel_obj (by simp [fieldNames, indexValue, hfunction])
    exact namesModel_obj (by simp [fieldNames, hcall])

namespace ChatFrame

/-- The model that a frame names. -/
def modelName : ChatFrame → Option String
  | .chunk head _ _ _ | .usage head _ => some head.model
  | _ => none

/-- **A frame names the model of its head.** -/
theorem namesModel_data (name : String) {f : ChatFrame} {v : Value} (h : f.data = some v) :
    namesModel name v = decide (f.modelName = some name) := by
  have hhead (head : ChunkHead) (l : List (String × Value))
      (hmodel : (Value.obj (head.entries ++ l)).get "model" = some (.string head.model))
      (hl : ∀ e ∈ l, fieldNames name e = false) :
      namesModel name (.obj (head.entries ++ l)) = decide (some head.model = some name) := by
    rw [decide_eq_decide.mpr Option.some_inj]
    refine namesModel_obj_model hmodel
      (List.forall_mem_append.mpr ⟨?_, fun e he => Or.inr (hl e he)⟩)
    simp [ChunkHead.entries, fieldNames]
  cases f with
  | chunk head delta finishReason usageNull =>
    have hchoices (reason : Value) (hreason : namesModel name reason = false) :
        namesModel name (.array [.obj [("index", indexValue 0), ("delta", delta.toValue),
          ("finish_reason", reason)]]) = false := by
      rw [namesModel_array, List.any_cons, List.any_nil, Bool.or_false]
      refine namesModel_obj ?_
      simp [fieldNames, indexValue, delta.namesModel_toValue, hreason]
    obtain rfl := Option.some.inj h
    rw [List.append_assoc]
    refine hhead head _ ?_ (List.forall_mem_append.mpr ⟨?_, ?_⟩)
    · cases usageNull <;> simp [Value.get_obj, ChunkHead.entries]
    · rw [List.forall_mem_singleton, fieldNames_of_ne (by decide)]
      exact hchoices _ (by cases finishReason <;> simp)
    · cases usageNull <;> simp [fieldNames]
  | usage head counts =>
    obtain rfl := Option.some.inj h
    refine hhead head _ ?_ ?_
    · simp [Value.get_obj, ChunkHead.entries]
    · simp [fieldNames, namesModel_chatUsage]
  | error message =>
    obtain rfl := Option.some.inj h
    have herror : namesModel name (.obj [("message", .string message),
        ("type", .string "server_error"), ("param", .null), ("code", .string "upstream_error")]) =
        false := namesModel_obj (by simp [fieldNames])
    exact namesModel_obj (by simp [fieldNames, herror])
  | done => cases h

end ChatFrame

end Onair
